import AccessLedger.Settings.ServerConfig

/-!
# The command line

The one option of a server names the file with its settings: `--config FILE`,
`--config=FILE` or `-c FILE`.  `ServerConfig.summary` is what is shown of the
settings that were found.
-/

namespace AccessLedger.Settings

/-- The file with the settings, unless another one is named. -/
def defaultFile : String := "config.toml"

/-- The file that an argument names by itself. -/
def assignedFile? (argument : String) : Option String :=
  ("--config=".toList.isPrefixOf? argument.toList).map String.ofList

/-- The file that the arguments name; `none` if they make no sense. -/
def settingsFile? : List String → Option String
  | [] => some defaultFile
  | [argument] => assignedFile? argument
  | [option, file] => if option = "--config" ∨ option = "-c" then some file else none
  | _ => none

/-- The environment variables that are looked at. -/
def variableNames : List String :=
  ["GATEHOUSE_HOST", "GATEHOUSE_PORT", "GATEHOUSE_STORE_PATH", "GATEHOUSE_USERS"]

/-- What is shown of a configuration, line by line. -/
def ServerConfig.summary (c : ServerConfig) (home : Option String) : List String :=
  ["address: http://" ++ c.address,
   "store: " ++ c.resolvedStorePath home,
   "users: " ++ String.ofList (Text.digits c.users.length)] ++
    if c.users.isEmpty then ["no users configured; every request will be rejected"] else []

end AccessLedger.Settings
