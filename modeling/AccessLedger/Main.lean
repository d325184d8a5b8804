import AccessLedger.Settings.CommandLine

/-!
# The program

Reads the settings of a server and shows what it would be started with.
-/

namespace AccessLedger

open Settings

/-- The text of a file; `none` if it cannot be read. -/
def readText? (file : String) : IO (Option String) := do
  try return some (← IO.FS.readFile file) catch _ => return none

/-- The variables of the environment that are set. -/
def readEnvironment : IO (List (String × String)) := do
  variableNames.filterMapM fun name => do
    return (← IO.getEnv name).map (name, ·)

/-- Show the settings that the arguments lead to; the answer is the exit code. -/
def run (arguments : List String) : IO UInt32 := do
  match settingsFile? arguments with
  | none =>
    IO.eprintln "usage: access-ledger [--config FILE]"
    return 2
  | some file =>
    match ServerConfig.load? (← readText? file) (← readEnvironment) with
    | none =>
      IO.eprintln ("failed to load configuration from " ++ file)
      return 1
    | some config =>
      (config.summary (← IO.getEnv "HOME")).forM IO.println
      return 0

end AccessLedger

def main (arguments : List String) : IO UInt32 := AccessLedger.run arguments
