import AccessLedger.Http.Credentials
import AccessLedger.Settings.Setting

/-!
# The settings of a server

Settings come from a TOML file, which need not exist, and from environment
variables, which go before it; a name in either of them may be a path into
lists and tables.  A setting of another kind is converted where that makes
sense: numbers and truth values to texts, texts to numbers.
-/

namespace AccessLedger.Settings

/-- How a server is set up. -/
structure ServerConfig where
  host : String
  port : Nat
  storePath : String
  users : List Http.Login
  deriving DecidableEq, Repr

/-! ## Conversions -/

/-- The text that a setting stands for. -/
def textOf? : Setting → Option String
  | .text s => some s
  | .integer i => some (String.ofList (Text.signedDigits i))
  | .float f => some (String.ofList f.text)
  | .boolean b => some (if b then "true" else "false")
  | _ => none

/-- The largest integer without sign that 64 bits hold. -/
def maxWord : Nat := 18446744073709551615

/-- The words that stand for one and for zero, in any case. -/
def switchWord? (s : String) : Option Nat :=
  let word := String.ofList (s.toList.map Char.toLower)
  if word = "true" ∨ word = "on" ∨ word = "yes" then some 1
  else if word = "false" ∨ word = "off" ∨ word = "no" then some 0
  else none

/-- The number without sign that a setting stands for; a number with a fraction is rounded. -/
def numberOf? : Setting → Option Nat
  | .integer i => if 0 ≤ i then some i.toNat else none
  | .boolean b => some (if b then 1 else 0)
  | .text s => match switchWord? s with
    | some n => some n
    | none => Text.unsigned? maxWord s.toList
  | .float (.number (.finite false value)) => some (min value.round maxWord)
  | .float (.number (.infinite false)) => some maxWord
  | .float _ => some 0
  | _ => none

/-- A number of at most `limit`. -/
def boundedOf? (limit : Nat) (v : Setting) : Option Nat := do
  let n ← numberOf? v
  if n ≤ limit then some n else none

/-- A login, given its three settings. -/
def loginOf? (username account passwordHash : Setting) : Option Http.Login := do
  let id ← boundedOf? 4294967295 account
  return ⟨← textOf? username, ⟨UInt32.ofNat id⟩, ← textOf? passwordHash⟩

/-- The login that a table or a list of settings describes. -/
def login? : Setting → Option Http.Login
  | .table entries => do
    loginOf? (← entries.lookup "username") (← entries.lookup "account_id")
      (← entries.lookup "password_hash")
  | .list (username :: account :: passwordHash :: _) => loginOf? username account passwordHash
  | _ => none

/-- The logins of a list; without a list there are none. -/
def logins? : Option Setting → Option (List Http.Login)
  | none => some []
  | some (.list items) => items.mapM login?
  | some _ => none

/-! ## Layers -/

/-- The letters that the name of an environment variable of the server begins with. -/
def variablePrefix : List Char := "gatehouse_".toList

/-- The setting that an environment variable is for. -/
def settingOf? (name : String) : Option String :=
  (variablePrefix.isPrefixOf? (name.toList.map Setting.smallLetter)).map String.ofList

/-- The settings that environment variables hold. -/
def ofEnvironment (environment : List (String × String)) : Setting.Entries :=
  environment.filterMap fun (name, value) => (settingOf? name).map fun key => (key, .text value)

/-- The configuration that settings describe. -/
def ServerConfig.ofEntries? (entries : Setting.Entries) : Option ServerConfig := do
  let host ← textOf? (← entries.lookup "host")
  let port ← boundedOf? 65535 (← entries.lookup "port")
  let storePath ← textOf? (← entries.lookup "store_path")
  let users ← logins? (entries.lookup "users")
  return ⟨host, port, storePath, users⟩

namespace ServerConfig

/-- The settings of a file; a mark at its start is the file's, and its document may have one too. -/
def fileEntries? (text : String) : Option Setting.Entries := do
  match ← Setting.ofToml? (← Toml.read? (Toml.dropMark text)) with
  | .table entries => some entries
  | _ => none

/-- The configuration of a file, if there is one, and an environment, sorted by names. -/
def load? (file : Option String) (environment : List (String × String)) : Option ServerConfig := do
  let fromFile ← match file with
    | none => some []
    | some text => fileEntries? text
  let settings ← Setting.setAll? (fromFile ++ ofEnvironment environment) (.table [])
  ofEntries? settings.entries

/-- Where the server listens. -/
def address (c : ServerConfig) : String :=
  c.host ++ ":" ++ String.ofList (Text.digits c.port)

/-- A path below another one; an absolute path stands for itself. -/
def joinPath (base rest : List Char) : List Char :=
  if rest.head? = some '/' then rest
  else if base = [] ∨ base.getLast? = some '/' then base ++ rest
  else base ++ '/' :: rest

/-- The path of the store, where `~/` is the home directory if there is one. -/
def resolvedStorePath (c : ServerConfig) (home : Option String) : String :=
  match home, "~/".toList.isPrefixOf? c.storePath.toList with
  | some home, some rest => String.ofList (joinPath home.toList rest)
  | _, _ => c.storePath

end ServerConfig

end AccessLedger.Settings
