import AccessLedger.Account
import AccessLedger.Http.MediaType
import AccessLedger.Text.Base64
import AccessLedger.Text.Utf8

/-!
# Credentials

A request names its user by the `Basic` scheme: name and password, with a
colon between them, in Base64.  The first login with that name decides.  How
a password is checked against what is kept of it is left open.
-/

namespace AccessLedger.Http

/-- Someone who may use the server, and the account that they act as. -/
structure Login where
  username : String
  account : AccountId
  passwordHash : String
  deriving DecidableEq, Repr

/-- The fields of a header in their order: a name in small letters, and the bytes of a value. -/
abbrev HeaderFields := List (String × List UInt8)

/-- The first authorization field, if there is one and it is text. -/
def HeaderFields.authorization? (fields : HeaderFields) : Option String :=
  (fields.lookup "authorization").bind Text.ofBytes?

/-- Whether a password, the second argument, fits what is kept of it. -/
abbrev PasswordCheck := String → String → Bool

/-- The text before the first colon and the text after it. -/
def splitColon : List Char → Option (List Char × List Char)
  | [] => none
  | c :: r =>
    if c = ':' then some ([], r)
    else (splitColon r).map fun (name, password) => (c :: name, password)

/-- The name and the password in the value of an authorization header. -/
def basicCredentials? (header : String) : Option (String × String) := do
  if !isHeaderText header.toList then none
  else
    let encoded ← "Basic ".toList.isPrefixOf? header.toList
    let bytes ← Text.Base64.decode encoded
    let text ← Text.ofBytes? bytes
    let (name, password) ← splitColon text.toList
    return (String.ofList name, String.ofList password)

/-- The account that a request acts as. -/
def authenticate (check : PasswordCheck) (users : List Login) (header : Option String) :
    Option AccountId := do
  let (name, password) ← basicCredentials? (← header)
  let user ← users.find? (·.username = name)
  if check user.passwordHash password then some user.account else none

end AccessLedger.Http
