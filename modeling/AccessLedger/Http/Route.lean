import AccessLedger.Account
import AccessLedger.Group

/-!
# Routes

A path is split at its slashes; the fixed parts are compared as they are
written, the others are parameters with percent escapes.  `Route.ofPath?`
finds the route of a path, `Route.action?` what a method does there, and
`RawAction.decode?` takes the parameters in.
-/

namespace AccessLedger.Http

/-- The parts of a text between the characters `c`. -/
def splitAt (c : Char) : List Char → List (List Char)
  | [] => [[]]
  | d :: r =>
    if d = c then [] :: splitAt c r
    else match splitAt c r with
      | [] => [[d]]
      | part :: parts => (d :: part) :: parts

/-- The parts of a path. -/
def segments (path : List Char) : List (List Char) := splitAt '/' path

/-- The characters of the name of a scheme. -/
def isSchemeChar (c : Char) : Bool := c.isAlphanum || c == '+' || c == '-' || c == '.'

/-- What follows the scheme of a target and its authority; `none` if the target has no scheme. -/
def afterAuthority? (target : List Char) : Option (List Char) := do
  let rest ← "://".toList.isPrefixOf? (target.dropWhile isSchemeChar)
  return rest.dropWhile fun c => c != '/' && c != '?' && c != '#'

/--
The path of a request target, without a query or a fragment.  A target is a
path, or a scheme and an authority with a path after them, which is the root
if it is left out.
-/
def pathOf (target : List Char) : List Char :=
  let upToQuery (cs : List Char) : List Char := cs.takeWhile fun c => c != '?' && c != '#'
  match target with
  | '/' :: _ => upToQuery target
  | _ => match (afterAuthority? target).map upToQuery with
    | none => []
    | some [] => ['/']
    | some path => path

/-- A path that the API knows, with its parameters as they are written. -/
inductive Route where
  | auditLog (uuid : List Char)
  | member (uuid account : List Char)
  | subgroup (uuid included : List Char)
  | access (project : List Char)
  deriving DecidableEq, Repr

/-- The route of a path.  A parameter at the end of a path may not be empty. -/
def Route.ofPath? : List (List Char) → Option Route
  | [root, first, param, last] =>
    if root ≠ [] then none
    else if first = "groups".toList ∧ last = "log.audit".toList then some (auditLog param)
    else if first = "projects".toList ∧ last = "access".toList then some (access param)
    else none
  | [root, first, param, middle, last] =>
    if root ≠ [] ∨ first ≠ "groups".toList ∨ last = [] then none
    else if middle = "members".toList then some (member param last)
    else if middle = "groups".toList then some (subgroup param last)
    else none
  | _ => none

/-- Something that the API does; `τ` is the type of a text parameter, `α` that of an account. -/
inductive Action (τ α : Type) where
  | readLog (uuid : τ)
  | addMember (uuid : τ) (account : α)
  | removeMember (uuid : τ) (account : α)
  | addSubgroup (uuid included : τ)
  | removeSubgroup (uuid included : τ)
  | readAccess (project : τ)
  | commit (project : τ)
  deriving DecidableEq, Repr

/-- An action with its parameters as they are written. -/
abbrev RawAction := Action (List Char) (List Char)

/-- What a method does on a route. -/
def Route.action? (method : String) : Route → Option RawAction
  | auditLog uuid => if method = "GET" ∨ method = "HEAD" then some (.readLog uuid) else none
  | member uuid account =>
    if method = "PUT" then some (.addMember uuid account)
    else if method = "DELETE" then some (.removeMember uuid account)
    else none
  | subgroup uuid included =>
    if method = "PUT" then some (.addSubgroup uuid included)
    else if method = "DELETE" then some (.removeSubgroup uuid included)
    else none
  | access project =>
    if method = "GET" ∨ method = "HEAD" then some (.readAccess project)
    else if method = "POST" then some (.commit project)
    else none

/-- The account that a parameter names by its number. -/
def accountParameter? (raw : List Char) : Option AccountId := do
  let s ← Text.Percent.decode raw
  let n ← Text.unsigned? 4294967295 s.toList
  return ⟨UInt32.ofNat n⟩

/-- Take in the parameters of an action. -/
def Action.decode? : RawAction → Option (Action String AccountId)
  | .readLog uuid => do return .readLog (← Text.Percent.decode uuid)
  | .addMember uuid account => do
    return .addMember (← Text.Percent.decode uuid) (← accountParameter? account)
  | .removeMember uuid account => do
    return .removeMember (← Text.Percent.decode uuid) (← accountParameter? account)
  | .addSubgroup uuid included => do
    return .addSubgroup (← Text.Percent.decode uuid) (← Text.Percent.decode included)
  | .removeSubgroup uuid included => do
    return .removeSubgroup (← Text.Percent.decode uuid) (← Text.Percent.decode included)
  | .readAccess project => do return .readAccess (← Text.Percent.decode project)
  | .commit project => do return .commit (← Text.Percent.decode project)

end AccessLedger.Http
