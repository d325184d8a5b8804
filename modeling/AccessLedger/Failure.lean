import AccessLedger.Group

/-!
# Failures

Why an operation on groups or projects fails.  `Failure.message` is the text
that a user sees.
-/

namespace AccessLedger

/-- Why stored data could not be read or written. -/
inductive StoreFault where
  /-- The database refused a statement or held a value out of range. -/
  | database
  /-- A column that should hold JSON does not. -/
  | json
  /-- A column that should hold a timestamp does not. -/
  | timestamp
  /-- Any other cause, with its text. -/
  | other (text : String)
  deriving DecidableEq, Repr

namespace StoreFault

/--
The text of a cause, up to the colon after which the library that failed gives
its own reason.  What libraries say is not modelled, and nothing depends on it.
-/
def message : StoreFault → String
  | database => "database error"
  | json => "json error"
  | timestamp => "date/time parse error"
  | other text => text

end StoreFault

/-- Why an operation failed. -/
inductive Failure where
  | notOwner
  /-- The group exists but its members are not managed here. -/
  | unsupportedGroup (uuid : GroupUuid)
  | groupNotFound (uuid : GroupUuid)
  | accountNotFound (id : AccountId)
  | projectNotFound (project : String)
  | notMember (member : String) (group : GroupUuid)
  | validation (text : String)
  /-- A write was based on the revision `actual` and not on the stored one. -/
  | staleRevision (expected actual : String)
  | store (fault : StoreFault)
  deriving DecidableEq, Repr

namespace Failure

/-- The text of a failure. -/
def message : Failure → String
  | notOwner => "not an owner"
  | unsupportedGroup uuid => "group " ++ uuid.text ++ " is not an internal group"
  | groupNotFound uuid => "group not found: " ++ uuid.text
  | accountNotFound id => "account not found: " ++ id.display
  | projectNotFound project => "project not found: " ++ project
  | notMember member group => member ++ " is not a member of group " ++ group.text
  | validation text => "invalid access configuration: " ++ text
  | staleRevision expected actual =>
    "revision " ++ actual ++ " does not match current revision " ++ expected
  | store fault => "store error: " ++ fault.message

end Failure

end AccessLedger
