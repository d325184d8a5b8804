import AccessLedger.Failure

/-!
# Replies

A reply has a status and perhaps a JSON body.  `ApiError` lists the reasons
why the API refuses a request; each has a status, and its text is the body.
-/

namespace AccessLedger.Http

/-- What is sent back. -/
structure Reply where
  status : Nat
  body : Option Json := none
  /-- What a client is asked to identify itself with. -/
  challenge : Option String := none

namespace Reply

/-- A reply with a JSON body. -/
def json (status : Nat) (body : Json) : Reply := { status, body := some body }

/-- A reply whose body is the text of an error. -/
def error (status : Nat) (text : String) : Reply :=
  json status (.ofMembers [("error", .text text)])

/-- The same reply without its body. -/
def withoutBody (r : Reply) : Reply := { r with body := none }

/-- Whether the request was carried out. -/
def isSuccess (r : Reply) : Bool := 200 ≤ r.status && r.status < 300

end Reply

/-- Why the API refuses a request. -/
inductive ApiError where
  | unauthorized
  | forbidden (text : String)
  | notFound (text : String)
  | methodNotAllowed (text : String)
  | badRequest (text : String)
  | conflict (text : String)
  | store (fault : StoreFault)
  deriving DecidableEq, Repr

namespace ApiError

/-- How the API reports a failure. -/
def ofFailure (f : Failure) : ApiError :=
  match f with
  | .notOwner => forbidden f.message
  | .unsupportedGroup _ => methodNotAllowed f.message
  | .groupNotFound _ | .accountNotFound _ | .projectNotFound _ | .notMember _ _ =>
    notFound f.message
  | .validation text => badRequest text
  | .staleRevision _ _ => conflict f.message
  | .store fault => store fault

/-- The status of a refusal. -/
def status : ApiError → Nat
  | unauthorized => 401
  | forbidden _ => 403
  | notFound _ => 404
  | methodNotAllowed _ => 405
  | badRequest _ => 400
  | conflict _ => 409
  | store _ => 500

/-- The text that a client sees. -/
def text : ApiError → String
  | unauthorized => "authentication required"
  | forbidden text | notFound text | methodNotAllowed text | badRequest text | conflict text => text
  | store fault => fault.message

/-- The text of a refusal with its kind. -/
def display : ApiError → String
  | unauthorized => "authentication required"
  | forbidden text => "forbidden: " ++ text
  | notFound text => "not found: " ++ text
  | methodNotAllowed text => "method not allowed: " ++ text
  | badRequest text => "bad request: " ++ text
  | conflict text => "conflict: " ++ text
  | store fault => "store error: " ++ fault.message

/-- The reply to a refused request. -/
def reply (e : ApiError) : Reply := .error e.status e.text

end ApiError

end AccessLedger.Http
