import AccessLedger.Http.Api
import AccessLedger.Http.Credentials

/-!
# The server

The API stands under `/api`.  A request without valid credentials gets the same
reply whatever its path, and the store is not looked at; the reply has no body
if the method is `HEAD` and the path belongs to a route, whether the route
serves `HEAD` or not.
-/

namespace AccessLedger.Http

/-- The reply to a request without valid credentials. -/
def unauthorizedReply : Reply :=
  { Reply.error 401 "unauthorized" with challenge := some "Basic realm=\"gatehouse\"" }

/-- The path below `/api`. -/
def belowApi? (path : List Char) : Option (List Char) :=
  match "/api".toList.isPrefixOf? path with
  | some ('/' :: r) => some ('/' :: r)
  | _ => none

/-- Whether a path is that of a route of the API. -/
def isRouted (path : List Char) : Bool :=
  ((belowApi? path).bind fun target => Route.ofPath? (segments target)).isSome

/-- The reply of the server to a request, and the database after it. -/
def serve (check : PasswordCheck) (users : List Login) (authorization : Option String)
    (r : Request) (now : Instant) (db : Database) : Reply × Database :=
  match authenticate check users authorization with
  | none =>
    (if r.method = "HEAD" && isRouted (pathOf r.target) then unauthorizedReply.withoutBody
      else unauthorizedReply, db)
  | some caller => match belowApi? (pathOf r.target) with
    | none => ({ status := 404 }, db)
    | some target => respond (some caller) { r with target } now db

end AccessLedger.Http
