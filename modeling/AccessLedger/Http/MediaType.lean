/-!
# Media types

`isJsonType` accepts the content types `application/json` and
`application/…+json`, in any case and with parameters.  Parameters follow a
semicolon; their values are tokens or quoted texts.
-/

namespace AccessLedger.Http

/-- Whether the text of a header can be taken as text: visible ASCII characters, blanks and tabs. -/
def isHeaderText (s : List Char) : Bool :=
  s.all fun c => (32 ≤ c.toNat && c.toNat < 127) || c == '\t'

/-- The characters of a token. -/
def isTokenChar (c : Char) : Bool :=
  c.isAlphanum || "!#$%&'*+-.^_`|~".toList.contains c

/-- Where in a list of parameters a reader is. -/
inductive ParameterState where
  /-- Before a parameter or at the end. -/
  | start
  | name
  /-- In a value; `begun` once it has a character. -/
  | value (begun : Bool)
  /-- In a quoted value; `begun` once it has a character. -/
  | quoted (begun : Bool)
  | afterQuote
  deriving DecidableEq, Repr

/-- Whether a text that begins in this state is the rest of a list of parameters. -/
def areParameters : ParameterState → List Char → Bool
  | .start, [] => true
  | .start, c :: r =>
    if c = ' ' then areParameters .start r else isTokenChar c && areParameters .name r
  | .name, [] => false
  | .name, c :: r =>
    if c = '=' then areParameters (.value false) r else isTokenChar c && areParameters .name r
  | .value _, [] => true
  | .value begun, c :: r =>
    if c = '"' && !begun then areParameters (.quoted false) r
    else if c = ';' && begun then areParameters .start r
    else isTokenChar c && areParameters (.value true) r
  | .quoted _, [] => false
  | .quoted begun, c :: r =>
    if c = '"' && begun then areParameters .afterQuote r
    else 31 < c.toNat && c.toNat != 127 && areParameters (.quoted true) r
  | .afterQuote, [] => true
  | .afterQuote, c :: r =>
    if c = ';' then areParameters .start r else c == ' ' && areParameters .afterQuote r

/-- A subtype without its suffix, and what follows its last plus sign if something is before that. -/
def splitSuffix (subtype : List Char) : List Char × Option (List Char) :=
  let suffix := (subtype.reverse.takeWhile (· ≠ '+')).reverse
  let front := subtype.take (subtype.length - suffix.length - 1)
  if front.isEmpty then (subtype, none) else (front, some suffix)

/-- Whether a type and a subtype stand for JSON. -/
def namesJson (type subtype : List Char) : Bool :=
  let (front, suffix) := splitSuffix (subtype.map Char.toLower)
  type.map Char.toLower == "application".toList &&
    (front == "json".toList || suffix == some "json".toList)

/-- Whether a content type stands for JSON. -/
def isJsonType (s : List Char) : Bool :=
  let type := s.takeWhile isTokenChar
  match s.dropWhile isTokenChar with
  | '/' :: r =>
    let subtype := r.takeWhile isTokenChar
    isHeaderText s && namesJson type subtype &&
      match r.dropWhile isTokenChar with
      | [] => true
      | ';' :: parameters => areParameters .start parameters
      | _ => false
  | _ => false

end AccessLedger.Http
