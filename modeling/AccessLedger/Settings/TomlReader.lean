import AccessLedger.Settings.Toml

/-!
# Reading TOML

`Toml.read?` gives the table of a document, or nothing if it is not TOML 1.0.
A document is read statement by statement; the readers of values are bounded
by a number of steps that the length of the text always provides.
-/

namespace AccessLedger.Toml

/-- What a part of a document says, and the text after it. -/
abbrev Reading (α : Type) := Option (α × List Char)

/-- The text after blanks. -/
def skipBlanks (cs : List Char) : List Char := cs.dropWhile fun c => c == ' ' || c == '\t'

/-- Whether a character may stand in a comment or, as it is, in a text. -/
def isPlainChar (c : Char) : Bool := c == '\t' || (0x20 ≤ c.toNat && c.toNat != 0x7F)

/-- The text after a line end. -/
def lineEnd? : List Char → Option (List Char)
  | '\n' :: r => some r
  | '\r' :: '\n' :: r => some r
  | _ => none

/-- The text after a comment, if there is one. -/
def skipComment : List Char → List Char
  | '#' :: r => r.dropWhile isPlainChar
  | r => r

/-- The text after blanks, a comment and the end of the line, or the end of the document. -/
def finishLine (cs : List Char) : Option (List Char) :=
  match skipComment (skipBlanks cs) with
  | [] => some []
  | r => lineEnd? r

/-- The text after blanks, comments and line ends. -/
def skipLines : Nat → List Char → List Char
  | 0, cs => cs
  | n + 1, cs =>
    let r := skipComment (skipBlanks cs)
    match lineEnd? r with
    | some r => skipLines n r
    | none => r

/-! ## Texts -/

/-- The value of a hexadecimal digit. -/
def hexValue? (c : Char) : Option Nat :=
  if c.isDigit then some (c.toNat - 0x30)
  else if 'a' ≤ c ∧ c ≤ 'f' then some (c.toNat - 0x57)
  else if 'A' ≤ c ∧ c ≤ 'F' then some (c.toNat - 0x37)
  else none

/-- The character with a code point of `count` hexadecimal digits. -/
def codePoint (count : Nat) (cs : List Char) : Reading Char :=
  let ds := cs.take count
  if ds.length = count then
    match ds.mapM hexValue? with
    | some values =>
      let n := values.foldl (fun n d => n * 16 + d) 0
      if n.isValidChar then some (Char.ofNat n, cs.drop count) else none
    | none => none
  else none

/-- The character of an escape whose backslash has been read. -/
def escape : List Char → Reading Char
  | 'b' :: r => some ('\x08', r)
  | 't' :: r => some ('\t', r)
  | 'n' :: r => some ('\n', r)
  | 'f' :: r => some ('\x0c', r)
  | 'r' :: r => some ('\r', r)
  | '"' :: r => some ('"', r)
  | '\\' :: r => some ('\\', r)
  | 'u' :: r => codePoint 4 r
  | 'U' :: r => codePoint 8 r
  | _ => none

/-- A text in double quotes, the first of which has been read. -/
def basicText : Nat → List Char → Option (List Char × List Char)
  | 0, _ => none
  | n + 1, cs =>
    match cs with
    | '"' :: r => some ([], r)
    | '\\' :: r => do
      let (c, r) ← escape r
      let (s, r) ← basicText n r
      return (c :: s, r)
    | c :: r =>
      if isPlainChar c then do
        let (s, r) ← basicText n r
        return (c :: s, r)
      else none
    | [] => none

/-- A text in single quotes, the first of which has been read. -/
def literalText : List Char → Option (List Char × List Char)
  | [] => none
  | c :: r =>
    if c = '\x27' then some ([], r)
    else if isPlainChar c then do
      let (s, r) ← literalText r
      return (c :: s, r)
    else none

/-- The text after blanks and line ends. -/
def skipSpace : List Char → List Char
  | ' ' :: r => skipSpace r
  | '\t' :: r => skipSpace r
  | '\n' :: r => skipSpace r
  | '\r' :: '\n' :: r => skipSpace r
  | r => r

/--
A text of several lines up to three quotes, of which it may end with two more.
In double quotes there are escapes, and a backslash at the end of a line joins
the lines.
-/
def longText (quote : Char) : Nat → List Char → Option (List Char × List Char)
  | 0, _ => none
  | n + 1, cs =>
    match cs with
    | [] => none
    | c :: r =>
      if c = quote then
        let run := cs.takeWhile (· == quote)
        let rest := cs.dropWhile (· == quote)
        if run.length < 3 then do
          let (s, rest) ← longText quote n rest
          return (run ++ s, rest)
        else if run.length ≤ 5 then some (run.drop 3, rest)
        else none
      else if c = '\\' && quote == '"' then
        match lineEnd? (skipBlanks r) with
        | some rest => longText quote n (skipSpace rest)
        | none => do
          let (e, r) ← escape r
          let (s, r) ← longText quote n r
          return (e :: s, r)
      else match lineEnd? cs with
        | some rest => do
          let (s, rest) ← longText quote n rest
          return ('\n' :: s, rest)
        | none =>
          if isPlainChar c then do
            let (s, r) ← longText quote n r
            return (c :: s, r)
          else none

/-- The text after the line end that may follow the opening quotes of a long text. -/
def dropFirstLineEnd (cs : List Char) : List Char := (lineEnd? cs).getD cs

/-! ## Keys -/

/-- The characters of a bare key. -/
def isKeyChar (c : Char) : Bool := c.isAlphanum || c == '_' || c == '-'

/-- One key, bare or quoted. -/
def simpleKey (cs : List Char) : Option (String × List Char) :=
  match cs with
  | '"' :: r => (basicText r.length r).map fun (s, r) => (String.ofList s, r)
  | '\x27' :: r => (literalText r).map fun (s, r) => (String.ofList s, r)
  | _ =>
    match cs.takeWhile isKeyChar with
    | [] => none
    | key => some (String.ofList key, cs.dropWhile isKeyChar)

/-- Keys with dots between them: all but the last, and the last. -/
def dottedKey : Nat → List Char → Option ((List String × String) × List Char)
  | 0, _ => none
  | n + 1, cs => do
    let (key, r) ← simpleKey (skipBlanks cs)
    match skipBlanks r with
    | '.' :: r =>
      let ((path, last), r) ← dottedKey n r
      return ((key :: path, last), r)
    | r => return (([], key), r)

/-- How deep arrays and inline tables may be nested, and how many keys a dotted key may have. -/
def maxDepth : Nat := 79

/-- Keys with dots between them, not more than `maxDepth`. -/
def boundedKey (cs : List Char) : Option ((List String × String) × List Char) := do
  let ((path, key), r) ← dottedKey cs.length cs
  if path.length < maxDepth then some ((path, key), r) else none

/-! ## Numbers and dates -/

/-- The digits of a numeral that may have underscores between digits. -/
def plainDigits? (isDigit : Char → Bool) : List Char → Option (List Char)
  | [] => none
  | [c] => if isDigit c then some [c] else none
  | c :: '_' :: r => if isDigit c then (plainDigits? isDigit r).map (c :: ·) else none
  | c :: r => if isDigit c then (plainDigits? isDigit r).map (c :: ·) else none

/-- The digits of a decimal numeral without leading zeros. -/
def wholeDigits? (cs : List Char) : Option (List Char) := do
  let ds ← plainDigits? Char.isDigit cs
  if ds.head? = some '0' && ds.length != 1 then none else some ds

/-- The integers of 64 bits. -/
def bounded? (i : Int) : Option Toml :=
  if -9223372036854775808 ≤ i ∧ i < 9223372036854775808 then some (.integer i) else none

/-- The integer that a numeral with another base stands for. -/
def basedInteger? (base : Nat) (cs : List Char) : Option Toml := do
  let ds ← plainDigits? (fun c => (hexValue? c).any (· < base)) cs
  let n : Nat := ds.foldl (fun n c => n * base + (hexValue? c).getD 0) 0
  bounded? n

/-- The sign of a numeral, and the numeral without it. -/
def splitSign : List Char → Bool × List Char
  | '-' :: r => (true, r)
  | '+' :: r => (false, r)
  | r => (false, r)

/-- The number with these digits, times ten to the power; only a negative one may be infinite. -/
def floatOf? (negative : Bool) (digits : List Char) (power : Int) : Option Toml :=
  let d := Double.ofDecimal negative digits power
  if d = .infinite false then none else some (.float (.number d))

/-- The exponent after its mark. -/
def exponent? (cs : List Char) : Option Int := do
  let (negative, ds) := splitSign cs
  let n := Text.ofDigits (← plainDigits? Char.isDigit ds)
  return if negative then -(n : Int) else n

/-- A decimal number, with or without a point and an exponent. -/
def decimal? (cs : List Char) : Option Toml := do
  let (negative, unsigned) := splitSign cs
  let isMark (c : Char) : Bool := c == 'e' || c == 'E'
  let mantissa := unsigned.takeWhile fun c => !isMark c
  let whole := mantissa.takeWhile (· != '.')
  let ds ← wholeDigits? whole
  let places ← match mantissa.dropWhile (· != '.') with
    | [] => some []
    | _ :: r => plainDigits? Char.isDigit r
  match unsigned.dropWhile fun c => !isMark c with
  | [] =>
    if mantissa.length = whole.length then
      bounded? (if negative then -(Text.ofDigits ds : Int) else Text.ofDigits ds)
    else floatOf? negative (ds ++ places) (-(places.length : Int))
  | _ :: r => floatOf? negative (ds ++ places) ((← exponent? r) - places.length)

/-- A number. -/
def number? (cs : List Char) : Option Toml :=
  let (negative, unsigned) := splitSign cs
  if unsigned = "inf".toList then some (.float (.number (.infinite negative)))
  else if unsigned = "nan".toList then some (.float .nan)
  else match cs with
    | '0' :: 'x' :: r => basedInteger? 16 r
    | '0' :: 'o' :: r => basedInteger? 8 r
    | '0' :: 'b' :: r => basedInteger? 2 r
    | _ => decimal? cs

/-- The characters of numbers and dates. -/
def isScalarChar (c : Char) : Bool :=
  c.isAlphanum || c == '+' || c == '-' || c == '_' || c == '.' || c == ':'

/-- The characters of a number or a date; a date may have its time after a blank. -/
def scalarToken (cs : List Char) : List Char × List Char :=
  let first := cs.takeWhile isScalarChar
  match cs.dropWhile isScalarChar with
  | ' ' :: d :: r =>
    if (datePart? first).any (fun (_, rest) => rest.isEmpty) && d.isDigit then
      (first ++ ' ' :: (d :: r).takeWhile isScalarChar, (d :: r).dropWhile isScalarChar)
    else (first, ' ' :: d :: r)
  | r => (first, r)

/-- A truth value, a number or a date. -/
def scalar (cs : List Char) : Option (Toml × List Char) :=
  let (token, r) := scalarToken cs
  if token = "true".toList then some (.boolean true, r)
  else if token = "false".toList then some (.boolean false, r)
  else match number? token with
    | some v => some (v, r)
    | none => (moment? token).map fun m => (.moment m, r)

/-! ## Values -/

mutual

/-- One value, in which arrays and inline tables are nested at most `depth` deep. -/
def value (depth : Nat) : Nat → List Char → Option (Toml × List Char)
  | 0, _ => none
  | n + 1, cs =>
    match cs with
    | '"' :: '"' :: '"' :: r =>
      (longText '"' (r.length + 1) (dropFirstLineEnd r)).map fun (s, r) =>
        (.text (String.ofList s), r)
    | '\x27' :: '\x27' :: '\x27' :: r =>
      (longText '\x27' (r.length + 1) (dropFirstLineEnd r)).map fun (s, r) =>
        (.text (String.ofList s), r)
    | '"' :: r => (basicText r.length r).map fun (s, r) => (.text (String.ofList s), r)
    | '\x27' :: r => (literalText r).map fun (s, r) => (.text (String.ofList s), r)
    | '[' :: r =>
      if depth = 0 then none
      else (arrayItems (depth - 1) n (skipLines n r)).map fun (items, r) => (.array items, r)
    | '\x7b' :: r =>
      if depth = 0 then none
      else match skipBlanks r with
        | '\x7d' :: r => some (.table .inline [], r)
        | r => inlineEntries (depth - 1) n [] r
    | r => scalar r

/-- The items of an array up to its closing bracket; a comma may follow the last one. -/
def arrayItems (depth : Nat) : Nat → List Char → Option (List Toml × List Char)
  | 0, _ => none
  | n + 1, cs =>
    match cs with
    | ']' :: r => some ([], r)
    | _ => do
      let (item, r) ← value depth n cs
      match skipLines n r with
      | ',' :: r =>
        let (items, r) ← arrayItems depth n (skipLines n r)
        return (item :: items, r)
      | ']' :: r => return ([item], r)
      | _ => none

/-- The entries of a table written as a value, up to its closing brace. -/
def inlineEntries (depth : Nat) : Nat → Entries → List Char → Option (Toml × List Char)
  | 0, _, _ => none
  | n + 1, entries, cs => do
    let ((path, key), r) ← boundedKey cs
    match r with
    | '=' :: r =>
      let (v, r) ← value depth n (skipBlanks r)
      let table ← addAt path key v .inline entries
      match skipBlanks r with
      | ',' :: r => inlineEntries depth n table.entries r
      | '\x7d' :: r => return (table, r)
      | _ => none
    | _ => none

end

/-! ## Documents -/

/-- One statement, without the end of its line. -/
def statement (cs : List Char) : Option (TomlStatement × List Char) :=
  match cs with
  | '[' :: '[' :: r => do
    let ((path, key), r) ← boundedKey r
    match r with
    | ']' :: ']' :: r => return (.arrayHeader path key, r)
    | _ => none
  | '[' :: r => do
    let ((path, key), r) ← boundedKey r
    match r with
    | ']' :: r => return (.header path key, r)
    | _ => none
  | _ => do
    let ((path, key), r) ← boundedKey cs
    match r with
    | '=' :: r =>
      let r := skipBlanks r
      let (v, r) ← value maxDepth (2 * r.length + 2) r
      return (.entry path key v, r)
    | _ => none

/-- Read the rest of a document. -/
def statements : Nat → Document → List Char → Option Document
  | 0, d, cs => if cs.isEmpty then some d else none
  | n + 1, d, cs =>
    match skipLines cs.length cs with
    | [] => some d
    | r => do
      let (s, r) ← statement r
      let d ← d.apply s
      statements n d (← finishLine r)

/-- A text without the byte order mark that it may start with. -/
def dropMark (s : String) : String :=
  match s.toList with
  | '\ufeff' :: r => String.ofList r
  | _ => s

/-- The table that a document describes. -/
def read? (s : String) : Option Toml := do
  let cs := (dropMark s).toList
  return (← statements (cs.length + 1) .empty cs).root

end AccessLedger.Toml
