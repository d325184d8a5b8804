import AccessLedger.Json.Basic
import AccessLedger.Text.Decimal

/-!
# Compact JSON text

`Json.write` puts no blanks anywhere.  In strings it escapes the quote, the
backslash and the characters below U+0020, the common ones by their short
escapes, and nothing else.
-/

namespace AccessLedger.Json

/-- The lower-case hexadecimal digit of a value below 16. -/
def hexDigit (n : Nat) : Char := if n < 10 then Char.ofNat (0x30 + n) else Char.ofNat (0x57 + n)

/-- How a character is written in a string. -/
def escapeChar (c : Char) : List Char :=
  if c = '"' then ['\\', '"']
  else if c = '\\' then ['\\', '\\']
  else if c = '\x08' then ['\\', 'b']
  else if c = '\x0c' then ['\\', 'f']
  else if c = '\n' then ['\\', 'n']
  else if c = '\r' then ['\\', 'r']
  else if c = '\t' then ['\\', 't']
  else if c.toNat < 0x20 then
    ['\\', 'u', '0', '0', hexDigit (c.toNat / 16), hexDigit (c.toNat % 16)]
  else [c]

/-- A string between quotes. -/
def writeString (s : String) : List Char := '"' :: (s.toList.flatMap escapeChar ++ ['"'])

/-- A string or name, where half a surrogate pair is written as such. -/
def writeLabel : Option String → List Char
  | some s => writeString s
  | none => "\"\\ud800\"".toList

mutual

/-- The text of a tree, without blanks. -/
def write : Json → List Char
  | .null => "null".toList
  | .bool true => "true".toList
  | .bool false => "false".toList
  | .integer i => Text.signedDigits i
  | .fraction t => t
  | .string s => writeLabel s
  | .array items => '[' :: (writeItems items ++ [']'])
  | .object members => '\x7b' :: (writeMembers members ++ ['\x7d'])
  | .broken => []
  | .misnamed _ => []

/-- The texts of the items, with commas between them. -/
def writeItems : List Json → List Char
  | [] => []
  | [j] => write j
  | j :: k :: r => write j ++ ',' :: writeItems (k :: r)

/-- The texts of the members, with commas between them. -/
def writeMembers : List (Option String × Json) → List Char
  | [] => []
  | [(k, j)] => writeLabel k ++ ':' :: write j
  | (k, j) :: m :: r => writeLabel k ++ ':' :: (write j ++ ',' :: writeMembers (m :: r))

end

/-- The compact text of a tree. -/
def compact (j : Json) : String := String.ofList j.write

end AccessLedger.Json
