import AccessLedger.Text.GraphemeExtend
import AccessLedger.Text.Unprintable

/-!
# Quoting a text for a message

`quote` puts a text between double quotes so that every character of it can
be seen: quotes and backslashes are escaped, the common controls have short
escapes, and whatever has no visible form of its own (or would attach to the
character before it) is written as a code point in braces.
-/

namespace AccessLedger.Text

/-- Whether a code point lies in one of the ranges. -/
def inRanges (ranges : List (Nat × Nat)) (n : Nat) : Bool :=
  ranges.any fun (lo, hi) => lo ≤ n && n ≤ hi

/-- Whether a character stands for itself in a quoted text. -/
def isVisible (c : Char) : Bool :=
  (0x20 ≤ c.toNat && c.toNat < 0x7F) ||
    !(inRanges unprintableRanges c.toNat || inRanges graphemeExtendRanges c.toNat ||
      fillers.contains c.toNat)

/-- How a character is written between quotes. -/
def quoteChar (c : Char) : List Char :=
  if c = '"' then ['\\', '"']
  else if c = '\\' then ['\\', '\\']
  else if c = '\n' then ['\\', 'n']
  else if c = '\r' then ['\\', 'r']
  else if c = '\t' then ['\\', 't']
  else if c = '\x00' then ['\\', '0']
  else if isVisible c then [c]
  else ['\\', 'u', '\x7b'] ++ Nat.toDigits 16 c.toNat ++ ['\x7d']

/-- A text between double quotes, with everything in it visible. -/
def quote (s : String) : String :=
  String.ofList ('"' :: s.toList.flatMap quoteChar ++ ['"'])

end AccessLedger.Text
