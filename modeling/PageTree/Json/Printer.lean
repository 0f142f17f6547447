/-
Compact JSON text of values, and the text that stands for a value in a page.

No blanks are written. In strings the quote, the backslash and the control
characters below the blank are escaped, five of them by a letter and the rest
by four hexadecimal digits; every other character stands for itself.

* `Json.print`: the JSON text of a value;
* `Value.text`: strings as they are, numbers in decimal, `true`, and nothing
  for `false` and null; containers as JSON.
-/
import PageTree.Value
import PageTree.Double.Decimal

namespace PageTree

/-- The decimal text of a number. -/
def Number.text : Number → String
  | .integer i _ => toString i
  | .double x => x.text

namespace Json

/-- A hexadecimal digit, in lower case. -/
def hexDigit (n : Nat) : Char :=
  if n < 10 then Char.ofNat ('0'.toNat + n) else Char.ofNat ('a'.toNat + (n - 10))

/-- The characters that stand for `c` inside a string. -/
def escapeChar (c : Char) : List Char :=
  if c = '"' then ['\\', '"']
  else if c = '\\' then ['\\', '\\']
  else if c = '\x08' then ['\\', 'b']
  else if c = '\x0c' then ['\\', 'f']
  else if c = '\n' then ['\\', 'n']
  else if c = '\r' then ['\\', 'r']
  else if c = '\t' then ['\\', 't']
  else if c.toNat < 0x20 then
    ['\\', 'u', '0', '0', hexDigit (c.toNat / 16), hexDigit (c.toNat % 16)]
  else [c]

/-- A string in quotes. -/
def quote (s : String) : String :=
  "\"" ++ String.ofList (s.toList.flatMap escapeChar) ++ "\""

mutual
/-- The compact JSON text of a value. -/
def print : Value → String
  | .null => "null"
  | .bool true => "true"
  | .bool false => "false"
  | .num n => n.text
  | .str s => quote s
  | .arr items => "[" ++ printItems items ++ "]"
  | .obj entries => "\x7b" ++ printEntries entries ++ "\x7d"

/-- Items with commas between them. -/
def printItems : List Value → String
  | [] => ""
  | [v] => print v
  | v :: w :: rest => print v ++ "," ++ printItems (w :: rest)

/-- Entries with commas between them. -/
def printEntries : List (String × Value) → String
  | [] => ""
  | [(k, v)] => quote k ++ ":" ++ print v
  | (k, v) :: e :: rest => quote k ++ ":" ++ print v ++ "," ++ printEntries (e :: rest)
end

end Json

/-- The text that a value stands for. -/
def Value.text : Value → String
  | .str s => s
  | .num n => n.text
  | .bool true => "true"
  | .bool false | .null => ""
  | v@(.arr _) | v@(.obj _) => Json.print v

end PageTree
