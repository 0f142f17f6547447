/-
Texts in quotes, for messages.

Quotes and backslashes are escaped by a backslash, four control characters by
a letter after it, and every other character that does not show by itself by
its code.

* `Text.quote`.
-/
import PageTree.Text.Hidden

namespace PageTree

namespace Text

/-- The characters that stand for `c` between quotes. -/
def quoteChar (c : Char) : List Char :=
  if c = '"' then ['\\', '"']
  else if c = '\\' then ['\\', '\\']
  else if c = '\n' then ['\\', 'n']
  else if c = '\r' then ['\\', 'r']
  else if c = '\t' then ['\\', 't']
  else if c = '\x00' then ['\\', '0']
  else if isHidden c then
    ['\\', 'u', '\x7b'] ++ Nat.toDigits 16 c.toNat ++ ['\x7d']
  else [c]

/-- A text in quotes. -/
def quote (s : String) : String :=
  "\"" ++ String.ofList (s.toList.flatMap quoteChar) ++ "\""

end Text

end PageTree
