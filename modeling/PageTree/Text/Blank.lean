/-
Blanks, and taking characters off the ends of a text.

* `Text.isBlank`: the characters with the property White_Space of Unicode;
* `Text.isAsciiBlank`: the blanks of ASCII;
* `Text.trimEnds`: a text without some kind of characters at both ends, and
  `Text.trim`: a text without white space there.
-/
namespace PageTree

namespace Text

/-- The characters with the property White_Space. -/
def isBlank (c : Char) : Bool :=
  ('\t' ≤ c && c ≤ '\r') || c = ' ' || c = '\u0085' || c = '\u00a0' || c = '\u1680' ||
    ('\u2000' ≤ c && c ≤ '\u200a') || c = '\u2028' || c = '\u2029' || c = '\u202f' ||
    c = '\u205f' || c = '\u3000'

/-- A list of characters without those of some kind at both ends. -/
def trimEnds (p : Char → Bool) (cs : List Char) : List Char :=
  ((cs.dropWhile p).reverse.dropWhile p).reverse

/-- A list of characters without white space at both ends. -/
def trimChars (cs : List Char) : List Char := trimEnds isBlank cs

/-- A text without white space at both ends. -/
def trim (s : String) : String := String.ofList (trimChars s.toList)

/-- The blanks of ASCII: space, tab, line feed, form feed and carriage
return. -/
def isAsciiBlank (c : Char) : Bool :=
  c = ' ' || c = '\t' || c = '\n' || c = '\x0c' || c = '\r'

end Text

end PageTree
