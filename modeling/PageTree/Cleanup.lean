/-
The last passes over the text of a page.

Tokens that are left are cut out; where a token is the whole value of an
attribute, the attribute goes with the blank before it. Minimizing turns every
run of blanks into one space, then drops the spaces before `>` and between `>`
and `<`, and trims the ends.

* `Cleanup.strip`;
* `Cleanup.collapse`, `Cleanup.dropSpaces`, `Cleanup.minimize`: the two passes of
  minimizing, and what they come to with the ends trimmed;
* `Cleanup.finish`: the passes that some options ask for.
-/
import PageTree.Placeholder
import PageTree.Text.Blank

namespace PageTree

namespace Cleanup

/-! ### Tokens that are left -/

/-- The characters of attribute names. -/
def isNameChar (c : Char) : Bool := c.isAlphanum || c = '-' || c = '_' || c = ':' || c = '.'

/-- What comes before an attribute, if a text ends with a blank, a name, an
equals sign and a quote. Both texts are in reverse. -/
def beforeAttribute? (reversed : List Char) : Option (List Char) :=
  match reversed with
  | '"' :: '=' :: rest =>
    let name := rest.takeWhile isNameChar
    match rest.dropWhile isNameChar with
    | c :: before => if name ≠ [] ∧ Text.isAsciiBlank c then some before else none
    | [] => none
  | _ => none

/-- The text of some pieces without tokens; `pending` is, in reverse, what came
before them since the last token. -/
def stripFrom (pending : List Char) : List Placeholder.Piece → List Char
  | [] => pending.reverse
  | .char c :: rest => stripFrom (c :: pending) rest
  | .token _ :: .char c :: rest =>
    match beforeAttribute? pending with
    | some before =>
      if c = '"' then before.reverse ++ stripFrom [] rest
      else pending.reverse ++ stripFrom [c] rest
    | none => pending.reverse ++ stripFrom [c] rest
  | .token _ :: rest => pending.reverse ++ stripFrom [] rest

/-- A text without tokens. -/
def stripChars (cs : List Char) : List Char := stripFrom [] (Placeholder.pieces cs)

/-- A text without tokens. -/
def strip (s : String) : String := String.ofList (stripChars s.toList)

/-! ### Blanks -/

/-- The text of some characters with a space for every run of blanks; `inBlanks`
tells whether the last character before them was a blank. -/
def collapse (inBlanks : Bool) : List Char → List Char
  | [] => []
  | c :: rest =>
    if Text.isAsciiBlank c then
      if inBlanks then collapse true rest else ' ' :: collapse true rest
    else c :: collapse false rest

/-- Whether a space is dropped, by the last character that is written before it
and the next one after it. -/
def isDropped (last next : Option Char) : Bool :=
  next = some '>' || (next = some '<' && last = some '>')

/-- The text of some characters without the spaces that are dropped; `written`
is, in reverse, what was written before. -/
def dropSpaces (written : List Char) : List Char → List Char
  | [] => written.reverse
  | c :: rest =>
    if c = ' ' ∧ isDropped written.head? rest.head? then dropSpaces written rest
    else dropSpaces (c :: written) rest

/-- A text with its blanks minimized. -/
def minimizeChars (cs : List Char) : List Char :=
  Text.trimEnds Text.isAsciiBlank (dropSpaces [] (collapse false cs))

/-- A text with its blanks minimized. -/
def minimize (s : String) : String := String.ofList (minimizeChars s.toList)

/-! ### Both passes -/

/-- A page after the passes that are asked for. -/
def finish (stripping minimizing : Bool) (page : String) : String :=
  let page := if stripping then strip page else page
  if minimizing then minimize page else page

end Cleanup

end PageTree
