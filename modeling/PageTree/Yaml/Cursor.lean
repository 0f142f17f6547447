/-
A place in a YAML text: what remains to be read, and where that starts.

Lines end with a carriage return, a line feed, both in this order, or one of
the characters U+0085, U+2028 and U+2029. Spaces and tabs are the only blanks.

* `Yaml.isBreak`, `Yaml.isBlank`, `Yaml.isWordChar`: classes of characters;
* `Cursor.skip`, `Cursor.skipLine`, `Cursor.readBreak`: moving on by one
  character, or over one line break;
* `Yaml.isAllowed`: the characters that a text may hold at all.
-/
namespace PageTree

namespace Yaml

/-! ### Characters -/

/-- Characters that end a line. -/
def isBreak (c : Char) : Bool :=
  c = '\r' || c = '\n' || c = '\u0085' || c = '\u2028' || c = '\u2029'

/-- Spaces and tabs. -/
def isBlank (c : Char) : Bool := c = ' ' || c = '\t'

/-- The characters of anchors and directive names. -/
def isWordChar (c : Char) : Bool := c.isAlphanum || c = '_' || c = '-'

/-- Whether nothing but a blank, a line break or the end of the text comes. -/
def endsWord (next : Option Char) : Bool :=
  match next with
  | none => true
  | some c => isBlank c || isBreak c

/-- The characters that a text may hold. -/
def isAllowed (c : Char) : Bool :=
  c = '\t' || c = '\n' || c = '\r' || (' ' ≤ c && c ≤ '~') || c = '\u0085' ||
    ('\u00a0' ≤ c && c ≤ '\ufffd' && c ≠ '\ufeff') || 0x10000 ≤ c.toNat

/-! ### Cursors -/

/-- A place in a text: the rest of the text, how many characters came before,
and the line and the column, both from zero. -/
structure Cursor where
  rest : List Char
  index : Nat
  line : Nat
  column : Nat
deriving Inhabited

namespace Cursor

/-- The start of a text. -/
def start (text : List Char) : Cursor := ⟨text, 0, 0, 0⟩

/-- The next character. -/
def next? (c : Cursor) : Option Char := c.rest.head?

/-- The character after `n` others. -/
def ahead? (c : Cursor) (n : Nat) : Option Char := c.rest[n]?

/-- Whether the next character is `ch`. -/
def sees (c : Cursor) (ch : Char) : Bool := c.next? = some ch

/-- Whether the next character is of a class. -/
def seesA (c : Cursor) (p : Char → Bool) : Bool := c.next?.any p

/-- Past one character of a line. -/
def skip (c : Cursor) : Cursor :=
  { c with rest := c.rest.drop 1, index := c.index + 1, column := c.column + 1 }

/-- Past `n` characters of a line. -/
def skipMany (c : Cursor) (n : Nat) : Cursor :=
  { c with rest := c.rest.drop n, index := c.index + n, column := c.column + n }

/-- Past a line break, if one is next: what it stands for, a line feed except
for the two separators of Unicode, and the start of the next line. -/
def readBreak (c : Cursor) : List Char × Cursor :=
  let below (length : Nat) : Cursor := ⟨c.rest.drop length, c.index + length, c.line + 1, 0⟩
  match c.rest with
  | '\r' :: '\n' :: _ => (['\n'], below 2)
  | ch :: _ =>
    if ch = '\u2028' || ch = '\u2029' then ([ch], below 1)
    else if isBreak ch then (['\n'], below 1)
    else ([], c)
  | [] => ([], c)

/-- Past a line break, if one is next. -/
def skipLine (c : Cursor) : Cursor := c.readBreak.2

/-- The characters of a class that come next on this line, and the place
after them. -/
def span (c : Cursor) (p : Char → Bool) : List Char × Cursor :=
  let run := c.rest.takeWhile p
  (run, c.skipMany run.length)

/-- Past all characters of a class on this line. -/
def skipWhile (c : Cursor) (p : Char → Bool) : Cursor := (c.span p).2

/-- Past a comment, if one starts here, up to the end of its line. -/
def skipComment (c : Cursor) : Cursor :=
  if c.sees '#' then c.skipWhile (fun ch => !isBreak ch) else c

/-- Whether a line starts here with three of a character, as the marks
between documents do. -/
def seesMark (c : Cursor) (ch : Char) : Bool :=
  c.column = 0 && c.rest.take 3 = [ch, ch, ch] && endsWord (c.ahead? 3)

/-- Whether a mark between documents stands here. -/
def seesDocumentMark (c : Cursor) : Bool := c.seesMark '-' || c.seesMark '.'

/-- Past the rest of a line that may hold only blanks and a comment. -/
def finishLine? (c : Cursor) : Option Cursor :=
  let c := (c.skipWhile isBlank).skipComment
  match c.next? with
  | none => some c
  | some ch => if isBreak ch then some c.skipLine else none

end Cursor

end Yaml

end PageTree
