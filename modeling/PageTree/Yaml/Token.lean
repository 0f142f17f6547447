/-
The tokens of YAML text.

Blocks are marked by indentation alone, so the tokenizer keeps the columns of
the open blocks and adds the tokens that open and close them. A key without
its question mark is recognised only at the colon after it: every place where
such a key may start is remembered, and the tokens of the key and of its block
are put in there afterwards. Such a key must lie on one line and be shorter
than `maxKeyLength`.

* `Yaml.Token`;
* `Yaml.Tokenizer`: the tokens so far and what decides about the next one;
* `Yaml.tokens?`: the tokens of a text.
-/
import PageTree.Yaml.Scalar

namespace PageTree

namespace Yaml

/-- A tag as written: a handle, which names a namespace, and a suffix. -/
structure TagName where
  handle : List Char
  suffix : List Char
deriving DecidableEq

/-- A token of YAML text. -/
inductive Token where
  | streamEnd
  | version (major minor : Nat)
  | tagDirective (handle expansion : List Char)
  | documentStart
  | documentEnd
  | blockSequenceStart
  | blockMappingStart
  | blockEnd
  | flowSequenceStart
  | flowSequenceEnd
  | flowMappingStart
  | flowMappingEnd
  | blockEntry
  | flowEntry
  | key
  | value
  | alias (name : List Char)
  | anchor (name : List Char)
  | tag (name : TagName)
  | scalar (text : List Char) (plain : Bool)
deriving DecidableEq

/-! ### Tags, anchors and directives -/

/-- The characters of a tag; commas and brackets only between `<` and `>` or
in a directive. -/
def isTagChar (verbatim : Bool) (c : Char) : Bool :=
  isWordChar c || c ∈ [';', '/', '?', ':', '@', '&', '=', '+', '$', '.', '!', '~', '*',
    '\'', '(', ')', '%'] || (verbatim && c ∈ [',', '[', ']'])

/-- One byte written as a percent sign and two hexadecimal digits. -/
def escapedByte? : List Char → Option (Nat × List Char)
  | '%' :: a :: b :: rest => (Digits.numberIn? 16 [a, b]).map (·, rest)
  | _ => none

/-- How many bytes the UTF-8 form of a character has, by its first byte. -/
def utf8Width? (byte : Nat) : Option Nat :=
  if byte < 0x80 then some 1
  else if 0xC0 ≤ byte ∧ byte < 0xE0 then some 2
  else if 0xE0 ≤ byte ∧ byte < 0xF0 then some 3
  else if 0xF0 ≤ byte ∧ byte < 0xF8 then some 4
  else none

/-- The further bytes of an escaped character. -/
def escapedTail? : Nat → Nat → List Char → Option (Nat × List Char)
  | 0, code, cs => some (code, cs)
  | n + 1, code, cs =>
    match escapedByte? cs with
    | some (byte, rest) =>
      if byte / 64 = 2 then escapedTail? n (code * 64 + byte % 64) rest else none
    | none => none

/-- An escaped character. -/
def escapedChar? (cs : List Char) : Option (Char × List Char) := do
  let (byte, rest) ← escapedByte? cs
  let width ← utf8Width? byte
  let first := if width = 1 then byte else byte % Nat.pow 2 (7 - width)
  let (code, rest) ← escapedTail? (width - 1) first rest
  return (Char.ofNat code, rest)

/-- The characters of a tag that come next. -/
def tagText? (verbatim : Bool) : Nat → List Char → Cursor → Option (List Char × Cursor)
  | 0, _, _ => none
  | bound + 1, text, c =>
    match c.rest with
    | [] => some (text, c)
    | ch :: rest =>
      if ch = '%' then
        match escapedChar? (ch :: rest) with
        | none => none
        | some (x, after) =>
          tagText? verbatim bound (text ++ [x]) (c.skipMany (c.rest.length - after.length))
      else if isTagChar verbatim ch then tagText? verbatim bound (text ++ [ch]) c.skip
      else some (text, c)

/-- The non-empty text of a tag that comes next. -/
def tagSuffix? (verbatim : Bool) (c : Cursor) : Option (List Char × Cursor) :=
  (tagText? verbatim (c.rest.length + 1) [] c).bind fun (text, after) =>
    if after.rest.length = c.rest.length then none else some (text, after)

/-- A handle: an exclamation mark, perhaps followed by a word, and by another
exclamation mark if it is complete. -/
def tagHandle? (c : Cursor) : Option (List Char × Cursor) :=
  if c.sees '!' then
    let (word, c) := c.skip.span isWordChar
    if c.sees '!' then some ('!' :: word ++ ['!'], c.skip) else some ('!' :: word, c)
  else none

/-- Whether a handle is one of the complete ones. -/
def isWholeHandle (handle : List Char) : Bool := 2 ≤ handle.length && handle.getLast? = some '!'

/-- The tag that starts here. -/
def tag? (flow : Bool) (c : Cursor) : Option (TagName × Cursor) := do
  let (name, c) ←
    if c.ahead? 1 = some '<' then do
      let (suffix, c) ← tagSuffix? true (c.skipMany 2)
      if c.sees '>' then some (⟨[], suffix⟩, c.skip) else none
    else do
      let (handle, c) ← tagHandle? c
      if isWholeHandle handle then
        let (suffix, c) ← tagSuffix? false c
        some (⟨handle, suffix⟩, c)
      else
        let (more, c) ← tagText? false (c.rest.length + 1) [] c
        let suffix := handle.drop 1 ++ more
        some (if suffix = [] then ⟨[], ['!']⟩ else ⟨['!'], suffix⟩, c)
  if (flow && c.sees ',') || endsWord c.next? then some (name, c) else none

/-- The name of the anchor or alias that starts here with its mark. -/
def anchorName? (c : Cursor) : Option (List Char × Cursor) :=
  let (name, c) := c.skip.span isWordChar
  let ends := endsWord c.next? ||
    c.seesA (fun ch => ch ∈ ['?', ':', ',', ']', '\x7d', '%', '@', '\x60'])
  if name ≠ [] ∧ ends then some (name, c) else none

/-- A number of at most nine digits, part of a version. -/
def versionPart? (c : Cursor) : Option (Nat × Cursor) :=
  let (ds, c) := c.span Char.isDigit
  if ds = [] ∨ 9 < ds.length then none else some (Digits.number ds, c)

/-- The directive that starts here with its percent sign. -/
def directive? (c : Cursor) : Option (Token × Cursor) := do
  let (name, c) := c.skip.span isWordChar
  if name = [] ∨ !endsWord c.next? then none
  else
    let c := c.skipWhile isBlank
    if name = "YAML".toList then
      let (major, c) ← versionPart? c
      if c.sees '.' then
        let (minor, c) ← versionPart? c.skip
        let c ← c.finishLine?
        some (.version major minor, c)
      else none
    else if name = "TAG".toList then
      let (handle, c) ← tagHandle? c
      if !(isWholeHandle handle || handle = ['!']) || !c.seesA isBlank then none
      else
        let (expansion, c) ← tagSuffix? true (c.skipWhile isBlank)
        if endsWord c.next? then
          let c ← c.finishLine?
          some (.tagDirective handle expansion, c)
        else none
    else none

/-! ### The tokenizer -/

/-- A place where a key may have started: how many tokens came before it, and
whether a key must stand there. -/
structure KeyPlace where
  required : Bool
  before : Nat
  index : Nat
  line : Nat
  column : Nat

/-- The tokens so far, last one first, and what decides about the next one:
the columns of the open blocks, innermost first, whether a key may start here,
and the possible key of every open collection in flow style, innermost first;
the last of these is that of the blocks. -/
structure Tokenizer where
  cursor : Cursor
  tokens : List Token
  blocks : List Nat
  keyAllowed : Bool
  keys : List (Option KeyPlace)

/-- How long a key without a question mark may be. -/
def maxKeyLength : Nat := 1024

namespace Tokenizer

/-- At the start of a text. -/
def start (text : List Char) : Tokenizer := ⟨Cursor.start text, [], [], true, [none]⟩

/-- Whether a collection in flow style is open. -/
def inFlow (t : Tokenizer) : Bool := 1 < t.keys.length

/-- Adds a token. -/
def emit (t : Tokenizer) (token : Token) : Tokenizer := { t with tokens := token :: t.tokens }

/-- Adds tokens that belong after the first `before` ones. -/
def emitAt (t : Tokenizer) (before : Nat) (tokens : List Token) : Tokenizer :=
  let after := t.tokens.length - before
  { t with tokens := t.tokens.take after ++ tokens.reverse ++ t.tokens.drop after }

/-- Forgets the possible key of the innermost collection, unless a key must
stand there. -/
def dropKey? (t : Tokenizer) : Option Tokenizer :=
  match t.keys with
  | some place :: rest => if place.required then none else some { t with keys := none :: rest }
  | _ => some t

/-- Remembers this place as the start of a possible key. -/
def saveKey? (t : Tokenizer) : Option Tokenizer :=
  if t.keyAllowed then
    t.dropKey?.map fun t =>
      let c := t.cursor
      let required := !t.inFlow && t.blocks.head? = some c.column
      let place : KeyPlace := ⟨required, t.tokens.length, c.index, c.line, c.column⟩
      { t with keys := some place :: t.keys.drop 1 }
  else some t

/-- Forgets the possible keys that have become too long. -/
def dropStaleKeys? (t : Tokenizer) : Option Tokenizer :=
  let stale (p : KeyPlace) : Bool :=
    p.line < t.cursor.line || p.index + maxKeyLength < t.cursor.index
  if t.keys.any (fun k => k.any fun p => stale p && p.required) then none
  else some { t with keys := t.keys.map fun k => k.filter fun p => !stale p }

/-- Opens a block at a column, if it is further in than the innermost one; its
token belongs after the first `before` ones. -/
def openBlock (t : Tokenizer) (column : Nat) (before : Nat) (token : Token) : Tokenizer :=
  if !t.inFlow && t.blocks.head?.all (· < column) then
    { t.emitAt before [token] with blocks := column :: t.blocks }
  else t

/-- Closes the blocks that are further in than a column; all without one. -/
def closeBlocks (t : Tokenizer) (column : Option Nat) : Tokenizer :=
  if t.inFlow then t
  else
    let closed := t.blocks.takeWhile fun b => column.all (· < b)
    { t with
      tokens := closed.map (fun _ => Token.blockEnd) ++ t.tokens
      blocks := t.blocks.drop closed.length }

/-- Past blanks, comments and line breaks. A tab counts as a blank only where
no key may start. -/
def skipToToken : Nat → Tokenizer → Tokenizer
  | 0, t => t
  | bound + 1, t =>
    let isGap (ch : Char) : Bool := ch = ' ' || ((t.inFlow || !t.keyAllowed) && ch = '\t')
    let c := (t.cursor.skipWhile isGap).skipComment
    if c.seesA isBreak then
      skipToToken bound { t with cursor := c.skipLine, keyAllowed := t.keyAllowed || !t.inFlow }
    else { t with cursor := c }

/-- A token of one or more characters, after which a key may start or not. -/
def mark (t : Tokenizer) (token : Token) (length : Nat) (keyAllowed : Bool) : Tokenizer :=
  { t.emit token with cursor := t.cursor.skipMany length, keyAllowed := keyAllowed }

/-- At the colon after a key or at one without. -/
def value? (t : Tokenizer) : Option Tokenizer :=
  match t.keys with
  | some place :: rest =>
    let t := { t with keys := none :: rest }
    let t := t.emitAt place.before [.key]
    let t := t.openBlock place.column place.before .blockMappingStart
    some (t.mark .value 1 false)
  | _ =>
    if t.inFlow then some (t.mark .value 1 false)
    else if t.keyAllowed then
      let t := t.openBlock t.cursor.column t.tokens.length .blockMappingStart
      some (t.mark .value 1 true)
    else none

/-- Whether a plain scalar starts here. -/
def seesPlain (t : Tokenizer) : Bool :=
  match t.cursor.next? with
  | none => false
  | some ch =>
    let marks := ['-', '?', ':', ',', '[', ']', '\x7b', '\x7d', '#', '&', '*', '!', '|', '>',
      '\'', '"', '%', '@', '\x60']
    let next := t.cursor.ahead? 1
    !(isBlank ch || isBreak ch || ch ∈ marks) ||
      (ch = '-' && !next.any isBlank) ||
      (!t.inFlow && (ch = '?' || ch = ':') && !endsWord next)

/-- Reads one token where no blank comes; the flag tells that it was the last
one. -/
def readToken? (t : Tokenizer) : Option (Tokenizer × Bool) := do
  let c := t.cursor
  let flow := t.inFlow
  match c.next? with
  | none =>
    let t ← ({ t.closeBlocks none with keyAllowed := false }).dropKey?
    return (t.emit .streamEnd, true)
  | some ch =>
    let afterMark := endsWord (c.ahead? 1)
    if c.column = 0 && ch = '%' then
      let t ← (t.closeBlocks none).dropKey?
      let (token, c) ← directive? c
      return ({ t.emit token with cursor := c, keyAllowed := false }, false)
    else if c.seesDocumentMark then
      let t ← (t.closeBlocks none).dropKey?
      return (t.mark (if ch = '-' then .documentStart else .documentEnd) 3 false, false)
    else if ch = '[' || ch = '\x7b' then
      let t ← t.saveKey?
      let t := { t with keys := none :: t.keys }
      return (t.mark (if ch = '[' then .flowSequenceStart else .flowMappingStart) 1 true, false)
    else if ch = ']' || ch = '\x7d' then
      let t ← t.dropKey?
      let t := if flow then { t with keys := t.keys.drop 1 } else t
      return (t.mark (if ch = ']' then .flowSequenceEnd else .flowMappingEnd) 1 false, false)
    else if ch = ',' then
      let t ← t.dropKey?
      return (t.mark .flowEntry 1 true, false)
    else if ch = '-' && afterMark then
      if !flow && !t.keyAllowed then none
      else
        let t := t.openBlock c.column t.tokens.length .blockSequenceStart
        let t ← t.dropKey?
        return (t.mark .blockEntry 1 true, false)
    else if ch = '?' && (flow || afterMark) then
      if !flow && !t.keyAllowed then none
      else
        let t := t.openBlock c.column t.tokens.length .blockMappingStart
        let t ← t.dropKey?
        return (t.mark .key 1 (!flow), false)
    else if ch = ':' && (flow || afterMark) then
      return (← t.value?, false)
    else if ch = '*' || ch = '&' then
      let t ← t.saveKey?
      let (name, c) ← anchorName? c
      let token := if ch = '*' then Token.alias name else .anchor name
      return ({ t.emit token with cursor := c, keyAllowed := false }, false)
    else if ch = '!' then
      let t ← t.saveKey?
      let (name, c) ← tag? flow c
      return ({ t.emit (.tag name) with cursor := c, keyAllowed := false }, false)
    else if (ch = '|' || ch = '>') && !flow then
      let t ← t.dropKey?
      let (text, c) ← block? (ch = '>') t.blocks.head? c
      return ({ t.emit (.scalar text false) with cursor := c, keyAllowed := true }, false)
    else if ch = '\'' || ch = '"' then
      let t ← t.saveKey?
      let (text, c) ← quoted? (ch = '\'') c
      return ({ t.emit (.scalar text false) with cursor := c, keyAllowed := false }, false)
    else if t.seesPlain then
      let t ← t.saveKey?
      let indent := match t.blocks.head? with
        | some n => n + 1
        | none => 0
      let (text, below, c) ← plain? flow indent c
      return ({ t.emit (.scalar text true) with cursor := c, keyAllowed := below }, false)
    else none

/-- Reads the next token, closing the blocks that end before it. -/
def step? (t : Tokenizer) : Option (Tokenizer × Bool) := do
  let t := skipToToken (t.cursor.rest.length + 1) t
  let t ← t.dropStaleKeys?
  let t := match t.cursor.next? with
    | none => t
    | some _ => t.closeBlocks (some t.cursor.column)
  t.readToken?

/-- Reads tokens to the end. -/
def run? : Nat → Tokenizer → Option (List Token)
  | 0, _ => none
  | bound + 1, t =>
    match t.step? with
    | none => none
    | some (t, true) => some t.tokens.reverse
    | some (t, false) => run? bound t

end Tokenizer

/-- The tokens of a text without its byte order mark. Each token takes at
least one character, the last one apart. -/
def tokens? (text : List Char) : Option (List Token) :=
  let text := match text with
    | '\ufeff' :: rest => rest
    | text => text
  if text.all isAllowed then (Tokenizer.start text).run? (text.length + 2) else none

end Yaml

end PageTree
