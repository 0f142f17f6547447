/-
Reading the text of YAML scalars: plain, quoted and block.

Inside plain and quoted scalars a line break folds to a space, and further
empty lines to line feeds. A block scalar keeps or folds its breaks, and its
indentation is that of its first line that is not empty, unless its header
tells it.

* `Yaml.plain?`: a scalar without quotes, and whether it ended below its line;
* `Yaml.quoted?`: a scalar in single or double quotes;
* `Yaml.block?`: a scalar after `|` or `>`.
-/
import PageTree.Yaml.Cursor
import PageTree.Text.Digits

namespace PageTree

namespace Yaml

/-! ### Gaps between words -/

/-- The blanks and breaks between two words of a scalar: blanks before the
first break, that break, and those after it. -/
structure Gap where
  blanks : List Char
  firstBreak : List Char
  moreBreaks : List Char
  broken : Bool

namespace Gap

/-- No blanks and no breaks. -/
def empty : Gap := ⟨[], [], [], false⟩

/-- Right after an escaped line break. -/
def escaped : Gap := ⟨[], [], [], true⟩

/-- What a gap stands for: its blanks, or its folded breaks. -/
def fold (g : Gap) : List Char :=
  if g.broken then
    if g.firstBreak = ['\n'] then
      if g.moreBreaks = [] then [' '] else g.moreBreaks
    else g.firstBreak ++ g.moreBreaks
  else g.blanks

/-- Reads a gap on from a place. Below the first break a tab may not stand
before the column `indent`. -/
def read? (indent : Nat) : Nat → Gap → Cursor → Option (Gap × Cursor)
  | 0, _, _ => none
  | bound + 1, g, c =>
    match c.next? with
    | none => some (g, c)
    | some ch =>
      if isBlank ch then
        if g.broken && c.column < indent && ch = '\t' then none
        else if g.broken then read? indent bound g c.skip
        else read? indent bound { g with blanks := g.blanks ++ [ch] } c.skip
      else if isBreak ch then
        let (br, c) := c.readBreak
        if g.broken then read? indent bound { g with moreBreaks := g.moreBreaks ++ br } c
        else read? indent bound { g with blanks := [], firstBreak := br, broken := true } c
      else some (g, c)

end Gap

/-! ### Plain scalars -/

/-- The marks of collections in flow style. -/
def isFlowMark (c : Char) : Bool :=
  c = ',' || c = '[' || c = ']' || c = '\x7b' || c = '\x7d'

/-- The characters of a plain scalar up to a blank, a break or a mark that
ends it. In flow style a colon must not stand before a mark. -/
def plainWord? (flow : Bool) : List Char → Option (List Char)
  | [] => some []
  | c :: rest =>
    if isBlank c || isBreak c then some []
    else if flow && c = ':' && rest.head?.any (fun d => isFlowMark d || d = '?') then none
    else if (c = ':' && endsWord rest.head?) || (flow && isFlowMark c) then some []
    else (plainWord? flow rest).map (c :: ·)

/-- Reads a plain scalar on: `text` is what came before and `gap` the gap
after it. The result tells whether the scalar ended after a line break. -/
def plainFrom? (flow : Bool) (indent : Nat) :
    Nat → List Char → Gap → Cursor → Option (List Char × Bool × Cursor)
  | 0, _, _, _ => none
  | bound + 1, text, gap, c =>
    if c.seesDocumentMark || c.sees '#' then some (text, gap.broken, c)
    else
      match plainWord? flow c.rest with
      | none => none
      | some word =>
        let (text, gap) := if word = [] then (text, gap) else (text ++ gap.fold ++ word, Gap.empty)
        let c := c.skipMany word.length
        if c.seesA (fun ch => isBlank ch || isBreak ch) then
          match gap.read? indent (c.rest.length + 1) c with
          | none => none
          | some (gap, c) =>
            if !flow && c.column < indent then some (text, gap.broken, c)
            else plainFrom? flow indent bound text gap c
        else some (text, gap.broken, c)

/-- The plain scalar that starts here. Outside of flow style its lines must
reach the column `indent`. -/
def plain? (flow : Bool) (indent : Nat) (c : Cursor) : Option (List Char × Bool × Cursor) :=
  plainFrom? flow indent (c.rest.length + 1) [] Gap.empty c

/-! ### Quoted scalars -/

/-- The character of a one-letter escape. -/
def escape? : Char → Option Char
  | '0' => some '\x00'
  | 'a' => some '\x07'
  | 'b' => some '\x08'
  | 't' | '\t' => some '\t'
  | 'n' => some '\n'
  | 'v' => some '\x0b'
  | 'f' => some '\x0c'
  | 'r' => some '\r'
  | 'e' => some '\x1b'
  | ' ' => some ' '
  | '"' => some '"'
  | '/' => some '/'
  | '\\' => some '\\'
  | 'N' => some '\u0085'
  | '_' => some '\u00a0'
  | 'L' => some '\u2028'
  | 'P' => some '\u2029'
  | _ => none

/-- How many hexadecimal digits an escape takes. -/
def escapeWidth? : Char → Option Nat
  | 'x' => some 2
  | 'u' => some 4
  | 'U' => some 8
  | _ => none

/-- The character with a code, surrogates and too large codes excepted. -/
def charOfCode? (n : Nat) : Option Char :=
  if (0xD800 ≤ n ∧ n ≤ 0xDFFF) ∨ 0x10FFFF < n then none else some (Char.ofNat n)

/-- Reads the characters of a quoted scalar up to a blank, a break or the
closing quote; the flag tells that an escaped line break was met. -/
def quotedWord? (single : Bool) :
    Nat → List Char → Cursor → Option (List Char × Bool × Cursor)
  | 0, _, _ => none
  | bound + 1, text, c =>
    match c.rest with
    | [] => some (text, false, c)
    | ch :: rest =>
      if isBlank ch || isBreak ch then some (text, false, c)
      else if single && ch = '\'' && rest.head? = some '\'' then
        quotedWord? single bound (text ++ ['\'']) (c.skipMany 2)
      else if ch = (if single then '\'' else '"') then some (text, false, c)
      else if !single && ch = '\\' then
        match rest with
        | [] => none
        | e :: digits =>
          if isBreak e then some (text, true, c.skip.skipLine)
          else
            match escape? e, escapeWidth? e with
            | some x, _ => quotedWord? single bound (text ++ [x]) (c.skipMany 2)
            | none, some width =>
              if digits.length < width then none
              else
                match (Digits.numberIn? 16 (digits.take width)).bind charOfCode? with
                | none => none
                | some x => quotedWord? single bound (text ++ [x]) (c.skipMany (2 + width))
            | none, none => none
      else quotedWord? single bound (text ++ [ch]) c.skip

/-- Reads a quoted scalar on, up to and past its closing quote. -/
def quotedFrom? (single : Bool) : Nat → List Char → Cursor → Option (List Char × Cursor)
  | 0, _, _ => none
  | bound + 1, text, c =>
    if c.seesDocumentMark then none
    else
      match quotedWord? single (c.rest.length + 1) text c with
      | none => none
      | some (text, escaped, c) =>
        if c.rest = [] then none
        else if c.sees (if single then '\'' else '"') then some (text, c.skip)
        else
          match (if escaped then Gap.escaped else Gap.empty).read? 0 (c.rest.length + 1) c with
          | none => none
          | some (gap, c) => quotedFrom? single bound (text ++ gap.fold) c

/-- The quoted scalar that starts here with its quote. -/
def quoted? (single : Bool) (c : Cursor) : Option (List Char × Cursor) :=
  quotedFrom? single (c.rest.length + 1) [] c.skip

/-! ### Block scalars -/

/-- What happens to the breaks at the end of a block scalar. -/
inductive Chomping where
  /-- None is kept. -/
  | strip
  /-- The first is kept. -/
  | clip
  /-- All are kept. -/
  | keep
deriving DecidableEq

/-- The sign of a chomping. -/
def Chomping.ofChar? : Char → Option Chomping
  | '+' => some .keep
  | '-' => some .strip
  | _ => none

/-- The digit of an indentation, not zero. -/
def indentation? (c : Char) : Option Nat :=
  if c.isDigit ∧ c ≠ '0' then some (c.toNat - '0'.toNat) else none

/-- The header of a block scalar: chomping and indentation in either order. -/
def blockHeader? (c : Cursor) : Option (Chomping × Option Nat × Cursor) :=
  let sign (c : Cursor) : Option Chomping := c.next?.bind Chomping.ofChar?
  match sign c with
  | some chomping =>
    let c := c.skip
    if c.seesA Char.isDigit then
      (c.next?.bind indentation?).map fun n => (chomping, some n, c.skip)
    else some (chomping, none, c)
  | none =>
    if c.seesA Char.isDigit then
      match c.next?.bind indentation? with
      | none => none
      | some n =>
        let c := c.skip
        match sign c with
        | some chomping => some (chomping, some n, c.skip)
        | none => some (.clip, some n, c)
    else some (.clip, none, c)

/-- Reads empty lines and the indentation of the next line. While `indent` is
unknown all leading spaces are taken, and the widest line seen is kept. -/
def blockBreaks? (indent : Option Nat) :
    Nat → Nat → List Char → Cursor → Option (Nat × List Char × Cursor)
  | 0, _, _, _ => none
  | bound + 1, widest, breaks, c =>
    let room := match indent with
      | some n => n - c.column
      | none => c.rest.length
    let spaces := (c.rest.take room).takeWhile (· = ' ')
    let c := c.skipMany spaces.length
    let widest := max widest c.column
    if (indent.all (c.column < ·)) && c.sees '\t' then none
    else if c.seesA isBreak then
      let (br, c) := c.readBreak
      blockBreaks? indent bound widest (breaks ++ br) c
    else some (widest, breaks, c)

/-- Reads the lines of a block scalar on. `leading` is the break that ended
the last line and `blank` tells that the line started with a blank; `empties`
are the breaks of the empty lines after it. -/
def blockLines? (folded : Bool) (indent : Nat) :
    Nat → List Char → List Char → Bool → List Char → Cursor →
      Option (List Char × List Char × List Char × Cursor)
  | 0, _, _, _, _, _ => none
  | bound + 1, text, leading, blank, empties, c =>
    if c.column = indent && c.rest ≠ [] then
      let startsBlank := c.seesA isBlank
      let joint :=
        if folded && leading = ['\n'] && !blank && !startsBlank then
          if empties = [] then [' '] else empties
        else leading ++ empties
      let (line, c) := c.span (fun ch => !isBreak ch)
      let (br, c) := c.readBreak
      match blockBreaks? (some indent) (c.rest.length + 1) 0 [] c with
      | none => none
      | some (_, empties, c) =>
        blockLines? folded indent bound (text ++ joint ++ line) br startsBlank empties c
    else some (text, leading, empties, c)

/-- The block scalar that starts here with its mark, inside a collection
indented by `parent` columns, if by any. -/
def block? (folded : Bool) (parent : Option Nat) (c : Cursor) : Option (List Char × Cursor) := do
  let (chomping, increment, c) ← blockHeader? c.skip
  let c ← c.finishLine?
  let known := increment.map (parent.getD 0 + ·)
  let (widest, empties, c) ← blockBreaks? known (c.rest.length + 1) 0 [] c
  let least := match parent with
    | some n => n + 1
    | none => 0
  let indent := known.getD (max (max widest least) 1)
  let (text, leading, empties, c) ←
    blockLines? folded indent (c.rest.length + 1) [] [] false empties c
  let tail := match chomping with
    | .strip => []
    | .clip => leading
    | .keep => leading ++ empties
  return (text ++ tail, c)

end Yaml

end PageTree
