/-
Values from TOML text.

A document is a sequence of headers and of keys with values, one to a line. An
array may span several lines and end with a comma; an inline table may not. At
most `Toml.maxNesting` arrays and inline tables may be open at once, and a
dotted key has at most as many parts. Dates and times become a mapping with
the one key `Toml.dateTimeKey`.

* `Toml.key?`: a key and its parts;
* `Toml.valueWithin?`: a value;
* `Toml.read?`: the value of a text.
-/
import PageTree.Toml.Scalar
import PageTree.Toml.Table

namespace PageTree

namespace Toml

/-- How many arrays and inline tables may be open at once. -/
def maxNesting : Nat := 79

/-- The key of the mapping that holds a date or a time. -/
def dateTimeKey : String := "$__toml_private_datetime"

/-! ### Keys -/

/-- The characters of a key without quotes. -/
def isKeyChar (c : Char) : Bool := c.isAlphanum || c = '-' || c = '_'

/-- One part of a key. -/
def keyPart? (cs : List Char) : Option (String × List Char) :=
  match cs with
  | '"' :: rest => (basic? (rest.length + 1) rest).map fun (s, r) => (String.ofList s, r)
  | '\'' :: rest => (literal? rest).map fun (s, r) => (String.ofList s, r)
  | cs =>
    let (s, rest) := cs.span isKeyChar
    if s = [] then none else some (String.ofList s, rest)

/-- The parts of a key, with points between them and blanks around them. -/
def keyParts? : Nat → List Char → Option ((List String) × List Char)
  | 0, _ => none
  | bound + 1, cs =>
    match keyPart? (skipBlanks cs) with
    | none => none
    | some (part, rest) =>
      match skipBlanks rest with
      | '.' :: rest => (keyParts? bound rest).map fun (parts, r) => (part :: parts, r)
      | rest => some ([part], rest)

/-- A key: the path to its table, and its last part. -/
def key? (cs : List Char) : Option ((List String × String) × List Char) :=
  match keyParts? (cs.length + 1) cs with
  | none => none
  | some (parts, rest) =>
    if maxNesting < parts.length then none
    else parts.getLast?.map fun last => ((parts.dropLast, last), rest)

/-! ### Values -/

/-- The items of an array after its bracket, `item?` reading one value. -/
def items? (item? : List Char → Option (Value × List Char)) :
    Nat → List Char → Option (List Value × List Char)
  | 0, _ => none
  | bound + 1, cs =>
    match skipLines (cs.length + 1) cs with
    | ']' :: rest => some ([], rest)
    | cs =>
      match item? cs with
      | none => none
      | some (v, rest) =>
        match skipLines (rest.length + 1) rest with
        | ',' :: rest => (items? item? bound rest).map fun (vs, r) => (v :: vs, r)
        | ']' :: rest => some ([v], rest)
        | _ => none

/-- The entries of an inline table after its brace, `item?` reading one value.
The table so far is `table`. -/
def inlineEntries? (item? : List Char → Option (Value × List Char)) :
    Nat → Entries → List Char → Option (Entries × List Char)
  | 0, _, _ => none
  | bound + 1, table, cs =>
    match key? cs with
    | some ((path, key), '=' :: rest) =>
      match item? (skipBlanks rest) with
      | none => none
      | some (v, rest) =>
        match define? path key v table, skipBlanks rest with
        | some table, ',' :: rest => inlineEntries? item? bound table rest
        | some table, '\x7d' :: rest => some (table, rest)
        | _, _ => none
    | _ => none

/-- A value inside which `nesting` arrays and inline tables may be open. -/
def valueWithin? : Nat → List Char → Option (Value × List Char)
  | nesting, cs =>
    match cs with
    | '"' :: _ | '\'' :: _ => (string? cs).map fun (s, r) => (.str s, r)
    | 't' :: 'r' :: 'u' :: 'e' :: rest => some (.bool true, rest)
    | 'f' :: 'a' :: 'l' :: 's' :: 'e' :: rest => some (.bool false, rest)
    | '[' :: rest =>
      match nesting with
      | 0 => none
      | nesting + 1 =>
        (items? (valueWithin? nesting) (rest.length + 1) rest).map fun (vs, r) => (.arr vs, r)
    | '\x7b' :: rest =>
      match nesting with
      | 0 => none
      | nesting + 1 =>
        match skipBlanks rest with
        | '\x7d' :: rest => some (.obj [], rest)
        | rest =>
          (inlineEntries? (valueWithin? nesting) (rest.length + 1) [] rest).map fun (table, r) =>
            (.obj (entriesToMapping table), r)
    | cs =>
      if seesDateTime cs then
        (dateTime? cs).map fun (s, r) => (.obj [(dateTimeKey, .str s)], r)
      else number? cs

/-! ### Documents -/

/-- A document while it is read: its tables, and the path of the header whose
table is open. -/
structure Document where
  root : Entries
  header : List String

/-- Reads one header, one key with its value, a comment, or nothing, and the
end of the line after it. -/
def line? (d : Document) (cs : List Char) : Option (Document × List Char) :=
  match cs with
  | '#' :: _ | '\n' :: _ | '\r' :: _ => (finishLine? cs).map (d, ·)
  | '[' :: '[' :: rest =>
    match key? rest with
    | some ((path, key), ']' :: ']' :: rest) => do
      let rest ← finishLine? rest
      let root ← openArrayTable? path key d.root
      return (⟨root, path ++ [key]⟩, rest)
    | _ => none
  | '[' :: rest =>
    match key? rest with
    | some ((path, key), ']' :: rest) => do
      let rest ← finishLine? rest
      let root ← openTable? path key d.root
      return (⟨root, path ++ [key]⟩, rest)
    | _ => none
  | cs =>
    match key? cs with
    | some ((path, key), '=' :: rest) => do
      let (v, rest) ← valueWithin? maxNesting (skipBlanks rest)
      let rest ← finishLine? rest
      let root ← within? false (fun _ table => define? path key v table) d.header .header d.root
      return ({ d with root := root }, rest)
    | _ => none

/-- Reads lines to the end of the text. -/
def lines? : Nat → Document → List Char → Option Document
  | 0, _, _ => none
  | bound + 1, d, cs =>
    match skipBlanks cs with
    | [] => some d
    | cs => (line? d cs).bind fun (d, rest) => lines? bound d rest

/-- The value that a text writes. -/
def read? (text : String) : Option Value :=
  let cs := match text.toList with
    | '\ufeff' :: rest => rest
    | cs => cs
  (lines? (cs.length + 1) ⟨[], []⟩ cs).map fun d => .obj (entriesToMapping d.root)

end Toml

end PageTree
