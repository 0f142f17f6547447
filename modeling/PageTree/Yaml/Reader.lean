/-
Values from YAML text.

An anchor gets the number of different names that came before it, and an alias
means the last node of the document whose anchor has the number that its name
had where the alias stands. Keys are the texts of scalars as they are written.
At most `Yaml.maxNesting` collections may be open at once, and aliases may be
followed at most a hundred times per part of the document.

* `Yaml.number?`: anchors and aliases by number;
* `Yaml.Document.value?`: the value of a node;
* `Yaml.read?`: the value of a text.
-/
import PageTree.Yaml.Node
import PageTree.Yaml.Schema

namespace PageTree

namespace Yaml

/-- How many collections may be open at once. -/
def maxNesting : Nat := 128

/-- How often aliases may be followed, per part of the document. -/
def aliasesPerPart : Nat := 100

/-! ### Anchors by number -/

/-- The numbers of the names of anchors so far, last one first. -/
abbrev Numbers := List (List Char × Nat)

/-- How many different names have a number. -/
def Numbers.size (names : Numbers) : Nat := (names.map Prod.fst).eraseDups.length

/-- Properties with the anchor's number in place of its name. -/
def numberAnchor (names : Numbers) (p : Properties (List Char)) : Properties Nat × Numbers :=
  match p.anchor with
  | none => (⟨none, p.tag⟩, names)
  | some name => (⟨some names.size, p.tag⟩, (name, names.size) :: names)

mutual
/-- A node with numbers in place of names, unless an alias is unknown. -/
def number? (names : Numbers) : Node (List Char) → Option (Node Nat × Numbers)
  | .alias name => (names.lookup name).map fun n => (.alias n, names)
  | .scalar p text plain =>
    let (p, names) := numberAnchor names p
    some (.scalar p text plain, names)
  | .sequence p items =>
    let (p, names) := numberAnchor names p
    match numberItems? names items with
    | none => none
    | some (items, names) => some (.sequence p items, names)
  | .mapping p entries =>
    let (p, names) := numberAnchor names p
    match numberEntries? names entries with
    | none => none
    | some (entries, names) => some (.mapping p entries, names)

/-- The items of a sequence with numbers in place of names. -/
def numberItems? (names : Numbers) :
    List (Node (List Char)) → Option (List (Node Nat) × Numbers)
  | [] => some ([], names)
  | item :: items =>
    match number? names item with
    | none => none
    | some (item, names) =>
      match numberItems? names items with
      | none => none
      | some (items, names) => some (item :: items, names)

/-- The entries of a mapping with numbers in place of names. -/
def numberEntries? (names : Numbers) :
    List (Node (List Char) × Node (List Char)) → Option (List (Node Nat × Node Nat) × Numbers)
  | [] => some ([], names)
  | (key, value) :: entries =>
    match number? names key with
    | none => none
    | some (key, names) =>
      match number? names value with
      | none => none
      | some (value, names) =>
        match numberEntries? names entries with
        | none => none
        | some (entries, names) => some ((key, value) :: entries, names)
end

/-! ### Parts and anchored nodes -/

mutual
/-- The parts of a node: one for a scalar or an alias, two for the ends of a
collection. -/
def parts : Node Nat → Nat
  | .alias _ | .scalar .. => 1
  | .sequence _ items => 2 + partsOfItems items
  | .mapping _ entries => 2 + partsOfEntries entries

/-- The parts of the items of a sequence. -/
def partsOfItems : List (Node Nat) → Nat
  | [] => 0
  | item :: items => parts item + partsOfItems items

/-- The parts of the entries of a mapping. -/
def partsOfEntries : List (Node Nat × Node Nat) → Nat
  | [] => 0
  | (key, value) :: entries => parts key + parts value + partsOfEntries entries
end

/-- The entry of a node in the table of anchored nodes. -/
def anchorEntry (p : Properties Nat) (node : Node Nat) : List (Nat × Node Nat) :=
  p.anchor.toList.map (·, node)

mutual
/-- The nodes with an anchor, in the order in which they start. -/
def anchored : Node Nat → List (Nat × Node Nat)
  | .alias _ => []
  | node@(.scalar p ..) => anchorEntry p node
  | node@(.sequence p items) => anchorEntry p node ++ anchoredItems items
  | node@(.mapping p entries) => anchorEntry p node ++ anchoredEntries entries

/-- The anchored nodes in the items of a sequence. -/
def anchoredItems : List (Node Nat) → List (Nat × Node Nat)
  | [] => []
  | item :: items => anchored item ++ anchoredItems items

/-- The anchored nodes in the entries of a mapping. -/
def anchoredEntries : List (Node Nat × Node Nat) → List (Nat × Node Nat)
  | [] => []
  | (key, value) :: entries => anchored key ++ anchored value ++ anchoredEntries entries
end

/-! ### Values -/

/-- A document: its node, and the node of every number. -/
structure Document where
  root : Node Nat
  target? : Nat → Option (Node Nat)

/-- The document of a node with names. -/
def Document.ofNode? (node : Node (List Char)) : Option Document :=
  (number? [] node).map fun (root, _) =>
    let table := (anchored root).reverse
    ⟨root, fun n => table.lookup n⟩

namespace Document

/-- Follows a node that is an alias; the number counts down the aliases that
may still be followed. -/
def follow? (d : Document) (left : Nat) : Node Nat → Option (Node Nat × Nat)
  | .alias n =>
    match left with
    | 0 => none
    | left + 1 => (d.target? n).map (·, left)
  | node => some (node, left)

/-- The text of a node as a key. -/
def key? (d : Document) (left : Nat) (node : Node Nat) : Option (String × Nat) :=
  match d.follow? left node with
  | some (.scalar _ text _, left) => some (String.ofList text, left)
  | _ => none

/-- Whether a collection may have such a tag: it has no value of its own. -/
def allowsTag (p : Properties Nat) : Bool := p.tag.all (·.head? ≠ some '!')

/-- The value of a node inside which `nesting` collections may be open, with
the number of aliases that may still be followed. -/
def valueWithin? (d : Document) (nesting left : Nat) (node : Node Nat) :
    Option (Value × Nat) :=
  match d.follow? left node with
  | none => none
  | some (.alias _, _) => none
  | some (.scalar p text plain, left) => (scalarValue? text plain p.tag).map (·, left)
  | some (.sequence p items, left) =>
    match nesting with
    | 0 => none
    | nesting + 1 =>
      if allowsTag p then
        let addItem (read : List Value × Nat) (item : Node Nat) : Option (List Value × Nat) :=
          (valueWithin? d nesting read.2 item).map fun (v, left) => (v :: read.1, left)
        (items.foldlM addItem ([], left)).map fun read => (.arr read.1.reverse, read.2)
      else none
  | some (.mapping p entries, left) =>
    match nesting with
    | 0 => none
    | nesting + 1 =>
      if allowsTag p then
        let addEntry (read : Mapping × Nat) (entry : Node Nat × Node Nat) :
            Option (Mapping × Nat) :=
          match d.key? read.2 entry.1 with
          | none => none
          | some (k, left) =>
            (valueWithin? d nesting left entry.2).map fun (v, left) =>
              (Mapping.insert read.1 k v, left)
        (entries.foldlM addEntry ([], left)).map fun read => (.obj read.1, read.2)
      else none

/-- The value of a document. -/
def value? (d : Document) : Option Value :=
  (d.valueWithin? maxNesting (aliasesPerPart * parts d.root) d.root).map Prod.fst

end Document

/-- The value that a text writes; a text without a document writes null. -/
def read? (text : String) : Option Value :=
  match document? text.toList with
  | none => none
  | some none => some .null
  | some (some node) => (Document.ofNode? node).bind Document.value?

end Yaml

end PageTree
