/-
Selecting documents.

A selection takes the documents of a collection that match a filter, sorts
them, cuts the list off, and puts documents in the place of the references in
them. A filter maps dot paths to the values that must stand there; values are
compared up to the order of entries.

* `SelectOptions`, `SelectOptions.ofValue?`: options, from a mapping or from a
  sequence of the fields;
* `Collections.matching`: the documents that match a filter;
* `Collections.select`: the documents that are selected;
* `DocumentSource`: anything that documents can be selected from.
-/
import PageTree.Collections
import PageTree.Collections.Order

namespace PageTree

/-! ### Options -/

/-- How a selection is sorted and cut off, and whether references are
expanded. -/
structure SelectOptions where
  limit : Option Nat := none
  sort : List SortKey := []
  expandReferences : Bool := true
deriving DecidableEq

/-- The fields of a structure in a value: those of a mapping by their names,
or those of a sequence by their places. A sequence must not be longer. -/
def Value.fields? (v : Value) (names : List String) : Option (List (Option Value)) :=
  match v with
  | .obj m => some (names.map (Mapping.find? m))
  | .arr items =>
    if items.length ≤ names.length then
      some ((List.range names.length).map (items[·]?))
    else none
  | _ => none

namespace SortOrder

/-- The direction with a name. -/
def ofName? (name : String) : Option SortOrder :=
  if name = "asc" then some .ascending
  else if name = "desc" then some .descending
  else none

/-- The direction of a value: its name, or a mapping of the name alone to
null. -/
def ofValue? : Value → Option SortOrder
  | .str name => ofName? name
  | .obj [(name, .null)] => ofName? name
  | _ => none

end SortOrder

namespace SortKey

/-- The names of the fields of a sort key. -/
def fieldNames : List String := ["field", "order"]

/-- The sort key of a value; its direction may be missing. -/
def ofValue? (v : Value) : Option SortKey := do
  match ← v.fields? fieldNames with
  | [field, order] =>
    let field ← field.bind Value.asText?
    match order with
    | none => return ⟨field, .ascending⟩
    | some order => return ⟨field, ← SortOrder.ofValue? order⟩
  | _ => none

end SortKey

namespace SelectOptions

/-- The names of the fields of options. -/
def fieldNames : List String := ["limit", "sort", "expand_references"]

/-- The limit of a value: an integer that is not negative, or null. -/
def limitOf? : Value → Option (Option Nat)
  | .null => some none
  | .num (.integer i _) => if 0 ≤ i then some (some i.toNat) else none
  | _ => none

/-- The sort keys of a value. -/
def sortOf? : Value → Option (List SortKey)
  | .arr items => items.mapM SortKey.ofValue?
  | _ => none

/-- A field that is read if it is there, and otherwise has a default. -/
def readD {α : Type} (read : Value → Option α) (default : α) : Option Value → Option α
  | none => some default
  | some v => read v

/-- The options of a value. Every field may be missing, and unknown entries of
a mapping are passed over. -/
def ofValue? (v : Value) : Option SelectOptions := do
  match ← v.fields? fieldNames with
  | [limit, sort, expandReferences] =>
    return {
      limit := ← readD limitOf? none limit
      sort := ← readD sortOf? [] sort
      expandReferences := ← readD Value.asBool? true expandReferences }
  | _ => none

/-- How many documents a selection has at most. -/
def bound? (options : SelectOptions) (multiple : Bool) : Option Nat :=
  if multiple then options.limit else some 1

end SelectOptions

/-! ### Selecting -/

namespace Collections

/-- Whether a document has at every path of a filter the value that the filter
has for it. -/
def isMatch (filter document : Mapping) : Bool :=
  filter.all fun (path, expected) =>
    match Mapping.lookup? document (KeyPath.split path) with
    | some v => v.same expected
    | none => false

/-- The documents of a collection that match a filter. -/
def matching (c : Collections) (collection : String) (filter : Mapping) : List Mapping :=
  (c.documents collection).filter (isMatch filter)

/-- A list up to some length, if one is given. -/
def cut {α : Type} (bound : Option Nat) (l : List α) : List α :=
  match bound with
  | some n => l.take n
  | none => l

/-- The selected documents; a single one at most unless `multiple` is set. -/
def select (c : Collections) (collection : String) (filter : Mapping)
    (options : SelectOptions) (multiple : Bool) : List Mapping :=
  let found := SortKey.sort options.sort (c.matching collection filter)
  let chosen := cut (options.bound? multiple) found
  if options.expandReferences then chosen.map c.expand else chosen

end Collections

/-! ### Sources of documents -/

/-- A source of documents. -/
structure DocumentSource where
  /-- The documents of a collection that a filter and some options select, a
  single one at most unless the last argument is set; or, in words, why there is
  no answer. -/
  select : String → Mapping → SelectOptions → Bool → Except String (List Mapping)

/-- Collections always answer. -/
def Collections.source (c : Collections) : DocumentSource :=
  ⟨fun collection filter options multiple => .ok (c.select collection filter options multiple)⟩

instance : Coe Collections DocumentSource := ⟨Collections.source⟩

end PageTree
