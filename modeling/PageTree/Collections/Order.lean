/-
The order of documents.

Documents are compared by sort keys, the most significant one first. Under a
key a missing value comes last; two numbers are compared as numbers, and any
other two values by their texts. A descending key turns all of this around.

* `SortKey`, `SortOrder`;
* `SortKey.compareAll`: the comparison by some keys;
* `SortKey.sort`: documents in order; those that compare equal keep the order
  they had.
-/
import PageTree.KeyPath
import PageTree.Json.Printer

namespace PageTree

/-! ### Sort keys -/

/-- The direction of a sort key. -/
inductive SortOrder where
  | ascending
  | descending
deriving DecidableEq

/-- A dot path into documents, with a direction. -/
structure SortKey where
  field : String
  order : SortOrder
deriving DecidableEq

namespace SortKey

/-! ### Comparison -/

/-- The order of two values, either of which may be missing. -/
def compareValues : Option Value → Option Value → Ordering
  | none, none => .eq
  | none, some _ => .gt
  | some _, none => .lt
  | some (.num x), some (.num y) => compare x.position y.position
  | some v, some w => compare v.text w.text

/-- An ordering in some direction. -/
def direct (order : SortOrder) (o : Ordering) : Ordering :=
  match order with
  | .ascending => o
  | .descending => o.swap

/-- The order of two documents under a key. -/
def compareBy (key : SortKey) (a b : Mapping) : Ordering :=
  let path := KeyPath.split key.field
  direct key.order (compareValues (Mapping.lookup? a path) (Mapping.lookup? b path))

/-- The order of two documents under some keys: that of the first key under
which they differ. -/
def compareAll (keys : List SortKey) (a b : Mapping) : Ordering :=
  match keys with
  | [] => .eq
  | key :: rest => (key.compareBy a b).then (compareAll rest a b)

/-! ### Sorting -/

/-- Puts a document among sorted ones, which are in reverse: before all those
at the end that come after it. -/
def place (keys : List SortKey) (document : Mapping) : List Mapping → List Mapping
  | [] => [document]
  | last :: before =>
    if compareAll keys document last = .lt then last :: place keys document before
    else document :: last :: before

/-- Documents in the order of some keys; those that compare equal keep the order
they had. Where the keys make no consistent order of the documents
(`compareAll` need not be transitive), what comes out is this insertion's own
order; a library's sort may there leave another one, or panic. -/
def sort (keys : List SortKey) (documents : List Mapping) : List Mapping :=
  (documents.foldl (fun sorted document => place keys document sorted) []).reverse

end SortKey

end PageTree
