/-
Collections of documents.

A document is a mapping. Documents are kept under the names of their
collections, in the order in which they came in. A document may have an id,
and a mapping that names a collection and an id refers to the first document
of the collection with that id.

* `Collections`, `Collections.insert`, `Collections.documents`;
* `Collections.ofMapping`, `Collections.ofFile`: collections from data, and
  `CollectionsError` for data of another shape;
* `Collections.target?`: the document that a mapping refers to.
-/
import PageTree.Config.Source

namespace PageTree

/-- Documents with the names of their collections, in the order in which they
came in. -/
structure Collections where
  entries : List (String × Mapping)
deriving DecidableEq

/-! ### Errors -/

/-- Why some data are no collections. -/
inductive CollectionsError where
  /-- Their file could not be read. -/
  | unreadable (path : String) (reason : ConfigError)
  /-- A collection is not a sequence. -/
  | notSequence (collection : String)
  /-- A collection holds something that is not a mapping. -/
  | notMapping (collection : String)
deriving DecidableEq

/-- The message of an error. -/
def CollectionsError.message : CollectionsError → String
  | .unreadable path reason =>
    "Failed to load documents from " ++ path ++ ": " ++ reason.message
  | .notSequence collection =>
    "Invalid document data: collection '" ++ collection ++ "' must be a sequence of documents"
  | .notMapping collection =>
    "Invalid document data: collection '" ++ collection ++ "' contains a non-mapping entry"

namespace Collections

/-! ### Documents -/

/-- No documents. -/
def empty : Collections := ⟨[]⟩

/-- Collections with one more document, the last of its collection. -/
def insert (c : Collections) (collection : String) (document : Mapping) : Collections :=
  ⟨c.entries ++ [(collection, document)]⟩

/-- The documents of a collection; there are none in one that was never
named. -/
def documents (c : Collections) (collection : String) : List Mapping :=
  (c.entries.filter (·.1 = collection)).map Prod.snd

/-- How many documents a collection has. -/
def size (c : Collections) (collection : String) : Nat := (c.documents collection).length

/-- Whether there is no document. -/
def isEmpty (c : Collections) : Bool := c.entries.isEmpty

@[simp] theorem documents_empty (collection : String) : empty.documents collection = [] := rfl

theorem documents_insert (c : Collections) (collection other : String) (document : Mapping) :
    (c.insert collection document).documents other =
      if collection = other then c.documents other ++ [document] else c.documents other := by
  by_cases h : collection = other <;> simp [documents, insert, h]

/-! ### Reading -/

/-- The documents of a value that is to be a collection. -/
def documentsOf (collection : String) : Value → Except CollectionsError (List Mapping)
  | .arr items =>
    items.mapM fun item =>
      match item with
      | .obj document => .ok document
      | _ => .error (.notMapping collection)
  | _ => .error (.notSequence collection)

/-- The collections of a mapping from their names to sequences of documents. -/
def ofMapping (data : Mapping) : Except CollectionsError Collections := do
  let collections ← data.mapM fun (collection, v) => do
    let documents ← documentsOf collection v
    return documents.map (collection, ·)
  return ⟨collections.flatten⟩

/-- The collections in a file. -/
def ofFile (files : Files) (path : String) : Except CollectionsError Collections :=
  match Source.ofFile files path with
  | .error reason => .error (.unreadable path reason)
  | .ok data => ofMapping data

/-! ### References -/

/-- The entry that names the collection of a reference. -/
def collectionKey : String := "collection"

/-- The entry that holds an id. -/
def idKey : String := "_id"

/-- The key of a wrapped id. -/
def wrapperKey : String := "$oid"

/-- The text of a wrapped id. -/
def wrappedId? (v : Value) : Option String := (v.member? wrapperKey).bind Value.asText?

/-- The id of a document: a text, or a wrapped one. -/
def id? (document : Mapping) : Option String :=
  match Mapping.find? document idKey with
  | some (.str id) => some id
  | some v => wrappedId? v
  | none => none

/-- The collection and the id that a mapping refers to. Only a wrapped id makes
a reference. -/
def reference? (m : Mapping) : Option (String × String) := do
  let collection ← (Mapping.find? m collectionKey).bind Value.asText?
  let id ← (Mapping.find? m idKey).bind wrappedId?
  return (collection, id)

/-- The first document of a collection with an id. -/
def findById? (c : Collections) (collection id : String) : Option Mapping :=
  (c.documents collection).find? fun document => id? document = some id

/-- The document that a mapping refers to, if there is one. -/
def target? (c : Collections) (m : Mapping) : Option Mapping :=
  (reference? m).bind fun (collection, id) => c.findById? collection id

/-- How far below the top level of a document references are looked for. What
is inside the document that a reference stands for counts as below it. -/
def maxDepth : Nat := 8

/-- A value with documents in the place of the references to them, as far as
some levels down. -/
def expandValue (c : Collections) (levels : Nat) (v : Value) : Value :=
  match levels, v with
  | levels + 1, .obj m =>
    .obj (((c.target? m).getD m).map fun e => (e.1, expandValue c levels e.2))
  | levels + 1, .arr items => .arr (items.map (expandValue c levels))
  | _, v => v

/-- A document with documents in the place of the references below its top
level. -/
def expand (c : Collections) (document : Mapping) : Mapping :=
  document.map fun e => (e.1, c.expandValue maxDepth e.2)

end Collections

end PageTree
