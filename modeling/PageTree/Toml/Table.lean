/-
The tables of a TOML document while it is read.

A table comes from a header, from the path of a deeper header, or from a
dotted key. Only a table of the second kind may be opened again by a header of
its own, and dotted keys add only to tables that dotted keys made. Nothing is
ever defined twice.

* `Toml.Item`: values, tables and arrays of tables;
* `Toml.within?`: changes the table at a path, making the tables on the way;
* `Toml.openTable?`, `Toml.openArrayTable?`, `Toml.define?`: headers and keys;
* `Toml.Item.value`: what an item stands for.
-/
import PageTree.Value

namespace PageTree

namespace Toml

/-- Where a table comes from. -/
inductive Origin where
  /-- Its own header. -/
  | header
  /-- The header of a table inside it. -/
  | deeperHeader
  /-- A dotted key. -/
  | dottedKey
deriving DecidableEq

/-- What a key can stand for: a value, a table, or an array of tables with its
last one apart. -/
inductive Item where
  | value (v : Value)
  | table (origin : Origin) (entries : List (String × Item))
  | tables (earlier : List Item) (last : List (String × Item))

/-- The entries of a table in order. -/
abbrev Entries := List (String × Item)

/-- Changes the item of a key; a new one goes last. -/
def adjust? (key : String) (f : Option Item → Option Item) : Entries → Option Entries
  | [] => (f none).map fun item => [(key, item)]
  | (k, item) :: rest =>
    if k = key then (f (some item)).map fun item => (k, item) :: rest
    else (adjust? key f rest).map ((k, item) :: ·)

/-- Changes the table at a path below a table of some origin. The path goes
into the last table of an array, never into a value, and, for a dotted key,
not into a table with a header. -/
def within? (dotted : Bool) (f : Origin → Entries → Option Entries) :
    List String → Origin → Entries → Option Entries
  | [], origin, entries => f origin entries
  | key :: path, _, entries =>
    adjust? key (fun item =>
      match item with
      | none =>
        let origin := if dotted then Origin.dottedKey else .deeperHeader
        (within? dotted f path origin []).map (Item.table origin)
      | some (.value _) => none
      | some (.tables earlier last) =>
        (within? dotted f path .header last).map (Item.tables earlier)
      | some (.table origin inner) =>
        if dotted ∧ origin = .header then none
        else (within? dotted f path origin inner).map (Item.table origin)) entries

/-- Opens the table of a header. -/
def openTable? (path : List String) (key : String) (root : Entries) : Option Entries :=
  within? false (fun _ entries =>
    adjust? key (fun item =>
      match item with
      | none => some (.table .header [])
      | some (.table .deeperHeader entries) => some (.table .header entries)
      | some _ => none) entries) path .header root

/-- Opens a further table of the array of a header. -/
def openArrayTable? (path : List String) (key : String) (root : Entries) : Option Entries :=
  within? false (fun _ entries =>
    adjust? key (fun item =>
      match item with
      | none => some (.tables [] [])
      | some (.tables earlier last) => some (.tables (earlier ++ [.table .header last]) [])
      | some _ => none) entries) path .header root

/-- Gives a key, perhaps a dotted one, a value inside a table. -/
def define? (path : List String) (key : String) (v : Value) (table : Entries) : Option Entries :=
  within? true (fun origin entries =>
    if path ≠ [] ∧ origin ≠ .dottedKey then none
    else
      adjust? key (fun item =>
        match item with
        | none => some (.value v)
        | some _ => none) entries) path .header table

mutual
/-- The value of an item. -/
def Item.toValue : Item → Value
  | .value v => v
  | .table _ entries => .obj (entriesToMapping entries)
  | .tables earlier last => .arr (itemsToValues earlier ++ [.obj (entriesToMapping last)])

/-- The mapping of the entries of a table. -/
def entriesToMapping : List (String × Item) → List (String × Value)
  | [] => []
  | (key, item) :: rest => (key, item.toValue) :: entriesToMapping rest

/-- The values of some items. -/
def itemsToValues : List Item → List Value
  | [] => []
  | item :: rest => item.toValue :: itemsToValues rest
end

end Toml

end PageTree
