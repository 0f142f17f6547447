/-
Dot paths into values.

A path is a text whose components stand between dots. A component steps from a
mapping to the value of a key, and from a sequence to the item at an index,
written in digits with an optional plus sign. Where there is nothing to step
to, the path does not exist.

* `KeyPath.split`: the components of a path;
* `Value.lookup?`, `Mapping.lookup?`: reading along a path;
* `Value.alter`: changing the value at a path, and making the mappings on the
  way that are missing; `Value.assign` and `Value.reach` are its two uses.
-/
import PageTree.Value
import PageTree.Text.Digits

namespace PageTree

/-! ### Components -/

namespace KeyPath

/-- The parts of a text between the dots in it. -/
def splitDots : List Char → List (List Char)
  | [] => [[]]
  | c :: rest =>
    if c = '.' then [] :: splitDots rest
    else
      match splitDots rest with
      | [] => [[c]]
      | part :: parts => (c :: part) :: parts

/-- The components of a path. -/
def split (path : String) : List String := (splitDots path.toList).map String.ofList

/-- The index that a component writes, into a sequence of some length. -/
def index? (component : String) (length : Nat) : Option Nat :=
  let digits := match component.toList with
    | '+' :: rest => rest
    | rest => rest
  (Digits.numberIn? 10 digits).filter (· < length)

end KeyPath

/-! ### Reading -/

/-- The child of a value under a component. -/
def Value.child? (v : Value) (component : String) : Option Value :=
  match v with
  | .obj m => Mapping.find? m component
  | .arr items => (KeyPath.index? component items.length).bind (items[·]?)
  | _ => none

/-- The value at a path below another one. -/
def Value.lookup? (v : Value) (path : List String) : Option Value :=
  match path with
  | [] => some v
  | component :: rest => (v.child? component).bind fun w => lookup? w rest

/-- The value at a path below a mapping. The mapping itself is no value here,
so the empty path leads nowhere. -/
def Mapping.lookup? (m : Mapping) (path : List String) : Option Value :=
  match path with
  | [] => none
  | component :: rest => (Mapping.find? m component).bind (·.lookup? rest)

/-! ### Writing -/

/-- Changes the value of a key; a missing key is added with what becomes of
null. -/
def Mapping.alter (m : Mapping) (key : String) (f : Value → Value) : Mapping :=
  match m with
  | [] => [(key, f .null)]
  | (k, v) :: rest => if k = key then (k, f v) :: rest else (k, v) :: alter rest key f

/-- Changes the child of a value under a component. An index into a sequence
stays in it; anything else that is not a mapping becomes one. -/
def Value.alterChild (v : Value) (component : String) (f : Value → Value) : Value :=
  match v with
  | .obj m => .obj (Mapping.alter m component f)
  | .arr items =>
    match KeyPath.index? component items.length with
    | some i => .arr (items.modify i f)
    | none => .obj [(component, f .null)]
  | _ => .obj [(component, f .null)]

/-- Changes the value at a path. -/
def Value.alter (v : Value) (path : List String) (f : Value → Value) : Value :=
  match path with
  | [] => f v
  | component :: rest => v.alterChild component fun w => alter w rest f

/-- Puts a value at a path. -/
def Value.assign (v : Value) (path : List String) (new : Value) : Value :=
  v.alter path fun _ => new

/-- Makes a path exist, null being put where there was nothing. -/
def Value.reach (v : Value) (path : List String) : Value := v.alter path id

end PageTree
