/-
Values: the data of configuration, documents and page trees.

A value is a scalar, a sequence or a mapping. A mapping keeps its entries in
the order in which their keys first came in, and its functions, gathered in
the namespace `Mapping`, look only at the first entry of a key.

* `Number`: an integer of 64 bits, signed or unsigned, or a floating-point
  number; an integer never equals a floating-point number;
* `Value`, with decidable equality;
* `Mapping.find?`, `Mapping.insert`, `Mapping.erase`: an insertion under a
  known key keeps its place, and a removal moves the last entry into the gap;
* `Value.Same`: equality up to the order of entries.
-/
import PageTree.Double

namespace PageTree

/-! ### Numbers -/

/-- The integers that a number can hold: those of 64 bits, with or without a
sign. -/
def FitsWord (i : Int) : Prop := -9223372036854775808 ≤ i ∧ i < 18446744073709551616

instance (i : Int) : Decidable (FitsWord i) := inferInstanceAs (Decidable (_ ∧ _))

/-- Whether an integer is one of 64 bits with a sign. -/
def fitsSigned (i : Int) : Bool := -9223372036854775808 ≤ i && i < 9223372036854775808

/-- A number: an integer of 64 bits or a floating-point number. -/
inductive Number where
  | integer (i : Int) (fits : FitsWord i)
  | double (x : Double)
deriving DecidableEq

namespace Number

/-- The integer as a number, if it fits. -/
def ofInt? (i : Int) : Option Number :=
  if h : FitsWord i then some (.integer i h) else none

/-- The place of a number in the numeric order, after rounding to a
floating-point number. -/
def position : Number → Int
  | .integer i _ => Double.positionOfInt i
  | .double x => x.position

/-- Numeric equality within a kind: the two zeros are equal, an integer and a
floating-point number never. -/
def same : Number → Number → Bool
  | .integer i _, .integer j _ => i == j
  | .double x, .double y => x.position == y.position
  | _, _ => false

end Number

/-! ### Values -/

/-- A value of configuration or content. -/
inductive Value where
  | null
  | bool (b : Bool)
  | num (n : Number)
  | str (s : String)
  | arr (items : List Value)
  | obj (entries : List (String × Value))
deriving Inhabited

/-- The entries of a mapping, in order. -/
abbrev Mapping := List (String × Value)

/-! ### Mappings -/

namespace Mapping

/-- The value of a key. -/
def find? (m : Mapping) (key : String) : Option Value :=
  match m with
  | [] => none
  | (k, v) :: rest => if k = key then some v else find? rest key

/-- Gives a key a value; a known key keeps its place, a new one goes last. -/
def insert (m : Mapping) (key : String) (value : Value) : Mapping :=
  match m with
  | [] => [(key, value)]
  | (k, v) :: rest =>
    if k = key then (k, value) :: rest else (k, v) :: insert rest key value

/-- The keys in order. -/
def keys (m : Mapping) : List String := m.map Prod.fst

/-- Takes a key out; the last entry moves to its place. -/
def erase (m : Mapping) (key : String) : Mapping :=
  match m with
  | [] => []
  | (k, v) :: rest =>
    if k = key then
      match rest.getLast? with
      | none => []
      | some last => last :: rest.dropLast
    else (k, v) :: erase rest key

/-- The mapping of a list of entries, later ones being inserted after
earlier ones. -/
def ofEntries (entries : List (String × Value)) : Mapping :=
  entries.foldl (fun m e => insert m e.1 e.2) []

end Mapping

/-! ### Equality -/

namespace Value

mutual
/-- Whether two values are equal, decided along their structure. -/
def decEq : (a b : Value) → Decidable (a = b)
  | .null, .null => isTrue rfl
  | .bool a, .bool b => if h : a = b then isTrue (h ▸ rfl) else isFalse (by simp [h])
  | .num a, .num b => if h : a = b then isTrue (h ▸ rfl) else isFalse (by simp [h])
  | .str a, .str b => if h : a = b then isTrue (h ▸ rfl) else isFalse (by simp [h])
  | .arr a, .arr b =>
    match decEqItems a b with
    | isTrue h => isTrue (h ▸ rfl)
    | isFalse h => isFalse (by simp [h])
  | .obj a, .obj b =>
    match decEqEntries a b with
    | isTrue h => isTrue (h ▸ rfl)
    | isFalse h => isFalse (by simp [h])
  | .null, .bool _ | .null, .num _ | .null, .str _ | .null, .arr _ | .null, .obj _
  | .bool _, .null | .bool _, .num _ | .bool _, .str _ | .bool _, .arr _ | .bool _, .obj _
  | .num _, .null | .num _, .bool _ | .num _, .str _ | .num _, .arr _ | .num _, .obj _
  | .str _, .null | .str _, .bool _ | .str _, .num _ | .str _, .arr _ | .str _, .obj _
  | .arr _, .null | .arr _, .bool _ | .arr _, .num _ | .arr _, .str _ | .arr _, .obj _
  | .obj _, .null | .obj _, .bool _ | .obj _, .num _ | .obj _, .str _ | .obj _, .arr _ =>
    isFalse (by simp)

/-- Equality of the items of two sequences. -/
def decEqItems : (a b : List Value) → Decidable (a = b)
  | [], [] => isTrue rfl
  | a :: as, b :: bs =>
    match decEq a b, decEqItems as bs with
    | isTrue h, isTrue h' => isTrue (h ▸ h' ▸ rfl)
    | isFalse h, _ => isFalse (by simp [h])
    | _, isFalse h => isFalse (by simp [h])
  | [], _ :: _ | _ :: _, [] => isFalse (by simp)

/-- Equality of the entries of two mappings, order included. -/
def decEqEntries : (a b : List (String × Value)) → Decidable (a = b)
  | [], [] => isTrue rfl
  | (k, a) :: as, (l, b) :: bs =>
    if hk : k = l then
      match decEq a b, decEqEntries as bs with
      | isTrue h, isTrue h' => isTrue (hk ▸ h ▸ h' ▸ rfl)
      | isFalse h, _ => isFalse (by simp [h])
      | _, isFalse h => isFalse (by simp [h])
    else isFalse (by simp [hk])
  | [], _ :: _ | _ :: _, [] => isFalse (by simp)
end

instance : DecidableEq Value := decEq

mutual
/-- Equality up to the order of entries, numbers being compared by
`Number.same`. -/
def same : Value → Value → Bool
  | .null, .null => true
  | .bool a, .bool b => a == b
  | .num a, .num b => a.same b
  | .str a, .str b => a == b
  | .arr as, .arr bs => sameItems as bs
  | .obj as, .obj bs => as.length == bs.length && sameEntries as bs
  | _, _ => false

/-- Sequences are the same when they agree item by item. -/
def sameItems : List Value → List Value → Bool
  | [], [] => true
  | a :: as, b :: bs => same a b && sameItems as bs
  | _, _ => false

/-- Whether each entry of the first mapping is one of the second. -/
def sameEntries : List (String × Value) → Mapping → Bool
  | [], _ => true
  | (k, a) :: as, bs =>
    (match Mapping.find? bs k with
      | some b => same a b
      | none => false) && sameEntries as bs
end

/-! ### Views -/

/-- The entries of a mapping. -/
def asMapping? : Value → Option Mapping
  | .obj m => some m
  | _ => none

/-- The text of a string. -/
def asText? : Value → Option String
  | .str s => some s
  | _ => none

/-- The truth value of a boolean. -/
def asBool? : Value → Option Bool
  | .bool b => some b
  | _ => none

/-- The value of a key, for a mapping. -/
def member? (v : Value) (key : String) : Option Value :=
  v.asMapping?.bind (Mapping.find? · key)

/-- Strings, numbers and booleans are scalars. -/
def isScalar : Value → Bool
  | .str _ | .num _ | .bool _ => true
  | _ => false

end Value

end PageTree
