/-
The order of documents as a preorder.

Turning the two documents around always turns their order around. That the order
is transitive rests on the values under each sort key: two numbers are compared
as numbers, and a number and any other value by their texts, and the two ways
need not agree. Among values at most one of which is a number there is only the
one way, and among numbers there is only the other; both are the order of a rank.

* `SortKey.byText`, `SortKey.byPosition`: the two ways, each a transitive order;
* `SortKey.Comparable`: values that are all compared in one way;
* `SortKey.exists_transCmp`: the order of some documents as a transitive one;
* `SortKey.compareAll_preorder`: **the order of documents**;
* `SortKey.not_compareAll_trans`: two numbers and a text that stand in a circle.
-/
import Mathlib.Tactic.Common
import PageTree.Collections.Order

namespace PageTree

namespace SortKey

open Std

/-! ### Two ways to compare values -/

/-- Whether a value is there and is a number. -/
def isNumber : Option Value → Bool
  | some (.num _) => true
  | _ => false

/-- Whether a value is there and is no number. -/
def isOther : Option Value → Bool
  | none | some (.num _) => false
  | some _ => true

/-- The order by texts, missing values being last. -/
def byText : Option Value → Option Value → Ordering :=
  compareLex (compareOn Option.isNone) (compareOn fun v => v.elim "" Value.text)

/-- The place of a number in the numeric order. -/
def positionOf : Option Value → Int
  | some (.num x) => x.position
  | _ => 0

/-- The order by places in the numeric order, missing values being last. -/
def byPosition : Option Value → Option Value → Ordering :=
  compareLex (compareOn Option.isNone) (compareOn positionOf)

instance : TransCmp byText := inferInstanceAs (TransCmp (compareLex (compareOn _) (compareOn _)))

instance : TransCmp byPosition :=
  inferInstanceAs (TransCmp (compareLex (compareOn _) (compareOn _)))

/-- With a missing value, or with one that is no number, texts are compared. -/
lemma compareValues_eq_byText {v w : Option Value} (h : isNumber v = false ∨ isNumber w = false) :
    compareValues v w = byText v w := by
  rw [compareValues.eq_def]
  split
  · rfl
  · rfl
  · rfl
  · simp [isNumber] at h
  · rfl

/-- Where every value that is there is a number, places are compared. -/
lemma compareValues_eq_byPosition {v w : Option Value} (hv : isOther v = false)
    (hw : isOther w = false) : compareValues v w = byPosition v w := by
  rw [compareValues.eq_def]
  split
  · rfl
  · rfl
  · rfl
  · rfl
  · next v w hnumbers =>
    -- a value that is there and is not other is a number
    cases v <;> simp [isOther] at hv
    cases w <;> simp [isOther] at hw
    exact absurd rfl (hnumbers _ _ rfl)

lemma isOther_of_isNumber {v : Option Value} (h : isNumber v = true) : isOther v = false := by
  rw [isNumber.eq_def] at h
  split at h
  · rfl
  · simp at h

/-! ### The other way round -/

/-- The order of two values the other way round. -/
lemma compareValues_swap (v w : Option Value) :
    compareValues w v = (compareValues v w).swap := by
  by_cases h : isNumber v = false ∨ isNumber w = false
  · rw [compareValues_eq_byText h, compareValues_eq_byText h.symm]
    exact OrientedCmp.eq_swap
  · simp only [not_or, Bool.not_eq_false] at h
    have hv := isOther_of_isNumber h.1
    have hw := isOther_of_isNumber h.2
    rw [compareValues_eq_byPosition hv hw, compareValues_eq_byPosition hw hv]
    exact OrientedCmp.eq_swap

lemma direct_swap (order : SortOrder) (o : Ordering) :
    direct order o.swap = (direct order o).swap := by
  cases order <;> rfl

/-- The order of two documents under a key, the other way round. -/
lemma compareBy_swap (key : SortKey) (a b : Mapping) :
    key.compareBy b a = (key.compareBy a b).swap := by
  rw [compareBy, compareBy, compareValues_swap, direct_swap]

/-- The order of two documents, the other way round. -/
lemma compareAll_swap (keys : List SortKey) (a b : Mapping) :
    compareAll keys b a = (compareAll keys a b).swap := by
  induction keys with
  | nil => rfl
  | cons key rest ih => rw [compareAll, compareAll, compareBy_swap, ih, Ordering.swap_then]

/-! ### Values that are compared in one way -/

/-- Whether values are all compared in one way: at most one of them is a number,
or nothing else is among them. Any of them may be missing. -/
def Comparable (vs : List (Option Value)) : Prop :=
  vs.countP isNumber ≤ 1 ∨ ∀ v ∈ vs, isOther v = false

instance (vs : List (Option Value)) : Decidable (Comparable vs) :=
  inferInstanceAs (Decidable (_ ∨ _))

/-- If at most one item has a property, two that have it are one. -/
lemma eq_of_countP_le_one {α : Type} {p : α → Bool} {l : List α} (h : l.countP p ≤ 1) {a b : α}
    (ha : a ∈ l) (hb : b ∈ l) (hpa : p a = true) (hpb : p b = true) : a = b := by
  induction l with
  | nil => simp at ha
  | cons c rest ih =>
    rcases List.mem_cons.mp ha with rfl | ha' <;> rcases List.mem_cons.mp hb with rfl | hb'
    · rfl
    · have hrest : 0 < rest.countP p := List.countP_pos_iff.mpr ⟨b, hb', hpb⟩
      rw [List.countP_cons_of_pos hpa] at h
      omega
    · have hrest : 0 < rest.countP p := List.countP_pos_iff.mpr ⟨a, ha', hpa⟩
      rw [List.countP_cons_of_pos hpb] at h
      omega
    · exact ih (Nat.le_trans (List.sublist_cons_self c rest).countP_le h) ha' hb'

/-- Values that are compared in one way are in a transitive order. -/
lemma Comparable.exists_transCmp {vs : List (Option Value)} (h : Comparable vs) :
    ∃ cmp : Option Value → Option Value → Ordering,
      TransCmp cmp ∧ ∀ v ∈ vs, ∀ w ∈ vs, compareValues v w = cmp v w := by
  rcases h with hnumbers | hothers
  · refine ⟨byText, inferInstance, fun v hv w hw => ?_⟩
    by_cases h : isNumber v = false ∨ isNumber w = false
    · exact compareValues_eq_byText h
    · simp only [not_or, Bool.not_eq_false] at h
      -- the only number among them is compared with itself
      obtain rfl : v = w := eq_of_countP_le_one hnumbers hv hw h.1 h.2
      have hother := isOther_of_isNumber h.1
      have hposition : byPosition v v = .eq := ReflCmp.compare_self
      have htext : byText v v = .eq := ReflCmp.compare_self
      rw [compareValues_eq_byPosition hother hother, hposition, htext]
  · exact ⟨byPosition, inferInstance, fun v hv w hw =>
      compareValues_eq_byPosition (hothers v hv) (hothers w hw)⟩

/-! ### Documents -/

/-- The values of some documents under a key. -/
def values (key : SortKey) (documents : List Mapping) : List (Option Value) :=
  documents.map fun document => Mapping.lookup? document (KeyPath.split key.field)

/-- A transitive order is one in both directions. -/
lemma transCmp_direct {α : Type} (order : SortOrder) {cmp : α → α → Ordering}
    (h : TransCmp cmp) : TransCmp fun a b => direct order (cmp a b) := by
  cases order with
  | ascending => exact h
  | descending =>
    have hswap : (fun a b => direct .descending (cmp a b)) = fun a b => cmp b a := by
      funext a b
      exact OrientedCmp.eq_swap.symm
    rw [hswap]
    exact TransCmp.opposite

/-- A transitive order of values under a key is one of documents. -/
lemma transCmp_under {α β : Type} (f : α → β) {cmp : β → β → Ordering} (h : TransCmp cmp) :
    TransCmp fun a b => cmp (f a) (f b) where
  eq_swap := h.eq_swap
  isLE_trans := h.isLE_trans

/-- Documents whose values under each key are compared in one way are in a
transitive order. -/
lemma exists_transCmp {keys : List SortKey} {documents : List Mapping}
    (h : ∀ key ∈ keys, Comparable (key.values documents)) :
    ∃ cmp : Mapping → Mapping → Ordering, TransCmp cmp ∧
      ∀ a ∈ documents, ∀ b ∈ documents, compareAll keys a b = cmp a b := by
  induction keys with
  | nil => exact ⟨compareOn fun _ => (0 : Nat), inferInstance, fun a _ b _ => rfl⟩
  | cons key rest ih =>
    obtain ⟨later, hlater, heqLater⟩ := ih fun k hk => h k (List.mem_cons_of_mem key hk)
    obtain ⟨first, hfirst, heqFirst⟩ := (h key List.mem_cons_self).exists_transCmp
    let value : Mapping → Option Value := fun document =>
      Mapping.lookup? document (KeyPath.split key.field)
    have hunder : TransCmp fun a b => direct key.order (first (value a) (value b)) :=
      transCmp_direct key.order (transCmp_under value hfirst)
    refine ⟨compareLex (fun a b => direct key.order (first (value a) (value b))) later,
      inferInstance, fun a ha b hb => ?_⟩
    have hvalues : compareValues (value a) (value b) = first (value a) (value b) :=
      heqFirst _ (List.mem_map_of_mem ha) _ (List.mem_map_of_mem hb)
    rw [compareAll, heqLater a ha b hb, compareBy, hvalues]
    rfl

/-- **The order of documents**: turning two documents around turns their order
around, and of three documents the first is not after the last one if it is not
after the second and that is not after the last, provided that under each key at
most one of the three has a number, or none of them has anything else. -/
theorem compareAll_preorder (keys : List SortKey) :
    (∀ a b, compareAll keys b a = (compareAll keys a b).swap) ∧
      ∀ a b c, (∀ key ∈ keys, Comparable (key.values [a, b, c])) →
        compareAll keys a b ≠ .gt → compareAll keys b c ≠ .gt → compareAll keys a c ≠ .gt := by
  refine ⟨compareAll_swap keys, fun a b c hkeys hab hbc => ?_⟩
  obtain ⟨cmp, htrans, heq⟩ := exists_transCmp hkeys
  rw [heq a (by simp) b (by simp)] at hab
  rw [heq b (by simp) c (by simp)] at hbc
  rw [heq a (by simp) c (by simp)]
  exact Ordering.isLE_iff_ne_gt.mp
    (htrans.isLE_trans (Ordering.isLE_iff_ne_gt.mpr hab) (Ordering.isLE_iff_ne_gt.mpr hbc))

/-- A document without a value, one with a text and one with a number under a
descending key, and a second key under which they differ. -/
theorem compareAll_preorder_mixed :
    let keys : List SortKey := [⟨"meta.n", .descending⟩, ⟨"title", .ascending⟩]
    let a : Mapping := [("title", .num (.integer 9 (by decide)))]
    let b : Mapping := [("meta", .obj [("n", .str "draft")]), ("title", .str "Home")]
    let c : Mapping := [("meta", .obj [("n", .num (.integer 10 (by decide)))])]
    ((∀ key ∈ keys, Comparable (key.values [a, b, c])) ∧ compareAll keys a b ≠ .gt ∧
      compareAll keys b c ≠ .gt) ∧ compareAll keys a c ≠ .gt := by
  intro keys a b c
  have hkeys : ∀ key ∈ keys, Comparable (key.values [a, b, c]) := by decide +kernel
  have hab : compareAll keys a b ≠ .gt := by decide +kernel
  have hbc : compareAll keys b c ≠ .gt := by decide +kernel
  exact ⟨⟨hkeys, hab, hbc⟩, (compareAll_preorder keys).2 a b c hkeys hab hbc⟩

/-- The order of documents is not transitive: the number 10 is before the text
`5` and this before the number 9, as their texts tell, but 10 is after 9. -/
theorem not_compareAll_trans :
    ¬ ∀ (keys : List SortKey) (a b c : Mapping), compareAll keys a b ≠ .gt →
      compareAll keys b c ≠ .gt → compareAll keys a c ≠ .gt := by
  intro h
  have hcircle := h [⟨"n", .ascending⟩] [("n", .num (.integer 10 (by decide)))]
    [("n", .str "5")] [("n", .num (.integer 9 (by decide)))] (by decide +kernel) (by decide +kernel)
  exact hcircle (by decide +kernel)

end SortKey

end PageTree
