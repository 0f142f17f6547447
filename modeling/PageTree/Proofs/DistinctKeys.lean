/-
Mappings with distinct keys.

The functions of mappings look at the first entry of a key, so a mapping is known by
them only if no key has a second entry. Reading never makes such an entry, and no
change of a configuration brings one in: insertions keep the entry that is there, and
compiling leaves all keys as they are.

* `Value.ind`: induction over values;
* `Mapping.find?_insert`, `Mapping.find?_eq_some_iff`: keys and their values;
* `Value.Distinct`: no mapping in a value has two entries of one key;
* `Value.DistinctEntries.insert`, `Value.Reworded.distinct`: insertions, and other
  strings in the place of strings.
-/
import PageTree.Proofs.Compiling

namespace PageTree

/-- Induction over values: a property holds of every value if it holds of scalars and
null and is inherited from items and entries. -/
@[elab_as_elim]
theorem Value.ind {P : Value → Prop} (null : P .null) (bool : ∀ b, P (.bool b))
    (num : ∀ n, P (.num n)) (str : ∀ s, P (.str s))
    (arr : ∀ items, (∀ v ∈ items, P v) → P (.arr items))
    (obj : ∀ entries : Mapping, (∀ e ∈ entries, P e.2) → P (.obj entries)) (v : Value) : P v :=
  Value.rec (motive_1 := P) (motive_2 := fun items => ∀ v ∈ items, P v)
    (motive_3 := fun entries => ∀ e ∈ entries, P e.2) (motive_4 := fun e => P e.2)
    null bool num str (fun items ih => arr items ih) (fun entries ih => obj entries ih)
    (fun _ hv => absurd hv List.not_mem_nil)
    (fun _ _ hv hrest => List.forall_mem_cons.mpr ⟨hv, hrest⟩)
    (fun _ he => absurd he List.not_mem_nil)
    (fun _ _ he hrest => List.forall_mem_cons.mpr ⟨he, hrest⟩)
    (fun _ _ hv => hv) v

/-! ### Keys and their values -/

namespace Mapping

variable {m : Mapping} {key : String} {v : Value}

lemma keys_cons (e : String × Value) (rest : Mapping) : keys (e :: rest) = e.1 :: keys rest := rfl

lemma mem_of_find? (h : find? m key = some v) : (key, v) ∈ m := by
  induction m with
  | nil => simp [find?] at h
  | cons e rest ih =>
    rw [find?] at h
    split_ifs at h with hkey
    · rw [← hkey, ← Option.some.inj h]
      exact List.mem_cons_self
    · exact List.mem_cons_of_mem e (ih h)

/-- A key has no value if it has no entry. -/
lemma find?_eq_none_iff : find? m key = none ↔ key ∉ keys m := by
  induction m with
  | nil => simp [find?, keys]
  | cons e rest ih =>
    rw [find?, keys_cons, List.mem_cons, not_or, ← ih]
    by_cases hkey : e.1 = key
    · simp [hkey]
    · rw [if_neg hkey]
      exact ⟨fun h => ⟨Ne.symm hkey, h⟩, And.right⟩

/-- The value of a key is that of its entry, if keys are distinct. -/
lemma find?_eq_some_iff (hm : (keys m).Nodup) : find? m key = some v ↔ (key, v) ∈ m := by
  refine ⟨mem_of_find?, fun h => ?_⟩
  induction m with
  | nil => simp at h
  | cons e rest ih =>
    rw [keys_cons, List.nodup_cons] at hm
    rw [find?]
    rcases List.mem_cons.mp h with rfl | h
    · exact if_pos rfl
    · have hne : e.1 ≠ key := by
        rintro rfl
        exact hm.1 (List.mem_map.mpr ⟨_, h, rfl⟩)
      rw [if_neg hne, ih hm.2 h]

/-- The value of a key after an insertion. -/
lemma find?_insert (m : Mapping) (key other : String) (v : Value) :
    find? (insert m key v) other = if key = other then some v else find? m other := by
  induction m with
  | nil => simp [insert, find?]
  | cons e rest ih =>
    rw [insert]
    by_cases hkey : e.1 = key
    · rw [if_pos hkey, find?, find?, hkey]
      by_cases hother : key = other <;> simp [hother]
    · rw [if_neg hkey, find?, find?, ih]
      by_cases hother : e.1 = other
      · rw [if_pos hother, if_pos hother, if_neg fun h => hkey (hother.trans h.symm)]
      · rw [if_neg hother, if_neg hother]

/-- The keys after an insertion. -/
lemma mem_keys_insert {other : String} :
    other ∈ keys (insert m key v) ↔ other = key ∨ other ∈ keys m := by
  rw [← not_iff_not, ← find?_eq_none_iff, find?_insert, not_or, ← find?_eq_none_iff]
  by_cases hother : key = other
  · simp [hother]
  · rw [if_neg hother]
    exact ⟨fun h => ⟨Ne.symm hother, h⟩, And.right⟩

lemma nodup_keys_insert (hm : (keys m).Nodup) : (keys (insert m key v)).Nodup := by
  induction m with
  | nil => simp [insert, keys]
  | cons e rest ih =>
    rw [keys_cons, List.nodup_cons] at hm
    rw [insert]
    split_ifs with hkey
    · rw [keys_cons, List.nodup_cons]
      exact hkey ▸ hm
    · rw [keys_cons, List.nodup_cons, mem_keys_insert, not_or]
      exact ⟨⟨hkey, hm.1⟩, ih hm.2⟩

/-- The entries after an insertion. -/
lemma mem_insert {e : String × Value} (h : e ∈ insert m key v) : e = (key, v) ∨ e ∈ m := by
  induction m with
  | nil => simpa [insert] using h
  | cons d rest ih =>
    rw [insert] at h
    split_ifs at h with hkey
    · rcases List.mem_cons.mp h with rfl | h
      · exact .inl (by rw [hkey])
      · exact .inr (List.mem_cons_of_mem d h)
    · rcases List.mem_cons.mp h with rfl | h
      · exact .inr List.mem_cons_self
      · exact (ih h).imp_right (List.mem_cons_of_mem d)

end Mapping

/-! ### Distinct keys -/

namespace Value

mutual

/-- Whether no mapping in a value has two entries of one key. -/
def Distinct : Value → Prop
  | .arr items => DistinctItems items
  | .obj entries => DistinctEntries entries
  | .null | .bool _ | .num _ | .str _ => True

/-- Whether no mapping in the items of a sequence has two entries of one key. -/
def DistinctItems : List Value → Prop
  | [] => True
  | v :: rest => Distinct v ∧ DistinctItems rest

/-- Whether neither some entries nor the mappings in their values have two entries of
one key. -/
def DistinctEntries : List (String × Value) → Prop
  | [] => True
  | (k, v) :: rest => k ∉ Mapping.keys rest ∧ Distinct v ∧ DistinctEntries rest

end

mutual

/-- Whether keys are distinct, decided along the value. -/
def decDistinct : (v : Value) → Decidable v.Distinct
  | .arr items => decDistinctItems items
  | .obj entries => decDistinctEntries entries
  | .null | .bool _ | .num _ | .str _ => isTrue trivial

/-- Whether keys are distinct in the items of a sequence. -/
def decDistinctItems : (items : List Value) → Decidable (DistinctItems items)
  | [] => isTrue trivial
  | v :: rest => @instDecidableAnd _ _ (decDistinct v) (decDistinctItems rest)

/-- Whether keys are distinct among and in some entries. -/
def decDistinctEntries : (entries : List (String × Value)) → Decidable (DistinctEntries entries)
  | [] => isTrue trivial
  | (_, v) :: rest =>
    @instDecidableAnd _ _ inferInstance
      (@instDecidableAnd _ _ (decDistinct v) (decDistinctEntries rest))

end

instance (v : Value) : Decidable v.Distinct := decDistinct v

instance (entries : List (String × Value)) : Decidable (DistinctEntries entries) :=
  decDistinctEntries entries

variable {items : List Value} {m : Mapping}

lemma distinctItems_iff : DistinctItems items ↔ ∀ v ∈ items, v.Distinct := by
  induction items with
  | nil => simp [DistinctItems]
  | cons v rest ih => simp [DistinctItems, ih]

lemma distinctEntries_iff :
    DistinctEntries m ↔ (Mapping.keys m).Nodup ∧ ∀ e ∈ m, e.2.Distinct := by
  induction m with
  | nil => simp [DistinctEntries, Mapping.keys]
  | cons e rest ih =>
    rw [DistinctEntries, ih, Mapping.keys_cons, List.nodup_cons, List.forall_mem_cons]
    exact ⟨fun h => ⟨⟨h.1, h.2.2.1⟩, h.2.1, h.2.2.2⟩, fun h => ⟨h.1.1, h.2.1, h.1.2, h.2.2⟩⟩

lemma DistinctEntries.nodup (h : DistinctEntries m) : (Mapping.keys m).Nodup :=
  (distinctEntries_iff.mp h).1

lemma DistinctEntries.of_find? (h : DistinctEntries m) {key : String} {v : Value}
    (hv : Mapping.find? m key = some v) : v.Distinct :=
  (distinctEntries_iff.mp h).2 _ (Mapping.mem_of_find? hv)

lemma DistinctEntries.insert (h : DistinctEntries m) {v : Value} (hv : v.Distinct) (key : String) :
    DistinctEntries (Mapping.insert m key v) := by
  rw [distinctEntries_iff] at h ⊢
  refine ⟨Mapping.nodup_keys_insert h.1, fun e he => ?_⟩
  rcases Mapping.mem_insert he with rfl | he
  · exact hv
  · exact h.2 e he

variable {R : String → String → Prop}

lemma RewordedEntries.keys_eq {m' : Mapping} (h : RewordedEntries R m m') :
    Mapping.keys m' = Mapping.keys m := by
  induction m generalizing m' with
  | nil =>
    cases h
    rfl
  | cons e rest ih =>
    obtain ⟨w, rest', rfl, -, hrest⟩ := h
    rw [Mapping.keys_cons, Mapping.keys_cons, ih hrest]

mutual

/-- Other strings in the place of strings leave the keys as they are. -/
theorem Reworded.distinct : ∀ {v w : Value}, Reworded R v w → v.Distinct → w.Distinct
  | .null, _, hw, _ | .bool _, _, hw, _ | .num _, _, hw, _ => hw ▸ trivial
  | .str _, _, ⟨_, hw, _⟩, _ => hw ▸ trivial
  | .arr _, _, ⟨_, hw, h⟩, hv => hw ▸ h.distinct hv
  | .obj _, _, ⟨_, hw, h⟩, hv => hw ▸ h.distinct hv

theorem RewordedItems.distinct :
    ∀ {vs ws : List Value}, RewordedItems R vs ws → DistinctItems vs → DistinctItems ws
  | [], _, hws, _ => hws ▸ trivial
  | _ :: _, _, ⟨_, _, hws, hv, hrest⟩, h => hws ▸ ⟨hv.distinct h.1, hrest.distinct h.2⟩

theorem RewordedEntries.distinct :
    ∀ {m m' : Mapping}, RewordedEntries R m m' → DistinctEntries m → DistinctEntries m'
  | [], _, hm', _ => hm' ▸ trivial
  | (_, _) :: _, _, ⟨_, _, hm', hv, hrest⟩, h =>
    hm' ▸ ⟨hrest.keys_eq ▸ h.1, hv.distinct h.2.1, hrest.distinct h.2.2⟩

end

end Value

end PageTree
