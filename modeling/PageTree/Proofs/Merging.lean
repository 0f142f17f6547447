/-
Merged mappings.

What a key holds after one mapping is laid over another is told by what it holds in the
two, so merging goes along with everything that is said key by key: keys stay distinct,
no string comes in that was in neither mapping, and strings may be changed before or
after. Keys that are paths become mappings with one entry at each level, and these are
merged in turn.

* `Mapping.find?_mergeEntries`: the value of a key in merged mappings;
* `Value.DistinctEntries.mergeEntries`, `Value.forall_strings_mergeEntries`,
  `Value.RewordedEntries.mergeEntries`: keys, strings, and other strings in their place;
* `Mapping.merge_nil`: a mapping laid over nothing;
* `Value.obj_ofPath`: an entry whose key is a path;
* `Value.DistinctEntries.expand`, `Value.forall_strings_expand`: the same for keys that
  are paths.
-/
import PageTree.Config.Merge
import PageTree.Proofs.Assigning
import PageTree.Proofs.Strings

namespace PageTree

/-! ### Keys of merged mappings -/

namespace Mapping

/-- What a value that is laid over nothing becomes. -/
lemma overlay_none (v : Value) : Value.overlay none v = v := by
  cases v <;> rfl

/-- The value of a key in merged mappings. -/
lemma find?_mergeEntries {upper : Mapping} (hupper : (keys upper).Nodup) (m : Mapping)
    (key : String) :
    find? (mergeEntries m upper) key =
      match find? upper key with
      | some v => some (Value.overlay (find? m key) v)
      | none => find? m key := by
  induction upper generalizing m with
  | nil => rfl
  | cons e rest ih =>
    rw [keys_cons, List.nodup_cons] at hupper
    rw [mergeEntries, ih hupper.2, find?_insert, find?]
    by_cases hkey : e.1 = key
    · -- the key has no second entry
      rw [if_pos hkey, if_pos hkey, find?_eq_none_iff.mpr (hkey ▸ hupper.1), hkey]
    · rw [if_neg hkey, if_neg hkey]

lemma insert_of_notMem {m : Mapping} {key : String} (h : key ∉ keys m) (v : Value) :
    insert m key v = m ++ [(key, v)] := by
  induction m with
  | nil => rfl
  | cons e rest ih =>
    rw [keys_cons, List.mem_cons, not_or] at h
    rw [insert, if_neg (Ne.symm h.1), ih h.2, List.cons_append]

/-- Entries with new keys go last, in their order. -/
lemma mergeEntries_eq_append {upper : Mapping} (hupper : (keys upper).Nodup) {m : Mapping}
    (hnew : ∀ key ∈ keys upper, key ∉ keys m) : mergeEntries m upper = m ++ upper := by
  induction upper generalizing m with
  | nil => rw [mergeEntries, List.append_nil]
  | cons e rest ih =>
    rw [keys_cons, List.nodup_cons] at hupper
    rw [keys_cons, List.forall_mem_cons] at hnew
    have hlater : ∀ key ∈ keys rest, key ∉ keys (insert m e.1 e.2) := by
      intro key hkey hmem
      rcases mem_keys_insert.mp hmem with rfl | hmem
      · exact hupper.1 hkey
      · exact hnew.2 key hkey hmem
    rw [mergeEntries, find?_eq_none_iff.mpr hnew.1, overlay_none, ih hupper.2 hlater,
      insert_of_notMem hnew.1, List.append_assoc, List.singleton_append]

/-- A mapping laid over nothing. -/
lemma merge_nil {m : Mapping} (hm : (keys m).Nodup) : merge [] m = m := by
  rw [merge, mergeEntries_eq_append hm fun _ _ => List.not_mem_nil, List.nil_append]

end Mapping

/-! ### Keys without dots -/

namespace KeyPath

/-- A text with one part between dots has no dots. -/
lemma splitDots_eq_singleton {cs part : List Char} (h : splitDots cs = [part]) : part = cs := by
  induction cs generalizing part with
  | nil => exact (List.cons.inj h).1.symm
  | cons c rest ih =>
    rw [splitDots] at h
    split_ifs at h with hdot
    · exact absurd (List.cons.inj h).2 (splitDots_ne_nil rest)
    · cases hrest : splitDots rest with
      | nil => exact absurd hrest (splitDots_ne_nil rest)
      | cons first parts =>
        rw [hrest] at h
        obtain ⟨rfl, rfl⟩ := List.cons.inj h
        rw [ih hrest]

/-- A path of one component is this component. -/
lemma eq_of_split_eq_singleton {path component : String} (h : split path = [component]) :
    component = path := by
  obtain ⟨part, hpart, rfl⟩ := List.map_eq_singleton_iff.mp h
  rw [splitDots_eq_singleton hpart, String.ofList_toList]

end KeyPath

namespace Value

/-! ### What merging keeps -/

mutual

theorem Distinct.overlay : ∀ {v : Value} {under : Option Value}, v.Distinct →
    (∀ u ∈ under, u.Distinct) → (overlay under v).Distinct
  | .null, _, hv, _ | .bool _, _, hv, _ | .num _, _, hv, _ | .str _, _, hv, _
  | .arr _, _, hv, _ => hv
  | .obj _, none, hv, _ | .obj _, some .null, hv, _ | .obj _, some (.bool _), hv, _
  | .obj _, some (.num _), hv, _ | .obj _, some (.str _), hv, _
  | .obj _, some (.arr _), hv, _ => hv
  | .obj _, some (.obj _), hv, hunder => DistinctEntries.mergeEntries hv (hunder _ rfl)

/-- Merging keeps keys distinct. -/
theorem DistinctEntries.mergeEntries : ∀ {upper m : Mapping}, DistinctEntries upper →
    DistinctEntries m → DistinctEntries (Mapping.mergeEntries m upper)
  | [], _, _, hm => hm
  | (k, _) :: _, _, hupper, hm =>
    hupper.2.2.mergeEntries
      (hm.insert (hupper.2.1.overlay fun _ hu => hm.of_find? hu) k)

end

variable {P : String → Prop}

lemma forall_strings_insert {m : Mapping} {v : Value} (hm : ∀ s ∈ entryStrings m, P s)
    (hv : ∀ s ∈ v.strings, P s) (key : String) :
    ∀ s ∈ entryStrings (Mapping.insert m key v), P s := by
  intro s hs
  obtain ⟨e, he, hs⟩ := mem_entryStrings.mp hs
  rcases Mapping.mem_insert he with rfl | he
  · exact hv s hs
  · exact hm s (mem_entryStrings.mpr ⟨e, he, hs⟩)

mutual

theorem forall_strings_overlay : ∀ {v : Value} {under : Option Value},
    (∀ s ∈ v.strings, P s) → (∀ u ∈ under, ∀ s ∈ u.strings, P s) →
      ∀ s ∈ (overlay under v).strings, P s
  | .null, _, hv, _ | .bool _, _, hv, _ | .num _, _, hv, _ | .str _, _, hv, _
  | .arr _, _, hv, _ => hv
  | .obj _, none, hv, _ | .obj _, some .null, hv, _ | .obj _, some (.bool _), hv, _
  | .obj _, some (.num _), hv, _ | .obj _, some (.str _), hv, _
  | .obj _, some (.arr _), hv, _ => hv
  | .obj _, some (.obj _), hv, hunder => forall_strings_mergeEntries hv (hunder _ rfl)

/-- Merging brings in no strings. -/
theorem forall_strings_mergeEntries : ∀ {upper m : Mapping},
    (∀ s ∈ entryStrings upper, P s) → (∀ s ∈ entryStrings m, P s) →
      ∀ s ∈ entryStrings (Mapping.mergeEntries m upper), P s
  | [], _, _, hm => hm
  | (k, v) :: rest, m, hupper, hm => by
    have hv : ∀ s ∈ v.strings, P s := fun s hs => hupper s (List.mem_append_left _ hs)
    have hrest : ∀ s ∈ entryStrings rest, P s := fun s hs => hupper s (List.mem_append_right _ hs)
    have hunder : ∀ u ∈ Mapping.find? m k, ∀ s ∈ u.strings, P s := fun u hu s hs =>
      hm s (mem_entryStrings.mpr ⟨_, Mapping.mem_of_find? hu, hs⟩)
    rw [Mapping.mergeEntries]
    exact forall_strings_mergeEntries hrest
      (forall_strings_insert hm (forall_strings_overlay hv hunder) k)

end

variable {R : String → String → Prop}

mutual

theorem Reworded.overlay : ∀ {v v' : Value} {under under' : Option Value}, Reworded R v v' →
    Option.Rel (Reworded R) under under' → Reworded R (overlay under v) (overlay under' v')
  | .null, _, _, _, hv, _ | .bool _, _, _, _, hv, _ | .num _, _, _, _, hv, _ => by
    cases hv
    rfl
  | .str _, _, _, _, hv, _ => by
    obtain ⟨_, rfl, hs⟩ := hv
    exact ⟨_, rfl, hs⟩
  | .arr _, _, _, _, hv, _ => by
    obtain ⟨_, rfl, hitems⟩ := hv
    exact ⟨_, rfl, hitems⟩
  | .obj _, _, _, _, ⟨_, hv', hupper⟩, .none => by
    subst hv'
    exact ⟨_, rfl, hupper⟩
  | .obj _, _, some u, _, ⟨_, hv', hupper⟩, .some hu => by
    subst hv'
    cases u with
    | obj m =>
      obtain ⟨m', rfl, hm⟩ := hu
      exact ⟨_, rfl, hupper.mergeEntries hm⟩
    | str _ | arr _ =>
      obtain ⟨_, rfl, -⟩ := hu
      exact ⟨_, rfl, hupper⟩
    | null | bool _ | num _ =>
      cases hu
      exact ⟨_, rfl, hupper⟩

/-- Mappings that differ in their strings alone do so when they are merged. -/
theorem RewordedEntries.mergeEntries : ∀ {upper upper' m m' : Mapping},
    RewordedEntries R upper upper' → RewordedEntries R m m' →
      RewordedEntries R (Mapping.mergeEntries m upper) (Mapping.mergeEntries m' upper')
  | [], _, _, _, hupper, hm => by
    cases hupper
    exact hm
  | (k, v) :: rest, _, _, _, ⟨_, _, hupper', hv, hrest⟩, hm => by
    subst hupper'
    exact hrest.mergeEntries (hm.insert (hv.overlay (hm.find? k)) k)

end

/-! ### Keys that are paths -/

variable {v : Value} {path : List String}

/-- A value at a path below nothing. -/
lemma assign_null (first : String) (rest : List String) (v : Value) :
    null.assign (first :: rest) v = .obj [(first, null.assign rest v)] := rfl

lemma strings_assign_null : (null.assign path v).strings = v.strings := by
  induction path with
  | nil => rfl
  | cons first rest ih =>
    rw [assign_null, strings, entryStrings, entryStrings, List.append_nil, ih]

lemma Distinct.assign_null (hv : v.Distinct) : (null.assign path v).Distinct := by
  induction path with
  | nil => exact hv
  | cons first rest ih => exact ⟨List.not_mem_nil, ih, trivial⟩

/-- An entry as a mapping is its value put at the path of its key below nothing. -/
lemma obj_ofPath (key : String) (v : Value) :
    Value.obj (Mapping.ofPath key v) = null.assign (KeyPath.split key) v := by
  obtain ⟨first, rest, hsplit⟩ := List.exists_cons_of_ne_nil (KeyPath.split_ne_nil key)
  rw [Mapping.ofPath, hsplit]
  cases rest with
  | nil =>
    rw [KeyPath.eq_of_split_eq_singleton hsplit]
    rfl
  | cons next rest => rfl

/-- The keys of an entry as a mapping are distinct. -/
lemma Distinct.ofPath (hv : v.Distinct) (key : String) :
    DistinctEntries (Mapping.ofPath key v) := by
  have hd : (Value.obj (Mapping.ofPath key v)).Distinct := obj_ofPath key v ▸ hv.assign_null
  exact hd

lemma entryStrings_ofPath (key : String) (v : Value) :
    entryStrings (Mapping.ofPath key v) = v.strings := by
  have hstrings : (null.assign (KeyPath.split key) v).strings = v.strings := strings_assign_null
  rwa [← obj_ofPath, strings] at hstrings

/-- What holds of nothing and stays when an entry is merged in holds of a mapping with
its keys expanded. -/
lemma expand_induction {Q : Mapping → Prop} (hnil : Q []) {m : Mapping}
    (hmerge : ∀ e ∈ m, ∀ expanded, Q expanded →
      Q (Mapping.merge expanded (Mapping.ofPath e.1 e.2))) : Q (Mapping.expand m) := by
  rw [Mapping.expand]
  refine List.foldlRecOn m _ hnil fun expanded hexpanded e he => ?_
  exact hmerge e he expanded hexpanded

/-- Expanding keeps keys distinct. -/
lemma DistinctEntries.expand {m : Mapping} (hm : DistinctEntries m) :
    DistinctEntries (Mapping.expand m) := by
  refine expand_induction trivial fun e he expanded hexpanded => ?_
  have hv : e.2.Distinct := (distinctEntries_iff.mp hm).2 e he
  exact (hv.ofPath e.1).mergeEntries hexpanded

/-- Expanding brings in no strings. -/
lemma forall_strings_expand {m : Mapping} (hm : ∀ s ∈ entryStrings m, P s) :
    ∀ s ∈ entryStrings (Mapping.expand m), P s := by
  refine expand_induction (Q := fun m => ∀ s ∈ entryStrings m, P s)
    (fun _ hs => absurd hs List.not_mem_nil) fun e he expanded hexpanded => ?_
  refine forall_strings_mergeEntries (fun s hs => ?_) hexpanded
  rw [entryStrings_ofPath] at hs
  exact hm s (mem_entryStrings.mpr ⟨e, he, hs⟩)

end Value

end PageTree
