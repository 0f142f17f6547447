/-
The strings of a value.

Compiling is about the strings in a value, wherever they stand. A value that differs
from another one in its strings alone is known by what has become of these, and has no
other strings; if each has become what a function makes of it, the value is the one
with the function applied to all of them at once.

* `Value.strings`, `Value.mapStrings`: the strings of a value, and the value with all
  of them changed at once;
* `Value.Reworded.exists_of_mem`: the strings of values that differ in strings alone;
* `Value.Reworded.eq_mapStrings`: **all strings at once**.
-/
import PageTree.Proofs.DistinctKeys

namespace PageTree

namespace Value

/-! ### All strings -/

mutual

/-- The strings in a value, in tree order. -/
def strings : Value → List String
  | .str s => [s]
  | .arr items => itemStrings items
  | .obj entries => entryStrings entries
  | .null | .bool _ | .num _ => []

/-- The strings in the items of a sequence. -/
def itemStrings : List Value → List String
  | [] => []
  | v :: rest => strings v ++ itemStrings rest

/-- The strings in the values of a mapping. -/
def entryStrings : List (String × Value) → List String
  | [] => []
  | (_, v) :: rest => strings v ++ entryStrings rest

end

variable {s : String} {items : List Value} {entries : Mapping}

lemma mem_itemStrings : s ∈ itemStrings items ↔ ∃ v ∈ items, s ∈ v.strings := by
  induction items with
  | nil => simp [itemStrings]
  | cons v rest ih => simp [itemStrings, ih]

lemma mem_entryStrings : s ∈ entryStrings entries ↔ ∃ e ∈ entries, s ∈ e.2.strings := by
  induction entries with
  | nil => simp [entryStrings]
  | cons e rest ih => simp [entryStrings, ih]

/-- The string at a place is one of the strings of the value. -/
lemma mem_strings_of_at? {v : Value} {place : List Step} (h : v.at? place = some (.str s)) :
    s ∈ v.strings := by
  induction place generalizing v with
  | nil =>
    rw [at?] at h
    rw [Option.some.inj h, strings]
    exact List.mem_singleton_self s
  | cons step rest ih =>
    cases step with
    | key k =>
      cases v with
      | obj m =>
        rw [at?] at h
        obtain ⟨w, hw, h⟩ := Option.bind_eq_some_iff.mp h
        exact mem_entryStrings.mpr ⟨_, Mapping.mem_of_find? hw, ih h⟩
      | _ => simp [at?] at h
    | index i =>
      cases v with
      | arr items =>
        rw [at?] at h
        obtain ⟨w, hw, h⟩ := Option.bind_eq_some_iff.mp h
        exact mem_itemStrings.mpr ⟨w, List.mem_of_getElem? hw, ih h⟩
      | _ => simp [at?] at h

/-! ### All strings at once -/

mutual

/-- A value with a change made to every string in it. -/
def mapStrings (f : String → String) : Value → Value
  | .str s => .str (f s)
  | .arr items => .arr (mapItems f items)
  | .obj entries => .obj (mapEntries f entries)
  | .null => .null
  | .bool b => .bool b
  | .num n => .num n

/-- The items of a sequence with a change made to every string. -/
def mapItems (f : String → String) : List Value → List Value
  | [] => []
  | v :: rest => mapStrings f v :: mapItems f rest

/-- The entries of a mapping with a change made to every string in the values. -/
def mapEntries (f : String → String) : List (String × Value) → List (String × Value)
  | [] => []
  | (k, v) :: rest => (k, mapStrings f v) :: mapEntries f rest

end

variable {R S : String → String → Prop} {f g : String → String}

lemma find?_mapEntries (f : String → String) (m : Mapping) (key : String) :
    Mapping.find? (mapEntries f m) key = (Mapping.find? m key).map (mapStrings f) := by
  induction m with
  | nil => rfl
  | cons e rest ih =>
    rw [mapEntries, Mapping.find?, Mapping.find?]
    split_ifs
    · rfl
    · exact ih

mutual

theorem reworded_mapStrings :
    ∀ {v : Value}, (∀ s ∈ v.strings, R s (f s)) → Reworded R v (v.mapStrings f)
  | .null, _ | .bool _, _ | .num _, _ => rfl
  | .str s, h => ⟨f s, rfl, h s (List.mem_singleton_self s)⟩
  | .arr items, h => ⟨mapItems f items, rfl, rewordedItems_mapItems h⟩
  | .obj entries, h => ⟨mapEntries f entries, rfl, rewordedEntries_mapEntries h⟩

theorem rewordedItems_mapItems :
    ∀ {items : List Value}, (∀ s ∈ itemStrings items, R s (f s)) →
      RewordedItems R items (mapItems f items)
  | [], _ => rfl
  | _ :: _, h =>
    ⟨_, _, rfl, reworded_mapStrings fun s hs => h s (List.mem_append_left _ hs),
      rewordedItems_mapItems fun s hs => h s (List.mem_append_right _ hs)⟩

theorem rewordedEntries_mapEntries :
    ∀ {entries : Mapping}, (∀ s ∈ entryStrings entries, R s (f s)) →
      RewordedEntries R entries (mapEntries f entries)
  | [], _ => rfl
  | (_, _) :: _, h =>
    ⟨_, _, rfl, reworded_mapStrings fun s hs => h s (List.mem_append_left _ hs),
      rewordedEntries_mapEntries fun s hs => h s (List.mem_append_right _ hs)⟩

end

lemma keys_mapEntries (f : String → String) (m : Mapping) :
    Mapping.keys (mapEntries f m) = Mapping.keys m :=
  RewordedEntries.keys_eq (R := fun _ _ => True) (rewordedEntries_mapEntries fun _ _ => trivial)

mutual

/-- **All strings at once**: if each string has become what a function makes of it,
nothing else has changed. -/
theorem Reworded.eq_mapStrings :
    ∀ {v w : Value}, Reworded R v w → (∀ s ∈ v.strings, ∀ s', R s s' → s' = f s) →
      w = v.mapStrings f
  | .null, _, h, _ | .bool _, _, h, _ | .num _, _, h, _ => h
  | .str s, _, ⟨s', hw, hs⟩, h => by
    rw [hw, h s (List.mem_singleton_self s) s' hs, mapStrings]
  | .arr items, _, ⟨_, hw, hitems⟩, h => by rw [hw, hitems.eq_mapItems h, mapStrings]
  | .obj entries, _, ⟨_, hw, hentries⟩, h => by rw [hw, hentries.eq_mapEntries h, mapStrings]

theorem RewordedItems.eq_mapItems :
    ∀ {vs ws : List Value}, RewordedItems R vs ws →
      (∀ s ∈ itemStrings vs, ∀ s', R s s' → s' = f s) → ws = mapItems f vs
  | [], _, hws, _ => hws
  | v :: rest, _, ⟨_, _, hws, hv, hrest⟩, h => by
    rw [hws, hv.eq_mapStrings fun s hs => h s (List.mem_append_left _ hs),
      hrest.eq_mapItems fun s hs => h s (List.mem_append_right _ hs), mapItems]

theorem RewordedEntries.eq_mapEntries :
    ∀ {m m' : Mapping}, RewordedEntries R m m' →
      (∀ s ∈ entryStrings m, ∀ s', R s s' → s' = f s) → m' = mapEntries f m
  | [], _, hm', _ => hm'
  | (_, v) :: rest, _, ⟨_, _, hm', hv, hrest⟩, h => by
    rw [hm', hv.eq_mapStrings fun s hs => h s (List.mem_append_left _ hs),
      hrest.eq_mapEntries fun s hs => h s (List.mem_append_right _ hs), mapEntries]

end

mutual

/-- Every string of a value that differs in its strings alone comes from one of the
other value. -/
theorem Reworded.exists_of_mem :
    ∀ {v w : Value}, Reworded R v w → ∀ {s'}, s' ∈ w.strings → ∃ s ∈ v.strings, R s s'
  | .null, _, hw, _, hs | .bool _, _, hw, _, hs | .num _, _, hw, _, hs => by
    rw [hw] at hs
    exact absurd hs List.not_mem_nil
  | .str s, _, ⟨_, hw, h⟩, _, hs => by
    rw [hw, strings, List.mem_singleton] at hs
    exact ⟨s, List.mem_singleton_self s, hs ▸ h⟩
  | .arr _, _, ⟨_, hw, h⟩, _, hs => h.exists_of_mem (by rwa [hw] at hs)
  | .obj _, _, ⟨_, hw, h⟩, _, hs => h.exists_of_mem (by rwa [hw] at hs)

theorem RewordedItems.exists_of_mem :
    ∀ {vs ws : List Value}, RewordedItems R vs ws → ∀ {s'}, s' ∈ itemStrings ws →
      ∃ s ∈ itemStrings vs, R s s'
  | [], _, hws, _, hs => by
    rw [hws] at hs
    exact absurd hs List.not_mem_nil
  | _ :: _, _, ⟨_, _, hws, hv, hrest⟩, _, hs => by
    rw [hws, itemStrings, List.mem_append] at hs
    rcases hs with hs | hs
    · obtain ⟨s, hmem, h⟩ := hv.exists_of_mem hs
      exact ⟨s, List.mem_append_left _ hmem, h⟩
    · obtain ⟨s, hmem, h⟩ := hrest.exists_of_mem hs
      exact ⟨s, List.mem_append_right _ hmem, h⟩

theorem RewordedEntries.exists_of_mem :
    ∀ {m m' : Mapping}, RewordedEntries R m m' → ∀ {s'}, s' ∈ entryStrings m' →
      ∃ s ∈ entryStrings m, R s s'
  | [], _, hm', _, hs => by
    rw [hm'] at hs
    exact absurd hs List.not_mem_nil
  | (_, _) :: _, _, ⟨_, _, hm', hv, hrest⟩, _, hs => by
    rw [hm', entryStrings, List.mem_append] at hs
    rcases hs with hs | hs
    · obtain ⟨s, hmem, h⟩ := hv.exists_of_mem hs
      exact ⟨s, List.mem_append_left _ hmem, h⟩
    · obtain ⟨s, hmem, h⟩ := hrest.exists_of_mem hs
      exact ⟨s, List.mem_append_right _ hmem, h⟩

end

/-- A value whose strings all stay is the same. -/
lemma Reworded.eq {v w : Value} (h : Reworded R v w)
    (hsame : ∀ s ∈ v.strings, ∀ s', R s s' → s' = s) : w = v := by
  have hv : v = v.mapStrings id :=
    (Reworded.refl (fun s => rfl) v : Reworded Eq v v).eq_mapStrings fun s _ s' hs => hs.symm
  rw [h.eq_mapStrings (f := id) hsame, ← hv]

/-- Two changes that agree where the strings of one value have become those of the
other. -/
lemma RewordedEntries.mapEntries_eq {m m' : Mapping} (h : RewordedEntries R m m')
    (hsame : ∀ s ∈ entryStrings m, ∀ s', R s s' → g s' = f s) :
    mapEntries g m' = mapEntries f m := by
  have hg : RewordedEntries (fun s s' => s' = g s) m' (mapEntries g m') :=
    rewordedEntries_mapEntries fun _ _ => rfl
  have htrans : RewordedEntries (fun s s'' => ∃ s', R s s' ∧ s'' = g s') m (mapEntries g m') :=
    h.trans (fun s s' s'' hs hs' => ⟨s', hs, hs'⟩) hg
  refine htrans.eq_mapEntries fun s hs s'' ⟨s', hs', hs''⟩ => ?_
  rw [hs'', hsame s hs s' hs']

end Value

end PageTree
