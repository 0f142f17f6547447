/-
Keys that are paths.

The keys at the top level of a mapping are paths, and expanding it puts each value at the
path of its key, one entry being merged in after the other. If no key is part of another
one as a path, no value is put where another one is, or above or below it, so all of them
are found in the end, nothing else is, and it makes no difference in which order the
entries came.

* `Mapping.held?_ofPath`, `Mapping.prefix_of_held?_ofPath`: one entry as a mapping;
* `Mapping.Unnested`: keys none of which is part of another one;
* `Mapping.IsExpansion`: a mapping that holds the values at the paths of their keys, and
  nothing else;
* `Mapping.IsExpansion.concat`: one entry more;
* `Mapping.IsExpansion.alike`: **one expansion** of a mapping, up to the order of keys;
* `Mapping.isExpansion_expand`: **expanding** a mapping.
-/
import Mathlib.Data.List.Induction
import PageTree.Proofs.MergedLeaves

namespace PageTree

/-! ### One entry -/

namespace Value

variable {v w : Value} {path : List String} {place : List Step}

/-- What is below the path of a value that is put below nothing. -/
lemma at?_assign_null (path : List String) (v : Value) (place : List Step) :
    (null.assign path v).at? (path.map .key ++ place) = v.at? place := by
  induction path with
  | nil => rfl
  | cons first rest ih =>
    rw [assign_null, List.map_cons, List.cons_append, at?, Mapping.find?, if_pos rfl,
      Option.bind_some, ih]

/-- Below nothing, a value puts nothing but what is above and below its path. -/
lemma prefix_of_at?_assign_null (h : (null.assign path v).at? place = some w) :
    place <+: path.map .key ∨ path.map .key <+: place := by
  induction path generalizing place with
  | nil => exact .inr List.nil_prefix
  | cons first rest ih =>
    rw [assign_null] at h
    cases place with
    | nil => exact .inl List.nil_prefix
    | cons step place =>
      cases step with
      | index i => cases h
      | key k =>
        rw [at?, Mapping.find?] at h
        split_ifs at h with hk
        · rw [List.map_cons, List.cons_prefix_cons, List.cons_prefix_cons, ← hk]
          exact (ih h).imp (⟨rfl, ·⟩) (⟨rfl, ·⟩)
        · cases h

end Value

namespace Mapping

open Value

variable {data data' m m' : Mapping} {e : String × Value} {path : List String} {v w : Value}

/-- The value of an entry is found at the path of its key. -/
lemma held?_ofPath (key : String) (v : Value) :
    (ofPath key v).held? (KeyPath.split key) = some v := by
  have hat := at?_assign_null (KeyPath.split key) v []
  rw [List.append_nil, ← obj_ofPath] at hat
  rw [held?, hat]
  rfl

/-- An entry holds nothing but what is above and below the path of its key. -/
lemma prefix_of_held?_ofPath {key : String} (h : (ofPath key v).held? path = some w) :
    path <+: KeyPath.split key ∨ KeyPath.split key <+: path := by
  rw [held?, obj_ofPath] at h
  have hinj : Function.Injective Step.key := fun _ _ => Step.key.inj
  rw [← List.prefix_map_iff_of_injective hinj, ← List.prefix_map_iff_of_injective hinj]
  exact prefix_of_at?_assign_null h

/-- On the way to something there are mappings. -/
lemma exists_obj_of_held? {before : List String} (h : m.held? path = some v)
    (hpre : before <+: path) (hne : before ≠ path) :
    ∃ below, m.held? before = some (.obj below) := by
  obtain ⟨rest, rfl⟩ := hpre
  obtain ⟨key, rest, rfl⟩ := List.exists_cons_of_ne_nil
    (show rest ≠ [] by rintro rfl; exact hne (List.append_nil before).symm)
  rw [held?, List.map_append, at?_append] at h
  obtain ⟨u, hu, h⟩ := Option.bind_eq_some_iff.mp h
  obtain ⟨below, -, rfl, -⟩ := exists_of_at?_key h
  exact ⟨below, hu⟩

/-- Nothing bars the way to a path in an entry, if the key is no part of it. -/
lemma not_bars_ofPath {key : String} (h : ¬ KeyPath.split key <+: path) :
    ¬ (ofPath key v).Bars path := by
  rintro ⟨before, u, hpre, -, hheld, hu⟩
  by_cases hbelow : KeyPath.split key <+: before
  · exact h (hbelow.trans hpre)
  · have habove := (prefix_of_held?_ofPath hheld).resolve_right hbelow
    have hne : before ≠ KeyPath.split key := fun heq => hbelow (heq ▸ List.prefix_refl _)
    obtain ⟨below, hobj⟩ := exists_obj_of_held? (held?_ofPath key v) habove hne
    rw [hobj] at hheld
    exact hu ⟨below, (Option.some.inj hheld).symm⟩

/-! ### All entries -/

/-- Whether no key is part of another one, both taken as paths. -/
def Unnested (data : Mapping) : Prop :=
  ∀ a ∈ keys data, ∀ b ∈ keys data, a ≠ b → ¬ KeyPath.split a <+: KeyPath.split b

instance (data : Mapping) : Decidable data.Unnested := List.decidableBAll _ _

/-- What it is for a mapping to be another one with its keys taken as paths. -/
structure IsExpansion (data expanded : Mapping) : Prop where
  /-- At the path of each key stands the value of the key. -/
  holds : ∀ e ∈ data, expanded.held? (KeyPath.split e.1) = some e.2
  /-- Every place is on the way to the path of a key, or is this path, or is below it. -/
  only : ∀ place w, place ≠ [] → (Value.obj expanded).at? place = some w →
    ∃ key ∈ keys data, place <+: (KeyPath.split key).map .key ∨
      (KeyPath.split key).map .key <+: place

namespace IsExpansion

lemma nil : IsExpansion [] [] where
  holds := fun _ he => absurd he List.not_mem_nil
  only := fun place _ hne h => by
    cases place with
    | nil => exact absurd rfl hne
    | cons step rest => cases step <;> cases h

/-- What a list of keys leads to is on the way to the path of a key, or below it. -/
lemma prefix_of_held? (h : IsExpansion data m) (hpath : path ≠ []) (hw : m.held? path = some w) :
    ∃ e ∈ data, path <+: KeyPath.split e.1 ∨ KeyPath.split e.1 <+: path := by
  obtain ⟨key, hkey, hpre⟩ := h.only _ w (by simpa using hpath) hw
  obtain ⟨e, he, rfl⟩ := List.mem_map.mp hkey
  have hinj : Function.Injective Step.key := fun _ _ => Step.key.inj
  rw [List.prefix_map_iff_of_injective hinj, List.prefix_map_iff_of_injective hinj] at hpre
  exact ⟨e, he, hpre⟩

/-- **One entry more** is merged in, if its key and no other one is part of the other. -/
theorem concat (h : IsExpansion data m) (he : e.2.Distinct)
    (hnew : ∀ key ∈ keys data, ¬ KeyPath.split key <+: KeyPath.split e.1 ∧
      ¬ KeyPath.split e.1 <+: KeyPath.split key) :
    IsExpansion (data ++ [e]) (merge m (ofPath e.1 e.2)) where
  holds := by
    have hd : DistinctEntries (ofPath e.1 e.2) := he.ofPath e.1
    intro d hmem
    rw [held?_merge hd]
    rcases List.mem_append.mp hmem with hmem | hmem
    · -- the entry does not touch what is there
      obtain ⟨hnot, hnot'⟩ := hnew d.1 (List.mem_map_of_mem hmem)
      have hnone : (ofPath e.1 e.2).held? (KeyPath.split d.1) = none := by
        refine Option.eq_none_iff_forall_ne_some.mpr fun w hw => ?_
        exact (prefix_of_held?_ofPath hw).elim hnot hnot'
      rw [hnone]
      exact (if_neg (not_bars_ofPath hnot')).trans (h.holds d hmem)
    · -- there was nothing at its path
      obtain rfl := List.mem_singleton.mp hmem
      have hnone : m.held? (KeyPath.split d.1) = none := by
        refine Option.eq_none_iff_forall_ne_some.mpr fun w hw => ?_
        obtain ⟨d', hd', hpre⟩ := h.prefix_of_held? (KeyPath.split_ne_nil d.1) hw
        obtain ⟨hnot, hnot'⟩ := hnew d'.1 (List.mem_map_of_mem hd')
        exact hpre.elim hnot' hnot
      rw [held?_ofPath, hnone]
      exact congrArg some (overlay_none d.2)
  only := by
    intro place w hne hw
    have hd : DistinctEntries (ofPath e.1 e.2) := he.ofPath e.1
    rcases exists_of_at?_merge hd hne hw with ⟨u, hu⟩ | ⟨u, hu⟩
    · obtain ⟨key, hkey, hpre⟩ := h.only place u hne hu
      refine ⟨key, ?_, hpre⟩
      rw [keys, List.map_append]
      exact List.mem_append_left _ hkey
    · rw [obj_ofPath] at hu
      refine ⟨e.1, ?_, prefix_of_at?_assign_null hu⟩
      rw [keys, List.map_append]
      exact List.mem_append_right _ (List.mem_singleton_self _)

/-- A list of keys leads to the same leaf in two expansions. -/
lemma exists_sameLeaf (h : IsExpansion data m) (h' : IsExpansion data' m') (hsub : data ⊆ data')
    (hw : m.held? path = some w) : ∃ w', m'.held? path = some w' ∧ SameLeaf w w' := by
  by_cases hpath : path = []
  · subst hpath
    obtain rfl := Option.some.inj hw
    exact ⟨_, rfl, .inr ⟨⟨_, rfl⟩, _, rfl⟩⟩
  · obtain ⟨e, he, hpre⟩ := h.prefix_of_held? hpath hw
    have hheld := h.holds e he
    have hheld' := h'.holds e (hsub he)
    by_cases hbelow : KeyPath.split e.1 <+: path
    · -- below the path of the key both hold what its value holds
      obtain ⟨rest, rfl⟩ := hbelow
      rw [held?] at hheld hheld'
      refine ⟨w, ?_, .inl rfl⟩
      rw [held?, List.map_append, at?_append, hheld] at hw
      rw [held?, List.map_append, at?_append, hheld', hw]
    · -- above it both hold a mapping
      have habove := hpre.resolve_right hbelow
      have hne : path ≠ KeyPath.split e.1 := fun heq => hbelow (heq ▸ List.prefix_refl _)
      obtain ⟨below, hobj⟩ := exists_obj_of_held? hheld habove hne
      obtain ⟨below', hobj'⟩ := exists_obj_of_held? hheld' habove hne
      obtain rfl := Option.some.inj (hw.symm.trans hobj)
      exact ⟨_, hobj', .inr ⟨⟨_, rfl⟩, _, rfl⟩⟩

/-- **One expansion** of a mapping, whatever the order of its entries, up to the order of
keys. -/
theorem alike (h : IsExpansion data m) (h' : IsExpansion data' m') (hperm : data.Perm data')
    (hm : DistinctEntries m) (hm' : DistinctEntries m') : Alike (.obj m) (.obj m') := by
  refine alike_of_held? hm hm' fun path => ?_
  cases hw : m.held? path with
  | some w =>
    obtain ⟨w', hw', hleaf⟩ := h.exists_sameLeaf h' hperm.subset hw
    rw [hw']
    exact .some hleaf
  | none =>
    have hnone : m'.held? path = none := by
      refine Option.eq_none_iff_forall_ne_some.mpr fun w' hw' => ?_
      obtain ⟨w, hw'', -⟩ := h'.exists_sameLeaf h hperm.symm.subset hw'
      rw [hw] at hw''
      cases hw''
    rw [hnone]
    exact .none

end IsExpansion

lemma expand_concat (data : Mapping) (e : String × Value) :
    expand (data ++ [e]) = merge (expand data) (ofPath e.1 e.2) := by
  rw [expand, List.foldl_append]
  rfl

/-- Expanding a mapping no key of which is part of another one. -/
lemma isExpansion_of_unnested (hd : DistinctEntries data) (hkeys : data.Unnested) :
    IsExpansion data (expand data) := by
  induction data using List.reverseRecOn with
  | nil => exact .nil
  | append_singleton data e ih =>
    obtain ⟨hnodup, hdistinct⟩ := distinctEntries_iff.mp hd
    have hkeys_append : keys (data ++ [e]) = keys data ++ [e.1] := by
      rw [keys, List.map_append]
      rfl
    rw [Unnested, hkeys_append] at hkeys
    rw [hkeys_append, List.nodup_append] at hnodup
    have hbefore : ∀ key ∈ keys data, key ∈ keys data ++ [e.1] := fun key hkey =>
      List.mem_append_left _ hkey
    have hlast : e.1 ∈ keys data ++ [e.1] := List.mem_append_right _ (List.mem_singleton_self _)
    have hdata : DistinctEntries data := distinctEntries_iff.mpr
      ⟨hnodup.1, fun d hmem => hdistinct d (List.mem_append_left _ hmem)⟩
    rw [expand_concat]
    refine (ih hdata fun a ha b hb => hkeys a (hbefore a ha) b (hbefore b hb)).concat
      (hdistinct e (List.mem_append_right _ (List.mem_singleton_self _))) fun key hkey => ?_
    have hne : key ≠ e.1 := hnodup.2.2 key hkey e.1 (List.mem_singleton_self _)
    exact ⟨hkeys key (hbefore key hkey) e.1 hlast hne,
      hkeys e.1 hlast key (hbefore key hkey) hne.symm⟩

/-- **Expanding** a mapping no key of which is part of another one, both taken as paths:
the values of all keys are found at the paths of the keys, nothing else is there, and the
entries in any other order make the same mapping, up to the order of keys. -/
theorem isExpansion_expand (hd : DistinctEntries data) (hkeys : data.Unnested) :
    IsExpansion data (expand data) ∧
      ∀ data' : Mapping, data'.Perm data → Alike (.obj (expand data)) (.obj (expand data')) ∧
        same (.obj (expand data)) (.obj (expand data')) = true := by
  have hexpand := isExpansion_of_unnested hd hkeys
  refine ⟨hexpand, fun data' hperm => ?_⟩
  have hmap := hperm.map Prod.fst
  obtain ⟨hnodup, hdistinct⟩ := distinctEntries_iff.mp hd
  have hd' : DistinctEntries data' :=
    distinctEntries_iff.mpr ⟨hmap.nodup_iff.mpr hnodup, fun e he => hdistinct e (hperm.subset he)⟩
  have hkeys' : data'.Unnested := fun a ha b hb => hkeys a (hmap.subset ha) b (hmap.subset hb)
  have halike := hexpand.alike (isExpansion_of_unnested hd' hkeys') hperm.symm hd.expand hd'.expand
  exact ⟨halike, halike.same⟩

/-- Keys with empty components, and values that are mappings. -/
theorem isExpansion_expand_shared :
    let data : Mapping := [("site.name", .str "Acme"), ("..", .bool true),
      ("site.menu", .obj [("a.b", .arr [.null])]), ("site.foot.", .obj [])]
    let data' : Mapping := [("..", .bool true), ("site.menu", .obj [("a.b", .arr [.null])]),
      ("site.foot.", .obj []), ("site.name", .str "Acme")]
    (DistinctEntries data ∧ data.Unnested ∧ data'.Perm data) ∧
      IsExpansion data (expand data) ∧
      Alike (.obj (expand data)) (.obj (expand data')) ∧
        same (.obj (expand data)) (.obj (expand data')) = true := by
  intro data data'
  have hd : DistinctEntries data := by decide
  have hkeys : data.Unnested := by decide +kernel
  have hperm : data'.Perm data := by decide +kernel
  obtain ⟨hexpand, halike⟩ := isExpansion_expand hd hkeys
  exact ⟨⟨hd, hkeys, hperm⟩, hexpand, halike data' hperm⟩

/-- A key that is part of another one takes the place of its value, or is taken. -/
example :
    expand [("site.name", .str "Acme"), ("site", .null)] = [("site", .null)] ∧
      expand [("site", .null), ("site.name", .str "Acme")] =
        [("site", .obj [("name", .str "Acme")])] := by
  decide +kernel

end Mapping

end PageTree
