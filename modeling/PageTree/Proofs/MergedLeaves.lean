/-
The leaves of merged mappings.

A list of keys leads through mappings to a value. In a mapping with another one laid over
it, it leads to what the upper mapping holds there, and otherwise to what the lower one
does, unless the upper mapping holds something else than a mapping on the way. Only where
both hold mappings is there anything to merge: these have the keys of the lower one at
their places, and then the new ones.

* `Mapping.held?`: what a list of keys leads to;
* `Mapping.held?_merge`: the same in merged mappings, in one equation;
* `Mapping.exists_of_at?_merge`: merging brings in no places;
* `Mapping.IsMerge`: merged mappings by their leaves;
* `Value.overlay_overlay`: laying a value over another one twice;
* `Mapping.isMerge_merge`: **merged mappings**;
* `Value.alike_of_held?`: mappings with the same leaves.
-/
import PageTree.Proofs.KeyOrder
import PageTree.Proofs.Merging
import PageTree.Proofs.Places

namespace PageTree

/-- Whether a value is a mapping. -/
def Value.IsMapping (v : Value) : Prop := ∃ m, v = .obj m

namespace Value

variable {v w : Value} {under : Option Value} {path : List String}

/-- No key leads on from a value that is no mapping. -/
lemma at?_keys_of_not_isMapping (h : ¬ v.IsMapping) (hpath : path ≠ []) :
    v.at? (path.map .key) = none := by
  obtain ⟨key, rest, rfl⟩ := List.exists_cons_of_ne_nil hpath
  cases v with
  | obj m => exact absurd ⟨m, rfl⟩ h
  | _ => rfl

/-! ### Values laid over others -/

/-- Only mappings are merged with what is below them. -/
lemma overlay_of_not_isMapping (h : ¬ v.IsMapping) : overlay under v = v := by
  cases v with
  | obj m => exact absurd ⟨m, rfl⟩ h
  | _ => rfl

/-- A value is merged with nothing but a mapping. -/
lemma overlay_of_under (h : ∀ u ∈ under, ¬ u.IsMapping) : overlay under v = v := by
  cases v with
  | obj n =>
    cases under with
    | none => rfl
    | some u =>
      cases u with
      | obj m => exact absurd ⟨m, rfl⟩ (h _ rfl)
      | _ => rfl
  | _ => rfl

/-- A value stays a mapping, or stays none, when it is laid over another one. -/
lemma isMapping_overlay : (overlay under v).IsMapping ↔ v.IsMapping := by
  by_cases h : v.IsMapping
  · refine iff_of_true ?_ h
    by_cases hunder : ∀ u ∈ under, ¬ u.IsMapping
    · rwa [overlay_of_under hunder]
    · obtain ⟨n, rfl⟩ := h
      push Not at hunder
      obtain ⟨_, rfl, m, rfl⟩ := hunder
      exact ⟨_, rfl⟩
  · rw [overlay_of_not_isMapping h]

/-- Entries that are in a mapping, each laid over something, change nothing when they are
laid over it. -/
lemma mergeEntries_eq_self {m n : Mapping}
    (hself : ∀ e ∈ n, ∀ u, overlay (some (overlay u e.2)) e.2 = overlay u e.2)
    (hm : ∀ e ∈ n, ∃ u, Mapping.find? m e.1 = some (overlay u e.2)) :
    Mapping.mergeEntries m n = m := by
  induction n with
  | nil => rfl
  | cons e rest ih =>
    rw [List.forall_mem_cons] at hself hm
    obtain ⟨u, hu⟩ := hm.1
    rw [Mapping.mergeEntries, hu, hself.1 u, Mapping.insert_of_find? hu]
    exact ih hself.2 hm.2

/-- Laying a value over another one twice. -/
theorem overlay_overlay (hv : v.Distinct) (under : Option Value) :
    overlay (some (overlay under v)) v = overlay under v := by
  induction v using Value.ind generalizing under with
  | null | bool _ | num _ | str _ | arr _ _ => rfl
  | obj n ih =>
    obtain ⟨hnodup, hdistinct⟩ := distinctEntries_iff.mp hv
    have hself : ∀ e ∈ n, ∀ u, overlay (some (overlay u e.2)) e.2 = overlay u e.2 :=
      fun e he u => ih e he (hdistinct e he) u
    by_cases hunder : ∀ u ∈ under, ¬ u.IsMapping
    · -- nothing is merged at first, and then the mapping with itself
      rw [overlay_of_under hunder, overlay]
      refine congrArg Value.obj (mergeEntries_eq_self hself fun e he => ⟨none, ?_⟩)
      rw [Mapping.overlay_none, (Mapping.find?_eq_some_iff hnodup).mpr he]
    · push Not at hunder
      obtain ⟨_, rfl, m, rfl⟩ := hunder
      rw [overlay, overlay]
      refine congrArg Value.obj (mergeEntries_eq_self hself fun e he => ⟨Mapping.find? m e.1, ?_⟩)
      rw [Mapping.find?_mergeEntries hnodup, (Mapping.find?_eq_some_iff hnodup).mpr he]

end Value

namespace Mapping

open Value

variable {m n : Mapping} {key : String} {path : List String} {place : List Step} {v w : Value}

/-! ### What a list of keys leads to -/

/-- What a list of keys leads to, each of them from a mapping to the value that it has
there. -/
def held? (m : Mapping) (path : List String) : Option Value :=
  (Value.obj m).at? (path.map .key)

/-- Whether something else than a mapping is in the way of a list of keys. -/
def Bars (m : Mapping) (path : List String) : Prop :=
  ∃ before u, before <+: path ∧ before ≠ path ∧ m.held? before = some u ∧ ¬ u.IsMapping

lemma held?_cons (m : Mapping) (key : String) (rest : List String) :
    m.held? (key :: rest) = (find? m key).bind (·.at? (rest.map .key)) := by
  rw [held?, List.map_cons, at?]

/-- The first of some keys leads to a mapping or to something that bars the way. -/
lemma bars_cons {rest : List String} :
    m.Bars (key :: rest) ↔
      ∃ v, find? m key = some v ∧
        (rest ≠ [] ∧ ¬ v.IsMapping ∨ ∃ below, v = .obj below ∧ Bars below rest) := by
  constructor
  · rintro ⟨before, u, hpre, hne, hheld, hu⟩
    cases before with
    | nil => exact absurd ⟨m, (Option.some.inj hheld).symm⟩ hu
    | cons first before =>
      rw [List.cons_prefix_cons] at hpre
      obtain ⟨rfl, hpre⟩ := hpre
      have hbefore : before ≠ rest := fun h => hne (by rw [h])
      rw [held?_cons] at hheld
      obtain ⟨v, hv, hheld⟩ := Option.bind_eq_some_iff.mp hheld
      refine ⟨v, hv, ?_⟩
      by_cases hmap : v.IsMapping
      · obtain ⟨below, rfl⟩ := hmap
        exact .inr ⟨below, rfl, before, u, hpre, hbefore, hheld, hu⟩
      · refine .inl ⟨fun hrest => ?_, hmap⟩
        subst hrest
        exact hbefore (List.prefix_nil.mp hpre)
  · rintro ⟨v, hv, ⟨hrest, hmap⟩ | ⟨below, rfl, before, u, hpre, hne, hheld, hu⟩⟩
    · refine ⟨[key], v, by simp, fun h => hrest (List.cons.inj h).2.symm, ?_, hmap⟩
      rw [held?_cons, hv]
      rfl
    · refine ⟨key :: before, u, List.cons_prefix_cons.mpr ⟨rfl, hpre⟩,
        fun h => hne (List.cons.inj h).2, ?_, hu⟩
      rw [held?_cons, hv]
      exact hheld

/-! ### Merged mappings -/

open scoped Classical in
/-- What a list of keys leads to in merged mappings: the upper one's value laid over the
lower one's, or else the lower one's, if nothing bars the way in the upper one. -/
theorem held?_merge (hn : DistinctEntries n) (m : Mapping) (path : List String) :
    (merge m n).held? path =
      match n.held? path with
      | some v => some (overlay (m.held? path) v)
      | none => if n.Bars path then none else m.held? path := by
  induction path generalizing m n with
  | nil => rfl
  | cons key rest ih =>
    rw [held?_cons, held?_cons, held?_cons, merge, find?_mergeEntries hn.nodup]
    cases hv : find? n key with
    | none =>
      have hbars : ¬ n.Bars (key :: rest) := by simp [bars_cons, hv]
      exact (if_neg hbars).symm
    | some v =>
      by_cases hmap : v.IsMapping
      · obtain ⟨below, rfl⟩ := hmap
        have hbars : n.Bars (key :: rest) ↔ Bars below rest := by simp [bars_cons, hv, IsMapping]
        by_cases hunder : ∀ u ∈ find? m key, ¬ u.IsMapping
        · -- there is nothing to merge, and no key leads on in the lower mapping
          have hlower : ∀ u ∈ (find? m key).bind (·.at? (rest.map .key)), ¬ u.IsMapping := by
            intro u hu
            obtain ⟨w, hw, hu⟩ := Option.bind_eq_some_iff.mp hu
            have hrest : rest = [] := by
              by_contra hne
              simp [at?_keys_of_not_isMapping (hunder w hw) hne] at hu
            subst hrest
            exact Option.some.inj hu ▸ hunder w hw
          simp only [Option.bind_some, overlay_of_under hunder, overlay_of_under hlower]
          cases hbelow : (obj below).at? (rest.map .key) with
          | some w => rfl
          | none =>
            have hrest : rest ≠ [] := by
              rintro rfl
              cases hbelow
            have hnone : (find? m key).bind (·.at? (rest.map .key)) = none :=
              Option.bind_eq_none_iff.mpr fun w hw =>
                at?_keys_of_not_isMapping (hunder w hw) hrest
            simp [hnone]
        · push Not at hunder
          obtain ⟨_, hu, lower, rfl⟩ := hunder
          have hu : find? m key = some (.obj lower) := hu
          simp only [hu, Option.bind_some, hbars]
          exact ih (hn.of_find? hv) lower
      · -- what the upper mapping holds takes the place of everything
        simp only [Option.bind_some, overlay_of_not_isMapping hmap]
        by_cases hrest : rest = []
        · subst hrest
          exact congrArg some (overlay_of_not_isMapping hmap).symm
        · have hbars : n.Bars (key :: rest) := bars_cons.mpr ⟨v, hv, .inl ⟨hrest, hmap⟩⟩
          simp only [at?_keys_of_not_isMapping hmap hrest, if_pos hbars]

/-- Merging brings in no places. -/
theorem exists_of_at?_merge (hn : DistinctEntries n) (hplace : place ≠ [])
    (h : (Value.obj (merge m n)).at? place = some w) :
    (∃ u, (Value.obj m).at? place = some u) ∨ ∃ u, (Value.obj n).at? place = some u := by
  induction place generalizing m n with
  | nil => exact absurd rfl hplace
  | cons step rest ih =>
    cases step with
    | index i => cases h
    | key key =>
      rw [at?, merge, find?_mergeEntries hn.nodup] at h
      rw [at?, at?]
      cases hv : find? n key with
      | none =>
        rw [hv] at h
        exact .inl ⟨w, h⟩
      | some v =>
        simp only [hv, Option.bind_some] at h
        by_cases hunder : (∀ u ∈ find? m key, ¬ u.IsMapping) ∨ ¬ v.IsMapping
        · have hoverlay : overlay (find? m key) v = v :=
            hunder.elim overlay_of_under overlay_of_not_isMapping
          rw [hoverlay] at h
          exact .inr ⟨w, h⟩
        · push Not at hunder
          obtain ⟨⟨_, hu, lower, rfl⟩, below, rfl⟩ := hunder
          have hu : find? m key = some (.obj lower) := hu
          rw [hu] at h ⊢
          by_cases hrest : rest = []
          · exact .inr ⟨.obj below, by rw [hrest]; rfl⟩
          · exact ih (hn.of_find? hv) hrest h

/-- The keys after an insertion, in order. -/
lemma keys_insert (m : Mapping) (key : String) (v : Value) :
    keys (insert m key v) = if key ∈ keys m then keys m else keys m ++ [key] := by
  split_ifs with hkey
  · induction m with
    | nil => simp [keys] at hkey
    | cons e rest ih =>
      rw [insert]
      split_ifs with he
      · rfl
      · rw [keys_cons, List.mem_cons] at hkey
        rw [keys_cons, keys_cons, ih (hkey.resolve_left fun h => he h.symm)]
  · rw [insert_of_notMem hkey, keys, List.map_append]
    rfl

/-- The keys of merged mappings, in order: those of the lower one, and then the new ones. -/
lemma keys_mergeEntries (hn : (keys n).Nodup) (m : Mapping) :
    keys (mergeEntries m n) = keys m ++ (keys n).filter (· ∉ keys m) := by
  induction n generalizing m with
  | nil => simp [mergeEntries, keys]
  | cons e rest ih =>
    rw [keys_cons, List.nodup_cons] at hn
    rw [mergeEntries, ih hn.2, keys_insert, keys_cons, List.filter_cons]
    by_cases hkey : e.1 ∈ keys m
    · simp [hkey]
    · have hlater : (keys rest).filter (· ∉ keys m ++ [e.1]) = (keys rest).filter (· ∉ keys m) := by
        refine List.filter_congr fun key hmem => ?_
        have hne : key ≠ e.1 := fun h => hn.1 (h ▸ hmem)
        simp [hne]
      rw [if_neg hkey, hlater, if_pos (decide_eq_true hkey), List.append_assoc,
        List.singleton_append]

/-- What it is for a mapping to be one with another one laid over it, told by the values
that lists of keys lead to. -/
structure IsMerge (m n merged : Mapping) : Prop where
  /-- Other values than mappings are the upper mapping's, and those of the lower one where
  the upper one holds no value and nothing bars the way in it. -/
  leaf : ∀ path w, ¬ w.IsMapping →
    (merged.held? path = some w ↔
      n.held? path = some w ∨
        m.held? path = some w ∧ n.held? path = none ∧ ¬ n.Bars path)
  /-- There is a mapping where the upper one holds one, or the lower one does and the upper
  one holds nothing else, there or on the way. -/
  mapping : ∀ path, (∃ below, merged.held? path = some (.obj below)) ↔
    (∃ below, n.held? path = some (.obj below)) ∨
      (∃ below, m.held? path = some (.obj below)) ∧
        (∀ u, n.held? path = some u → u.IsMapping) ∧ ¬ n.Bars path
  /-- Where both hold mappings, the keys of the lower one keep their places, and the new
  keys of the upper one follow in their order. -/
  order : ∀ path lower upper, m.held? path = some (.obj lower) →
    n.held? path = some (.obj upper) →
      ∃ below, merged.held? path = some (.obj below) ∧
        keys below = keys lower ++ (keys upper).filter (· ∉ keys lower)

/-- **Merged mappings**: a mapping with another one laid over it is told by the leaves of
the two, and laying the same mapping over it again changes nothing. -/
theorem isMerge_merge (m : Mapping) {n : Mapping} (hn : DistinctEntries n) :
    IsMerge m n (merge m n) ∧ merge (merge m n) n = merge m n := by
  refine ⟨⟨fun path w hw => ?_, fun path => ?_, fun path lower upper hlower hupper => ?_⟩, ?_⟩
  · rw [held?_merge hn]
    cases hheld : n.held? path with
    | none =>
      by_cases hbars : n.Bars path <;> simp [hbars]
    | some v =>
      by_cases hmap : v.IsMapping
      · -- neither `v` nor what it becomes is `w`
        have hne : overlay (m.held? path) v ≠ w := fun h => hw (h ▸ isMapping_overlay.mpr hmap)
        have hne' : v ≠ w := fun h => hw (h ▸ hmap)
        simp [hne, hne']
      · simp [overlay_of_not_isMapping hmap]
  · rw [held?_merge hn]
    cases hheld : n.held? path with
    | none =>
      by_cases hbars : n.Bars path <;> simp [hbars]
    | some v =>
      have hoverlay : (∃ below, overlay (m.held? path) v = .obj below) ↔ ∃ below, v = .obj below :=
        isMapping_overlay
      simp only [Option.some.injEq, hoverlay]
      exact ⟨.inl, fun h => h.elim id fun h => h.2.1 v rfl⟩
  · refine ⟨mergeEntries lower upper, ?_, keys_mergeEntries ?_ lower⟩
    · rw [held?_merge hn, hlower, hupper]
      rfl
    · have hd : (Value.obj upper).Distinct := Distinct.of_at? (v := .obj n) hn hupper
      exact DistinctEntries.nodup hd
  · exact Value.obj.inj (overlay_overlay (v := .obj n) hn (some (.obj m)))

/-- Mappings that hold a scalar where the other one holds a mapping, and no entries. -/
theorem isMerge_merge_conflicts :
    let m : Mapping := [("a", .obj [("x", .bool true), ("y", .obj [])]), ("b", .str "flat"),
      ("c", .obj [("z", .null)])]
    let n : Mapping := [("d", .arr []), ("b", .obj [("w", .null)]), ("c", .str "flat"),
      ("a", .obj [("v", .null), ("x", .obj [])])]
    DistinctEntries n ∧ IsMerge m n (merge m n) ∧ merge (merge m n) n = merge m n := by
  intro m n
  have hn : DistinctEntries n := by decide
  exact ⟨hn, isMerge_merge m hn⟩

/-- These mappings merged. -/
example :
    merge [("a", .obj [("x", .bool true), ("y", .obj [])]), ("b", .str "flat"),
        ("c", .obj [("z", .null)])]
      [("d", .arr []), ("b", .obj [("w", .null)]), ("c", .str "flat"),
        ("a", .obj [("v", .null), ("x", .obj [])])] =
    [("a", .obj [("x", .obj []), ("y", .obj []), ("v", .null)]), ("b", .obj [("w", .null)]),
      ("c", .str "flat"), ("d", .arr [])] := by
  decide +kernel

end Mapping

/-! ### Mappings with the same leaves -/

namespace Value

open Mapping

variable {m m' : Mapping}

/-- Whether two values are the same, or both are mappings. -/
def SameLeaf (v w : Value) : Prop := v = w ∨ v.IsMapping ∧ w.IsMapping

/-- **Mappings with the same leaves** differ in the order of keys alone. -/
theorem alike_of_held? (hm : DistinctEntries m) (hm' : DistinctEntries m')
    (h : ∀ path, Option.Rel SameLeaf (held? m path) (held? m' path)) :
    Alike (.obj m) (.obj m') := by
  induction hobj : Value.obj m using Value.ind generalizing m m' with
  | null | bool _ | num _ | str _ | arr _ _ => cases hobj
  | obj entries ih =>
    obtain rfl := Value.obj.inj hobj
    refine alike_of_find? hm.nodup hm'.nodup fun key => ?_
    have hkey := h [key]
    simp only [held?_cons, List.map_nil, at?, Option.bind_fun_some] at hkey
    cases hv : find? m key with
    | none =>
      rw [hv] at hkey
      rw [eq_none_of_rel hkey]
      exact .none
    | some v =>
      rw [hv] at hkey
      obtain ⟨w, hw, hvw⟩ := exists_of_some_rel hkey
      rw [hw]
      refine .some ?_
      rcases hvw with rfl | ⟨⟨below, rfl⟩, below', rfl⟩
      · exact .refl (hm.of_find? hv)
      · refine ih _ (mem_of_find? hv) (hm.of_find? hv) (hm'.of_find? hw) (fun path => ?_) rfl
        have hpath := h (key :: path)
        rwa [held?_cons, held?_cons, hv, hw] at hpath

end Value

end PageTree
