/-
Loading one entry.

To load an entry whose key is a path is to build the mappings of the path below nothing
and to lay them over the settings; to set the value is to go down the path in the settings
and to put the value at its end. Both go by the same keys, keep the places of the keys
that are there, and make a mapping of a scalar on the way. A value that is a mapping would
be merged on the one way and put in place on the other; apart from that only a sequence
tells the two apart, which setting steps into where loading puts a mapping in its place.

* `Mapping.alter_eq_insert`: a change of the value of a key as an insertion;
* `Value.StepsIntoItem`: paths that step into an item of a sequence;
* `Value.overlay_assign_null`: laying the mappings of a path over a value;
* `Value.exists_arr_of_stepsIntoItem`: a sequence on the way;
* `Store.load?_singleton`: **loading one entry**.
-/
import PageTree.Proofs.MergedLeaves

namespace PageTree

/-! ### One key -/

namespace Mapping

/-- To change the value of a key is to insert what it becomes, null standing for nothing. -/
lemma alter_eq_insert (m : Mapping) (key : String) (f : Value → Value) :
    alter m key f = insert m key (f ((find? m key).getD .null)) := by
  induction m with
  | nil => rfl
  | cons e rest ih =>
    rw [alter, insert, find?]
    split_ifs with hkey
    · rw [hkey, Option.getD_some]
    · rw [ih]

/-- Laying one entry over a mapping. -/
lemma mergeEntries_singleton (m : Mapping) (key : String) (v : Value) :
    mergeEntries m [(key, v)] = insert m key (Value.overlay (find? m key) v) := by
  rw [mergeEntries, mergeEntries]

/-- One entry with its key expanded. -/
lemma expand_singleton (key : String) (v : Value) : expand [(key, v)] = ofPath key v := by
  obtain ⟨first, rest, hsplit⟩ := List.exists_cons_of_ne_nil (KeyPath.split_ne_nil key)
  have hobj := Value.obj_ofPath key v
  rw [hsplit, Value.assign_null] at hobj
  have hkeys : (keys (ofPath key v)).Nodup := by
    rw [Value.obj.inj hobj]
    exact List.nodup_singleton first
  exact merge_nil hkeys

end Mapping

namespace Value

variable {u v w new : Value} {under : Option Value} {component : String} {path rest : List String}

/-! ### Sequences on the way -/

/-- Whether a path steps into an item of a sequence on its way. -/
def StepsIntoItem (v : Value) (path : List String) : Prop :=
  ∃ before component rest items, path = before ++ component :: rest ∧
    v.lookup? before = some (.arr items) ∧ ∃ i, KeyPath.index? component items.length = some i

/-- The first component steps into an item, or a later one does below the child. -/
lemma stepsIntoItem_cons :
    v.StepsIntoItem (component :: rest) ↔
      (∃ items i, v = .arr items ∧ KeyPath.index? component items.length = some i) ∨
        ∃ w, v.child? component = some w ∧ w.StepsIntoItem rest := by
  constructor
  · rintro ⟨before, next, later, items, hpath, hlookup, i, hi⟩
    cases before with
    | nil =>
      obtain ⟨rfl, -⟩ := List.cons.inj hpath
      exact .inl ⟨items, i, Option.some.inj hlookup, hi⟩
    | cons first before =>
      obtain ⟨rfl, hrest⟩ := List.cons.inj hpath
      obtain ⟨w, hw, hlookup⟩ := Option.bind_eq_some_iff.mp hlookup
      exact .inr ⟨w, hw, before, next, later, items, hrest, hlookup, i, hi⟩
  · rintro (⟨items, i, rfl, hi⟩ | ⟨w, hw, before, next, later, items, rfl, hlookup, hi⟩)
    · exact ⟨[], component, rest, items, rfl, rfl, i, hi⟩
    · refine ⟨component :: before, next, later, items, rfl, ?_, hi⟩
      exact Option.bind_eq_some_iff.mpr ⟨w, hw, hlookup⟩

lemma stepsIntoItem_obj {m : Mapping} :
    (obj m).StepsIntoItem (component :: rest) ↔
      ∃ w, Mapping.find? m component = some w ∧ w.StepsIntoItem rest := by
  rw [stepsIntoItem_cons, child?]
  refine or_iff_right ?_
  rintro ⟨items, i, h, -⟩
  cases h

lemma stepsIntoItem_arr {items : List Value} :
    (arr items).StepsIntoItem (component :: rest) ↔
      ∃ i, KeyPath.index? component items.length = some i := by
  rw [stepsIntoItem_cons]
  constructor
  · rintro (⟨_, i, h, hi⟩ | ⟨w, hw, -⟩)
    · obtain rfl := Value.arr.inj h
      exact ⟨i, hi⟩
    · obtain ⟨i, hi, -⟩ := Option.bind_eq_some_iff.mp hw
      exact ⟨i, hi⟩
  · rintro ⟨i, hi⟩
    exact .inl ⟨items, i, rfl, hi⟩

lemma not_stepsIntoItem_null (path : List String) : ¬ null.StepsIntoItem path := by
  rintro ⟨before, component, rest, items, -, hlookup, -⟩
  cases before <;> cases hlookup

/-! ### The mappings of a path -/

/-- Putting a value below a child. -/
lemma assign_cons (v : Value) (component : String) (rest : List String) (new : Value) :
    v.assign (component :: rest) new = v.alterChild component fun w => w.assign rest new := rfl

/-- **Laying the mappings of a path over a value** is putting the value at the end of the
path, if this is no mapping and the path steps into no item. -/
theorem overlay_assign_null (hnew : ¬ new.IsMapping)
    (h : ¬ (under.getD .null).StepsIntoItem path) :
    overlay under (null.assign path new) = (under.getD .null).assign path new := by
  induction path generalizing under with
  | nil => exact overlay_of_not_isMapping hnew
  | cons component rest ih =>
    rw [assign_null]
    cases under with
    | none => rfl
    | some u =>
      rw [Option.getD_some] at h ⊢
      rw [assign_cons]
      cases u with
      | obj m =>
        have hbelow : ¬ ((Mapping.find? m component).getD .null).StepsIntoItem rest := by
          cases hfind : Mapping.find? m component with
          | none => exact not_stepsIntoItem_null rest
          | some w => exact fun hw => h (stepsIntoItem_obj.mpr ⟨w, hfind, hw⟩)
        rw [overlay, Mapping.mergeEntries_singleton, ih hbelow, alterChild,
          Mapping.alter_eq_insert]
      | arr items =>
        -- the component is no index of the sequence, which becomes a mapping
        have hindex : KeyPath.index? component items.length = none :=
          Option.eq_none_iff_forall_ne_some.mpr fun i hi => h (stepsIntoItem_arr.mpr ⟨i, hi⟩)
        rw [alterChild, hindex]
        rfl
      | _ => rfl

/-- Where a path steps into an item, the sequence stays when a value is put at the path,
and becomes a mapping when the mappings of the path are laid over it. -/
lemma exists_arr_of_stepsIntoItem (h : u.StepsIntoItem path) (new : Value) :
    ∃ before items below, (u.assign path new).lookup? before = some (.arr items) ∧
      (overlay (some u) (null.assign path new)).lookup? before = some (.obj below) := by
  induction path generalizing u with
  | nil =>
    obtain ⟨before, component, rest, items, hpath, -⟩ := h
    simp at hpath
  | cons component rest ih =>
    rw [assign_null, assign_cons]
    cases u with
    | obj m =>
      obtain ⟨w, hw, hbelow⟩ := stepsIntoItem_obj.mp h
      obtain ⟨before, items, below, harr, hobj⟩ := ih hbelow
      refine ⟨component :: before, items, below, ?_, ?_⟩
      · rw [lookup?, child?_alterChild_self, child?, hw]
        exact harr
      · rw [overlay, Mapping.mergeEntries_singleton, lookup?, child?, Mapping.find?_insert,
          if_pos rfl, hw]
        exact hobj
    | arr items =>
      obtain ⟨i, hi⟩ := stepsIntoItem_arr.mp h
      refine ⟨[], items.modify i fun w => w.assign rest new, _, ?_, rfl⟩
      rw [alterChild, hi, lookup?]
    | _ => simp [stepsIntoItem_cons, child?] at h

end Value

/-! ### Settings -/

namespace Store

open Value

variable {m m' : Mapping}

/-- Whether a sequence stands in some settings at a part of a path in front of its end. -/
def HasSequenceOn (m : Mapping) (path : List String) : Prop :=
  ∃ before items, before <+: path ∧ before ≠ path ∧ Mapping.lookup? m before = some (.arr items)

/-- A path that steps into an item has a sequence on it. -/
lemma hasSequenceOn_of_stepsIntoItem {path : List String}
    (h : (Value.obj m).StepsIntoItem path) : HasSequenceOn m path := by
  obtain ⟨before, component, rest, items, rfl, hlookup, -⟩ := h
  have hbefore : before ≠ [] := by
    rintro rfl
    cases hlookup
  refine ⟨before, items, List.prefix_append before _, by simp, ?_⟩
  rwa [lookup?_obj hbefore] at hlookup

/-- The settings after an entry is merged in, as a value. -/
lemma obj_merge_expand_singleton (m : Mapping) (path : String) (v : Value) :
    Value.obj (Mapping.merge m (Mapping.expand [(path, v)])) =
      overlay (some (.obj m)) (null.assign (KeyPath.split path) v) := by
  rw [Mapping.expand_singleton, ← obj_ofPath]
  rfl

/-- Settings in which a path finds a sequence and a mapping are not compiled to the same. -/
lemma compileAll_ne {path : List String} {items : List Value} {below : Mapping}
    (h : (Value.obj m).lookup? path = some (.arr items))
    (h' : (Value.obj m').lookup? path = some (.obj below)) : compileAll m' ≠ compileAll m := by
  have hreworded : ∀ n : Mapping, Reworded (fun _ _ => True) (.obj n) (.obj (compileAll n)) :=
    fun n => ⟨_, rfl, reworded_compileAll (fun _ => trivial) (fun _ _ _ _ _ => trivial)
      fun _ _ _ => trivial⟩
  intro heq
  have harr := (hreworded m).lookup? path
  have hobj := (hreworded m').lookup? path
  rw [h] at harr
  rw [h', heq] at hobj
  obtain ⟨w, hw, _, rfl, -⟩ := exists_of_some_rel harr
  obtain ⟨w', hw', _, rfl, -⟩ := exists_of_some_rel hobj
  rw [hw] at hw'
  cases hw'

/-- **Loading one entry** into a store that is not locked, its value being no mapping,
leaves the same store, key order included, as setting the value and compiling the store, if
no sequence stands on the path in front of its end. More exactly, it does so if and only if
the path steps into no item of a sequence. -/
theorem load?_singleton {s : Store} (hmut : s.mutable = true) (path : String) {v : Value}
    (hv : ¬ v.IsMapping) :
    ∃ assigned compiled loaded, s.set? path v = .ok assigned ∧
      assigned.compile? = .ok compiled ∧ s.load? [(path, v)] = .ok loaded ∧
      (¬ HasSequenceOn s.settings (KeyPath.split path) → loaded = compiled) ∧
      (loaded = compiled ↔ ¬ (Value.obj s.settings).StepsIntoItem (KeyPath.split path)) := by
  have hassign := obj_assign (KeyPath.split_ne_nil path) s.settings v
  have hmerge := obj_merge_expand_singleton s.settings path v
  have hiff : compileAll (Mapping.merge s.settings (Mapping.expand [(path, v)])) =
      compileAll (assign s.settings (KeyPath.split path) v) ↔
        ¬ (Value.obj s.settings).StepsIntoItem (KeyPath.split path) := by
    constructor
    · intro heq hsteps
      obtain ⟨before, items, below, harr, hobj⟩ := exists_arr_of_stepsIntoItem hsteps v
      rw [hassign] at harr
      rw [← hmerge] at hobj
      exact compileAll_ne harr hobj heq
    · intro hsteps
      have hunder : ¬ ((some (Value.obj s.settings)).getD .null).StepsIntoItem
          (KeyPath.split path) := hsteps
      refine congrArg compileAll (Value.obj.inj ?_)
      rw [hmerge, overlay_assign_null hv hunder, Option.getD_some, hassign]
  have hstores : ∀ n n' : Mapping,
      ({ s with settings := n } : Store) = { s with settings := n' } ↔ n = n' :=
    fun n n' => ⟨congrArg Store.settings, fun h => h ▸ rfl⟩
  refine ⟨_, _, _, if_pos hmut, if_pos hmut, if_pos hmut, fun hsequence => ?_, ?_⟩
  · exact (hstores _ _).mpr (hiff.mpr fun hsteps =>
      hsequence (hasSequenceOn_of_stepsIntoItem hsteps))
  · exact (hstores _ _).trans hiff

/-- A path with an empty component, at whose end a mapping stands, and a string with tokens. -/
theorem load?_singleton_empty_component :
    let s : Store := ⟨[("site", .obj [("", .obj [("title", .obj [("old", .null)]),
      ("last", .bool true)])]), ("tags", .arr [.str "new"])], true⟩
    let path := "site..title"
    let v : Value := .str "\x7b%tags.0%\x7d, \x7b%site..last%\x7d"
    (s.mutable = true ∧ ¬ v.IsMapping ∧ ¬ HasSequenceOn s.settings (KeyPath.split path)) ∧
      ∃ assigned compiled loaded, s.set? path v = .ok assigned ∧
        assigned.compile? = .ok compiled ∧ s.load? [(path, v)] = .ok loaded ∧
        loaded = compiled := by
  intro s path v
  have hv : ¬ v.IsMapping := fun ⟨_, h⟩ => nomatch h
  have hsplit : KeyPath.split path = ["site", "", "title"] := by decide +kernel
  have hsequence : ¬ HasSequenceOn s.settings (KeyPath.split path) := by
    rw [hsplit]
    rintro ⟨before, items, hpre, hne, hlookup⟩
    simp only [List.prefix_cons_iff, List.prefix_nil] at hpre
    rcases hpre with rfl | ⟨_, rfl, rfl | ⟨_, rfl, rfl | ⟨_, rfl, rfl⟩⟩⟩
    · cases hlookup
    · cases hlookup
    · cases hlookup
    · exact hne rfl
  obtain ⟨assigned, compiled, loaded, hset, hcompile, hload, heq, -⟩ :=
    load?_singleton (s := s) rfl path hv
  exact ⟨⟨rfl, hv, hsequence⟩, assigned, compiled, loaded, hset, hcompile, hload, heq hsequence⟩

/-- A path that steps into an item, and one that is no index. -/
example :
    let s : Store := ⟨[("tags", .arr [.null])], true⟩
    (s.set? "tags.0" (.bool true)).toOption = some ⟨[("tags", .arr [.bool true])], true⟩ ∧
      (s.load? [("tags.0", .bool true)]).toOption =
        some ⟨[("tags", .obj [("0", .bool true)])], true⟩ ∧
      (s.set? "tags.1" (.bool true)).toOption = (s.load? [("tags.1", .bool true)]).toOption := by
  decide +kernel

end Store

end PageTree
