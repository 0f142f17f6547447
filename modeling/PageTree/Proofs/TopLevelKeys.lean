/-
Keys at the top level.

A path is taken apart at its dots, so a key with a dot at the top level of the settings would
be out of reach: its path leads below another key. But paths that are assigned and keys that
are expanded bring in first components alone, and whatever is merged in below them stays below
them. So however a store came about, each entry at its top level is found under its key.

* `KeyPath.IsComponent`: texts without dots, which are paths of one component;
* `Mapping.Addressed`: distinct keys without dots;
* `Mapping.Revised`: what operations do to settings; `Operation.revised_outcome`;
* `Mapping.Revised.addressed`: **one operation**;
* `Operation.addressed_runAll`: **all operations**, one after the other;
* `Operation.get?_runAll`: the entries at the top level of a store.
-/
import PageTree.Proofs.InPlace
import PageTree.Proofs.Removing
import PageTree.Proofs.SingleEntries

namespace PageTree

/-! ### Paths of one component -/

namespace KeyPath

/-- Whether a text has no dots. -/
def IsComponent (key : String) : Prop := '.' ∉ key.toList

lemma splitDots_of_notMem {cs : List Char} (h : '.' ∉ cs) : splitDots cs = [cs] := by
  induction cs with
  | nil => rfl
  | cons c cs ih =>
    rw [List.mem_cons, not_or] at h
    rw [splitDots, if_neg (Ne.symm h.1), ih h.2]

lemma notMem_of_mem_splitDots {cs part : List Char} (h : part ∈ splitDots cs) : '.' ∉ part := by
  induction cs generalizing part with
  | nil =>
    obtain rfl := List.mem_singleton.mp h
    exact List.not_mem_nil
  | cons c cs ih =>
    rw [splitDots] at h
    split_ifs at h with hdot
    · rcases List.mem_cons.mp h with rfl | h
      · exact List.not_mem_nil
      · exact ih h
    · obtain ⟨first, parts, hrest⟩ := List.exists_cons_of_ne_nil (splitDots_ne_nil cs)
      rw [hrest] at h ih
      rcases List.mem_cons.mp h with rfl | h
      · rw [List.mem_cons, not_or]
        exact ⟨Ne.symm hdot, ih List.mem_cons_self⟩
      · exact ih (List.mem_cons_of_mem first h)

/-- A component is a path of its own. -/
lemma IsComponent.split {key : String} (h : IsComponent key) : split key = [key] := by
  rw [KeyPath.split, splitDots_of_notMem h, List.map_singleton, String.ofList_toList]

lemma isComponent_of_mem_split {path component : String} (h : component ∈ split path) :
    IsComponent component := by
  obtain ⟨part, hpart, rfl⟩ := List.mem_map.mp h
  rw [IsComponent, String.toList_ofList]
  exact notMem_of_mem_splitDots hpart

end KeyPath

/-! ### Distinct keys without dots -/

namespace Mapping

open KeyPath

/-- Whether the keys of a mapping are distinct and have no dots. -/
structure Addressed (m : Mapping) : Prop where
  nodup : (keys m).Nodup
  isComponent : ∀ key ∈ keys m, IsComponent key

namespace Addressed

variable {m upper : Mapping} {key : String} {v : Value} {path : List String}

lemma nil : Addressed [] := ⟨List.nodup_nil, fun _ h => absurd h List.not_mem_nil⟩

lemma insert (h : Addressed m) (hkey : IsComponent key) (v : Value) :
    Addressed (Mapping.insert m key v) where
  nodup := nodup_keys_insert h.nodup
  isComponent other hother := by
    rcases mem_keys_insert.mp hother with rfl | hother
    · exact hkey
    · exact h.isComponent other hother

lemma alter (h : Addressed m) (hkey : IsComponent key) (f : Value → Value) :
    Addressed (Mapping.alter m key f) := by
  rw [alter_eq_insert]
  exact h.insert hkey _

lemma erase (h : Addressed m) (hv : find? m key = some v) : Addressed (Mapping.erase m key) := by
  have hperm : (key :: keys (Mapping.erase m key)).Perm (keys m) := (perm_erase hv).map Prod.fst
  refine ⟨(List.nodup_cons.mp (hperm.nodup_iff.mpr h.nodup)).2, fun other hother => ?_⟩
  exact h.isComponent other (hperm.subset (List.mem_cons_of_mem key hother))

/-- Only keys of what is laid over a mapping come in at its top level. -/
lemma mergeEntries (h : Addressed m) (hupper : ∀ key ∈ keys upper, IsComponent key) :
    Addressed (mergeEntries m upper) := by
  induction upper generalizing m with
  | nil => exact h
  | cons e rest ih =>
    rw [keys_cons, List.forall_mem_cons] at hupper
    rw [Mapping.mergeEntries]
    exact ih (h.insert hupper.1 _) hupper.2

/-- A key that is a path brings in its first component. -/
lemma expand (data : Mapping) : Addressed (Mapping.expand data) := by
  refine Value.expand_induction nil fun e _ expanded hexpanded => hexpanded.mergeEntries ?_
  obtain ⟨first, rest, hsplit⟩ := List.exists_cons_of_ne_nil (split_ne_nil e.1)
  have hentry := Value.obj_ofPath e.1 e.2
  rw [hsplit, Value.assign_null] at hentry
  rw [Value.obj.inj hentry]
  have hfirst : first ∈ split e.1 := by
    rw [hsplit]
    exact List.mem_cons_self
  exact List.forall_mem_singleton.mpr (isComponent_of_mem_split hfirst)

/-- Compiling leaves the keys as they are. -/
lemma compileAll (h : Addressed m) : Addressed (Store.compileAll m) := by
  have hkeys : keys (Store.compileAll m) = keys m :=
    (Store.reworded_compileAll (R := fun _ _ => True) (fun _ => trivial) (fun _ _ _ _ _ => trivial)
      fun _ _ _ => trivial).keys_eq
  exact ⟨hkeys ▸ h.nodup, hkeys ▸ h.isComponent⟩

/-- A value that is put at a path comes in under the first component. -/
lemma assign (h : Addressed m) (hpath : ∀ c ∈ path, IsComponent c) (v : Value) :
    Addressed (Store.assign m path v) := by
  cases path with
  | nil => exact h
  | cons first rest => exact h.alter (hpath first List.mem_cons_self) _

/-- What is left when the value at a path is taken away. -/
lemma take? {rest : Mapping} (h : Addressed m) (hpath : ∀ c ∈ path, IsComponent c)
    (htake : Store.take? (.obj m) path = some (v, .obj rest)) : Addressed rest := by
  match path with
  | [] => cases htake
  | [key] =>
    obtain ⟨w, hw, heq⟩ := Option.map_eq_some_iff.mp htake
    cases heq
    exact h.erase hw
  | first :: next :: more =>
    rw [Store.take?] at htake
    cases hfirst : (Value.obj m).child? first with
    | none =>
      rw [hfirst] at htake
      cases htake
    | some w =>
      rw [hfirst] at htake
      obtain ⟨left, -, heq⟩ := Option.map_eq_some_iff.mp htake
      cases heq
      exact h.alter (hpath first List.mem_cons_self) _

end Addressed

/-! ### Operations on a store -/

/-- What an operation does to the settings of a store. -/
inductive Revised (m : Mapping) : Mapping → Prop
  | kept : Revised m m
  | assigned (path : String) (v : Value) : Revised m (Store.assign m (split path) v)
  | taken {path : String} {v : Value} {rest : Mapping}
    (h : Store.take? (.obj m) (split path) = some (v, .obj rest)) : Revised m rest
  | compiled : Revised m (Store.compileAll m)
  | loaded (data : Mapping) : Revised m (Store.compileAll (merge m (expand data)))

/-- **One operation** keeps the keys at the top level distinct and without dots. -/
lemma Revised.addressed {m m' : Mapping} (h : Revised m m') (hm : Addressed m) : Addressed m' := by
  cases h with
  | kept => exact hm
  | assigned path v => exact hm.assign (fun _ => isComponent_of_mem_split) v
  | taken htake => exact hm.take? (fun _ => isComponent_of_mem_split) htake
  | compiled => exact hm.compileAll
  | loaded data => exact (hm.mergeEntries (Addressed.expand data).isComponent).compileAll

end Mapping

namespace Operation

open Mapping

lemma revised_load {s s' : Store} (hmut : s.mutable = true) {data : Except ConfigError Mapping}
    {removed : Option Value}
    (h : (s.loadSource? data).map ((none : Option Value), ·) = .ok (removed, s')) :
    Revised s.settings s'.settings := by
  rw [Store.loadSource?_of_mutable hmut] at h
  cases data with
  | error e => cases h
  | ok data =>
    cases h
    exact .loaded data

lemma revised_outcome {op : Operation} {s s' : Store} {removed : Option Value}
    (h : op.outcome s = .ok (removed, s')) : Revised s.settings s'.settings := by
  cases hmut : s.mutable with
  | false =>
    cases hchange : op.change? with
    | some change =>
      rw [outcome_of_locked hmut hchange] at h
      cases h
    | none =>
      cases op with
      | lock | unlock =>
        cases h
        exact .kept
      | _ => cases hchange
  | true =>
    cases op with
    | set path v =>
      simp only [outcome, Store.set?, Store.guarded, if_pos hmut] at h
      cases h
      exact .assigned path v
    | remove path =>
      simp only [outcome, Store.remove?, Store.guarded, if_pos hmut] at h
      split at h
      · next m htake =>
        cases h
        exact .taken htake
      · cases h
        exact .kept
    | compile =>
      simp only [outcome, Store.compile?, Store.guarded, if_pos hmut] at h
      cases h
      exact .compiled
    | loadMap data =>
      simp only [outcome, Store.load?, Store.guarded, if_pos hmut] at h
      cases h
      exact .loaded data
    | loadText _ _ _ | loadFile _ _ => exact revised_load hmut h
    | lock | unlock =>
      cases h
      exact .kept

lemma revised_after (w : Workspace) (op : Operation) :
    Revised w.store.settings (after w op).store.settings := by
  rw [after, run_eq]
  cases h : op.outcome w.store with
  | error e => exact .kept
  | ok result => exact revised_outcome h

/-- **All operations**, one after the other. -/
lemma addressed_runAll {w : Workspace} (h : w.store.settings.Addressed) (ops : List Operation) :
    (runAll ops w).store.settings.Addressed := by
  induction ops generalizing w with
  | nil => exact h
  | cons op rest ih => exact ih ((revised_after w op).addressed h)

/-- **Keys at the top level** of a store that came about by any operations on an empty one have
no dots, and each of its entries is found under its key. -/
theorem get?_runAll (ops : List Operation) :
    let s := (runAll ops ⟨.empty, []⟩).store
    (∀ key ∈ keys s.settings, '.' ∉ key.toList) ∧
      ∀ key v, (key, v) ∈ s.settings → s.get? key = some v := by
  intro s
  have hs : s.settings.Addressed := addressed_runAll Addressed.nil ops
  refine ⟨hs.isComponent, fun key v he => ?_⟩
  have hkey : KeyPath.IsComponent key := hs.isComponent key (List.mem_map.mpr ⟨_, he, rfl⟩)
  have hfind : find? s.settings key = some v := (find?_eq_some_iff hs.nodup).mpr he
  rw [Store.get?, hkey.split, lookup?, hfind]
  rfl

/-- Dots in the keys of a mapping that is loaded and of one inside it, and in a path. -/
theorem get?_runAll_dotted :
    let inner : Value := .obj [("x", .obj [("a.b", .bool true)])]
    let ops : List Operation := [.set "menu.items" (.arr []),
      .loadMap [("site.name", .str "Acme"), (".x", .obj [("a.b", .bool true)])], .remove "menu"]
    let s := (runAll ops ⟨.empty, []⟩).store
    s.settings = [("", inner), ("site", .obj [("name", .str "Acme")])] ∧
      (∀ key ∈ keys s.settings, '.' ∉ key.toList) ∧ s.get? "" = some inner := by
  intro inner ops s
  have hs : s.settings = [("", inner), ("site", .obj [("name", .str "Acme")])] := by decide +kernel
  have hrun := get?_runAll ops
  exact ⟨hs, hrun.1, hrun.2 "" inner (hs ▸ List.mem_cons_self)⟩

end Operation

end PageTree
