/-
Removing a value.

A value is removed by taking it out of its parent, the container that it stands in, and
putting what is left there in the place of the parent. So a path that parts from the one
of the removed value finds what it found before, unless it leads to the same place or
into it or above it after all, because both paths go through one item of a sequence whose
index they spell in two ways.

* `Mapping.find?_erase`: the values of the other keys;
* `Value.place?`: the place that a path leads to, in which an index has one spelling;
* `Value.Meet`, `Value.Meet.exists_respelling`: paths to places one of which is above the
  other;
* `Value.lookup?_assign_cases`: the ways in which a path can lie to another one at which
  a value was put;
* `Store.take?_concat`: taking a value away in terms of its parent;
* `Store.remove?_exact`: **removing** a value.
-/
import PageTree.Proofs.Assigning
import PageTree.Proofs.Places

namespace PageTree

/-! ### Mappings without a key -/

namespace Mapping

variable {m m' : Mapping} {key : String} {v : Value}

/-- The values of keys do not depend on the order of entries, if keys are distinct. -/
lemma find?_of_perm (hm : (keys m).Nodup) (hperm : m'.Perm m) (key : String) :
    find? m' key = find? m key := by
  have hm' : (keys m').Nodup := (hperm.map Prod.fst).nodup_iff.mpr hm
  refine Option.ext fun v => ?_
  rw [find?_eq_some_iff hm', find?_eq_some_iff hm, hperm.mem_iff]

/-- Removing a key takes its entry away; the last one may come into its place. -/
lemma perm_erase (h : find? m key = some v) : ((key, v) :: erase m key).Perm m := by
  induction m with
  | nil => simp [find?] at h
  | cons e rest ih =>
    rw [find?] at h
    rw [erase]
    split_ifs at h ⊢ with hkey
    · obtain rfl : e = (key, v) := by rw [← hkey, ← Option.some.inj h]
      cases hlast : rest.getLast? with
      | none =>
        rw [List.getLast?_eq_none_iff] at hlast
        rw [hlast]
      | some last =>
        obtain ⟨before, rfl⟩ := List.getLast?_eq_some_iff.mp hlast
        rw [List.dropLast_concat]
        exact (List.perm_append_singleton last before).symm.cons _
    · exact (List.Perm.swap e (key, v) _).trans ((ih h).cons e)

/-- The values of keys after one of them is removed. -/
lemma find?_erase (hm : (keys m).Nodup) (h : find? m key = some v) (other : String) :
    find? (erase m key) other = if key = other then none else find? m other := by
  have hperm := perm_erase h
  have hnodup : (keys ((key, v) :: erase m key)).Nodup := (hperm.map Prod.fst).nodup_iff.mpr hm
  rw [← find?_of_perm hm hperm other, find?]
  split_ifs with hother
  · rw [keys_cons, List.nodup_cons] at hnodup
    exact find?_eq_none_iff.mpr (hother ▸ hnodup.1)
  · rfl

/-- A change of a value that a key has depends on this value alone. -/
lemma alter_const (h : find? m key = some v) (f : Value → Value) :
    (alter m key fun _ => f v) = alter m key f := by
  induction m with
  | nil => simp [find?] at h
  | cons e rest ih =>
    rw [find?] at h
    rw [alter, alter]
    split_ifs at h ⊢
    · rw [Option.some.inj h]
    · rw [ih h]

end Mapping

namespace Value

variable {u v w : Value} {component other : String} {p q : List String} {step : Step}
  {P : List Step}

/-! ### The places of paths -/

/-- The step that a component takes from a container. -/
def step? (v : Value) (component : String) : Option Step :=
  match v with
  | .obj _ => some (.key component)
  | .arr items => (KeyPath.index? component items.length).map .index
  | _ => none

/-- The place that a path leads to, if it leads to any. -/
def place? (v : Value) (path : List String) : Option (List Step) :=
  match path with
  | [] => some []
  | component :: rest =>
    (v.step? component).bind fun step =>
      (v.child? component).bind fun w => (place? w rest).map (step :: ·)

/-- Whether two paths lead to places one of which is, or is above, the other. -/
def Meet (v : Value) (p q : List String) : Prop :=
  ∃ P ∈ v.place? p, ∃ Q ∈ v.place? q, P <+: Q ∨ Q <+: P

/-- A child is one step away. -/
lemma exists_step?_of_child? (h : v.child? component = some w) :
    ∃ step, v.step? component = some step ∧ v.at? [step] = some w := by
  cases v with
  | obj m => exact ⟨.key component, rfl, by rw [at?_key h, at?]⟩
  | arr items =>
    obtain ⟨i, hi, hw⟩ := Option.bind_eq_some_iff.mp h
    exact ⟨.index i, by rw [step?, hi, Option.map_some], by rw [at?_index hw, at?]⟩
  | _ => cases h

/-- Components that take the same step lead to the same child. -/
lemma child?_congr (h : v.step? other = v.step? component) :
    v.child? other = v.child? component := by
  cases v with
  | obj m => rw [Step.key.inj (Option.some.inj h)]
  | arr items =>
    have hindex : KeyPath.index? other items.length = KeyPath.index? component items.length :=
      Option.map_injective (fun _ _ => Step.index.inj) h
    rw [child?, child?, hindex]
  | _ => rfl

/-- The place of a path below a child. -/
lemma place?_cons (hw : v.child? component = some w) (hstep : v.step? component = some step)
    (rest : List String) : v.place? (component :: rest) = (w.place? rest).map (step :: ·) := by
  rw [place?, hstep, hw]
  rfl

/-- A path finds what stands at its place. -/
lemma lookup?_eq_at?_place? (v : Value) (path : List String) :
    v.lookup? path = (v.place? path).bind v.at? := by
  induction path generalizing v with
  | nil => rfl
  | cons component rest ih =>
    rw [lookup?]
    cases hchild : v.child? component with
    | none =>
      rw [place?, hchild]
      cases v.step? component <;> rfl
    | some w =>
      obtain ⟨step, hstep, hat⟩ := exists_step?_of_child? hchild
      have hbelow : ∀ place, v.at? (step :: place) = w.at? place := by
        intro place
        rw [← List.singleton_append, at?_append, hat, Option.bind_some]
      rw [place?_cons hchild hstep, Option.bind_some, ih w, Option.bind_map]
      congr 1
      funext place
      exact (hbelow place).symm

/-- A path that finds something has a place. -/
lemma exists_place?_of_lookup? (h : v.lookup? p = some w) : ∃ P, v.place? p = some P := by
  rw [lookup?_eq_at?_place?] at h
  obtain ⟨P, hP, -⟩ := Option.bind_eq_some_iff.mp h
  exact ⟨P, hP⟩

/-- What is found along a path has distinct keys. -/
lemma Distinct.of_lookup? (hv : v.Distinct) (h : v.lookup? p = some w) : w.Distinct := by
  rw [lookup?_eq_at?_place?] at h
  obtain ⟨P, -, hat⟩ := Option.bind_eq_some_iff.mp h
  exact hv.of_at? hat

/-- A path that goes on below a child, and its place. -/
lemma exists_child_of_lookup?_cons (hw : v.lookup? (component :: p) = some w)
    (hP : v.place? (component :: p) = some P) :
    ∃ u step below, v.child? component = some u ∧ v.step? component = some step ∧
      u.lookup? p = some w ∧ u.place? p = some below ∧ P = step :: below := by
  obtain ⟨u, hu, hw⟩ := Option.bind_eq_some_iff.mp hw
  obtain ⟨step, hstep, -⟩ := exists_step?_of_child? hu
  rw [place?_cons hu hstep] at hP
  obtain ⟨below, hbelow, rfl⟩ := Option.map_eq_some_iff.mp hP
  exact ⟨u, step, below, hu, hstep, hw, hbelow, rfl⟩

/-- The place of a path in two parts. -/
lemma place?_append (hp : v.lookup? p = some w) (hP : v.place? p = some P) (q : List String) :
    v.place? (p ++ q) = (w.place? q).map (P ++ ·) := by
  induction p generalizing v P with
  | nil =>
    obtain rfl := Option.some.inj hp
    obtain rfl := Option.some.inj hP
    simp
  | cons component rest ih =>
    obtain ⟨u, step, below, hu, hstep, hfound, hbelow, rfl⟩ := exists_child_of_lookup?_cons hp hP
    rw [List.cons_append, place?_cons hu hstep, ih hfound hbelow, Option.map_map]
    rfl

/-! ### Two spellings of an index -/

end Value

/-- Whether two paths part at a sequence, the same index being spelled in two ways. -/
def KeyPath.Fork.IsRespelling (fork : KeyPath.Fork) (v : Value) : Prop :=
  ∃ items i, v.lookup? fork.shared = some (.arr items) ∧
    KeyPath.index? fork.left items.length = some i ∧
      KeyPath.index? fork.right items.length = some i

namespace Value

variable {u v w : Value} {component other : String} {p q : List String} {step : Step}
  {P : List Step}

/-- Paths that meet take one step, and meet below the child it leads to. -/
lemma Meet.of_cons (h : v.Meet (component :: p) (other :: q)) :
    v.step? other = v.step? component ∧ ∃ u, v.child? component = some u ∧ u.Meet p q := by
  obtain ⟨P, hP, Q, hQ, hPQ⟩ := h
  obtain ⟨step, hstep, hP⟩ := Option.bind_eq_some_iff.mp hP
  obtain ⟨u, hu, hP⟩ := Option.bind_eq_some_iff.mp hP
  obtain ⟨P', hP', rfl⟩ := Option.map_eq_some_iff.mp hP
  obtain ⟨step', hstep', hQ⟩ := Option.bind_eq_some_iff.mp hQ
  obtain ⟨u', hu', hQ⟩ := Option.bind_eq_some_iff.mp hQ
  obtain ⟨Q', hQ', rfl⟩ := Option.map_eq_some_iff.mp hQ
  rw [List.cons_prefix_cons, List.cons_prefix_cons] at hPQ
  obtain rfl : step' = step := hPQ.elim (fun h => h.1.symm) And.left
  have hsame : v.step? other = v.step? component := by rw [hstep, hstep']
  rw [child?_congr hsame, hu] at hu'
  obtain rfl := Option.some.inj hu'
  exact ⟨hsame, u, hu, P', hP', Q', hQ', hPQ.imp And.right And.right⟩

/-- Paths that meet though neither is part of the other spell an index in two ways. -/
lemma Meet.exists_respelling (h : v.Meet p q) (hpq : ¬ p <+: q) (hqp : ¬ q <+: p) :
    ∃ fork : KeyPath.Fork, fork.leftPath = p ∧ fork.rightPath = q ∧ fork.IsRespelling v := by
  induction p generalizing v q with
  | nil => exact absurd List.nil_prefix hpq
  | cons component rest ih =>
    cases q with
    | nil => exact absurd List.nil_prefix hqp
    | cons other others =>
      obtain ⟨hstep, u, hu, hmeet⟩ := h.of_cons
      by_cases hne : component = other
      · subst hne
        rw [List.prefix_cons_inj] at hpq hqp
        obtain ⟨fork, rfl, rfl, items, i, hshared, hindex⟩ := ih hmeet hpq hqp
        refine ⟨fork.cons component, rfl, rfl, items, i, ?_, hindex⟩
        exact Option.bind_eq_some_iff.mpr ⟨u, hu, hshared⟩
      · refine ⟨⟨[], component, rest, other, others, hne⟩, rfl, rfl, ?_⟩
        cases v with
        | obj m => exact absurd (Step.key.inj (Option.some.inj hstep)).symm hne
        | arr items =>
          obtain ⟨i, hi, -⟩ := Option.bind_eq_some_iff.mp hu
          have hother : KeyPath.index? other items.length = some i :=
            (Option.map_injective (fun _ _ => Step.index.inj) hstep).trans hi
          exact ⟨items, i, rfl, hi, hother⟩
        | _ => cases hu

/-! ### Where a path lies to another one -/

/-- The children of a value after a change of one that was there. -/
lemma child?_alterChild (hw : v.child? component = some w) (other : String) (f : Value → Value) :
    (v.alterChild component f).child? other =
      if v.step? other = v.step? component then some (f w) else v.child? other := by
  by_cases hne : component = other
  · rw [← hne, child?_alterChild_self, hw, if_pos rfl, Option.getD_some]
  · rw [child?_alterChild_of_ne hne]
    cases v with
    | obj m => exact (if_neg fun h => hne (Step.key.inj (Option.some.inj h)).symm).symm
    | arr items =>
      obtain ⟨i, hi, hget⟩ := Option.bind_eq_some_iff.mp hw
      have hstep : (arr items).step? other = (arr items).step? component ↔
          KeyPath.index? other items.length = some i := by
        rw [step?, step?, hi]
        cases KeyPath.index? other items.length <;> simp
      simp only [hi, hstep, hget, Option.map_some]
    | _ => cases hw

/-- The ways in which a path can lie to another one that finds something. It goes through
what this one finds, or it leads to something above that, or it does not depend on what is
put there. -/
lemma lookup?_assign_cases (hw : v.lookup? p = some w) (hP : v.place? p = some P)
    (q : List String) :
    (∃ rest, v.lookup? q = w.lookup? rest ∧ v.place? q = (w.place? rest).map (P ++ ·) ∧
      ∀ new, (v.assign p new).lookup? q = new.lookup? rest) ∨
    (∃ Q, v.place? q = some Q ∧ Q <+: P) ∨
    ∀ new, (v.assign p new).lookup? q = v.lookup? q := by
  induction p generalizing v q P with
  | nil =>
    obtain rfl := Option.some.inj hw
    obtain rfl := Option.some.inj hP
    exact .inl ⟨q, rfl, by simp, fun new => rfl⟩
  | cons component p ih =>
    obtain ⟨u, step, below, hu, hstep, hfound, hbelow, rfl⟩ := exists_child_of_lookup?_cons hw hP
    cases q with
    | nil => exact .inr (.inl ⟨[], rfl, List.nil_prefix⟩)
    | cons other q =>
      have hassign : ∀ new, (v.assign (component :: p) new).lookup? (other :: q) =
          ((v.alterChild component fun w => w.assign p new).child? other).bind (·.lookup? q) :=
        fun new => rfl
      by_cases hsame : v.step? other = v.step? component
      · -- both paths go on below the same child
        have hother : v.child? other = some u := (child?_congr hsame).trans hu
        have hplace := place?_cons hother (hsame.trans hstep) q
        have hfind : v.lookup? (other :: q) = u.lookup? q := by rw [lookup?, hother]; rfl
        simp only [hassign, child?_alterChild hu, if_pos hsame, Option.bind_some, hfind, hplace]
        rcases ih hfound hbelow q with ⟨rest, hlookup, hq, hnew⟩ | ⟨Q, hQ, hpre⟩ | hnew
        · refine .inl ⟨rest, hlookup, ?_, hnew⟩
          rw [hq, Option.map_map]
          rfl
        · exact .inr (.inl ⟨step :: Q, by rw [hQ]; rfl, List.cons_prefix_cons.mpr ⟨rfl, hpre⟩⟩)
        · exact .inr (.inr hnew)
      · refine .inr (.inr fun new => ?_)
        rw [hassign, child?_alterChild hu, if_neg hsame, lookup?]

/-- At a place that is neither above nor below the one where a value was put stands what
stood there. -/
lemma at?_assign_of_apart (hw : v.lookup? p = some w) (hP : v.place? p = some P)
    {place : List Step} (h : ¬ P <+: place) (h' : ¬ place <+: P) (new : Value) :
    (v.assign p new).at? place = v.at? place := by
  induction p generalizing v P place with
  | nil =>
    obtain rfl := Option.some.inj hP
    exact absurd List.nil_prefix h
  | cons component p ih =>
    obtain ⟨u, step, below, hu, hstep, hfound, hbelow, rfl⟩ := exists_child_of_lookup?_cons hw hP
    cases place with
    | nil => exact absurd List.nil_prefix h'
    | cons next place =>
      rw [List.cons_prefix_cons, not_and] at h h'
      cases v with
      | obj m =>
        obtain rfl := Option.some.inj hstep
        cases next with
        | index i => rfl
        | key k =>
          show (Mapping.find? (Mapping.alter m component fun w => w.assign p new) k).bind _ = _
          rw [Mapping.find?_alter, at?]
          split_ifs with hk
          · subst hk
            have hfind : Mapping.find? m component = some u := hu
            rw [hfind, Option.getD_some, Option.bind_some, Option.bind_some]
            exact ih hfound hbelow (h rfl) (h' rfl)
          · rfl
      | arr items =>
        obtain ⟨i, hi, hget⟩ := Option.bind_eq_some_iff.mp hu
        rw [step?, hi] at hstep
        obtain rfl := Option.some.inj hstep
        have hassign : (arr items).assign (component :: p) new =
            .arr (items.modify i fun w => w.assign p new) := by
          rw [assign, alter, alterChild, hi]
          rfl
        rw [hassign]
        cases next with
        | key k => rfl
        | index j =>
          rw [at?, at?, List.getElem?_modify]
          by_cases hij : i = j
          · subst hij
            rw [hget]
            simpa using ih hfound hbelow (h rfl) (h' rfl)
          · simp [hij]
      | _ => cases hu

/-! ### Parents -/

/-- A container without its child under a component. -/
def withoutChild (v : Value) (component : String) : Value :=
  match v with
  | .obj m => .obj (Mapping.erase m component)
  | .arr items =>
    match KeyPath.index? component items.length with
    | some i => .arr (items.eraseIdx i)
    | none => .arr items
  | v => v

lemma takeChild?_eq (v : Value) (component : String) :
    Store.takeChild? v component = (v.child? component).map (·, v.withoutChild component) := by
  cases v with
  | arr items =>
    rw [Store.takeChild?, child?, withoutChild]
    cases KeyPath.index? component items.length <;> rfl
  | _ => rfl

/-- A change of a child that is there depends on this child alone. -/
lemma alterChild_const (hw : v.child? component = some w) (f : Value → Value) :
    (v.alterChild component fun _ => f w) = v.alterChild component f := by
  cases v with
  | obj m =>
    rw [alterChild, alterChild, Mapping.alter_const hw]
  | arr items =>
    obtain ⟨i, hi, hget⟩ := Option.bind_eq_some_iff.mp hw
    have hmodify : (items.modify i fun _ => f w) = items.modify i f := by
      refine List.ext_getElem? fun j => ?_
      rw [List.getElem?_modify, List.getElem?_modify]
      split_ifs with hij
      · rw [← hij, hget]
        rfl
      · rfl
    simp only [alterChild, hi, hmodify]
  | _ => cases hw

end Value

/-- A value is taken away by putting its parent without it in the place of the parent. -/
lemma Store.take?_concat (v : Value) (parents : List String) (last : String) :
    take? v (parents ++ [last]) =
      (v.lookup? parents).bind fun parent =>
        (parent.child? last).map (·, v.assign parents (parent.withoutChild last)) := by
  induction parents generalizing v with
  | nil => exact Value.takeChild?_eq v last
  | cons component parents ih =>
    have hne : parents ++ [last] ≠ [] := by simp
    obtain ⟨next, rest, hrest⟩ := List.exists_cons_of_ne_nil hne
    rw [List.cons_append, hrest, take?, ← hrest, Value.lookup?]
    cases hchild : v.child? component with
    | none => rfl
    | some w =>
      have hassign : ∀ new, (v.alterChild component fun _ => w.assign parents new) =
          v.assign (component :: parents) new :=
        fun new => Value.alterChild_const hchild fun w => w.assign parents new
      simp only [ih w, Option.bind_some, Option.map_bind]
      congr 1
      funext parent
      rw [Function.comp_apply, Option.map_map]
      congr 1
      funext removed
      exact congrArg (Prod.mk removed) (hassign _)

namespace Value

variable {v w removed : Value} {m : Mapping} {parents q : List String} {last : String}

/-! ### A mapping as the parent -/

/-- What a path finds after a key is removed from a mapping, unless it meets the path of
the removed value. -/
lemma lookup?_erase_of_not_meet (hparent : v.lookup? parents = some (.obj m))
    (hm : (Mapping.keys m).Nodup) (hlast : Mapping.find? m last = some removed)
    (hq : ¬ v.Meet (parents ++ [last]) q) :
    (v.assign parents (.obj (Mapping.erase m last))).lookup? q = v.lookup? q := by
  obtain ⟨P, hP⟩ := exists_place?_of_lookup? hparent
  have hplace : v.place? (parents ++ [last]) = some (P ++ [.key last]) := by
    have hchild : (obj m).child? last = some removed := hlast
    rw [place?_append hparent hP, place?_cons hchild rfl]
    rfl
  have hmeet : ∀ Q, v.place? q = some Q → ¬ P ++ [.key last] <+: Q ∧ ¬ Q <+: P ++ [.key last] :=
    fun Q hQ => ⟨fun h => hq ⟨_, hplace, Q, hQ, .inl h⟩, fun h => hq ⟨_, hplace, Q, hQ, .inr h⟩⟩
  rcases lookup?_assign_cases hparent hP q with ⟨rest, hfind, hQ, hnew⟩ | ⟨Q, hQ, habove⟩ | hnew
  · -- the path goes through the mapping
    rw [hnew, hfind]
    cases rest with
    | nil =>
      rw [place?, Option.map_some, List.append_nil] at hQ
      exact absurd (List.prefix_append P _) (hmeet P hQ).2
    | cons key rest =>
      rw [lookup?, lookup?, child?, child?, Mapping.find?_erase hm hlast]
      split_ifs with hkey
      · subst hkey
        -- the path goes through the key, so it found nothing before
        rw [hlast, Option.bind_some]
        cases hbelow : removed.lookup? rest with
        | none => rfl
        | some u =>
          obtain ⟨R, hR⟩ := exists_place?_of_lookup? hbelow
          have hchild : (obj m).child? last = some removed := hlast
          rw [place?_cons hchild rfl, hR] at hQ
          refine absurd ?_ (hmeet _ hQ).1
          simp
      · rfl
  · exact absurd (habove.trans (List.prefix_append P _)) (hmeet Q hQ).2
  · exact hnew _

end Value

namespace Store

open Value

/-- What is left of some settings when a value is taken away. -/
lemma exists_obj_assign {m : Mapping} {parents : List String} {parent : Value}
    (hparent : (Value.obj m).lookup? parents = some parent) (last : String) :
    ∃ m', (Value.obj m).assign parents (parent.withoutChild last) = .obj m' := by
  cases parents with
  | nil =>
    obtain rfl := Option.some.inj hparent
    exact ⟨_, rfl⟩
  | cons first rest => exact ⟨_, obj_assign (List.cons_ne_nil first rest) m _⟩

/-- Removing a value in terms of its parent. -/
lemma remove?_of_mutable {s : Store} (hmut : s.mutable = true) {path : String}
    {parents : List String} {last : String} (hsplit : KeyPath.split path = parents ++ [last]) :
    (s.get? path = none ∧ s.remove? path = .ok (none, s)) ∨
      ∃ removed parent s', s.get? path = some removed ∧
        (Value.obj s.settings).lookup? parents = some parent ∧
        parent.child? last = some removed ∧ s.remove? path = .ok (some removed, s') ∧
        s'.mutable = true ∧
        Value.obj s'.settings =
          (Value.obj s.settings).assign parents (parent.withoutChild last) := by
  have hget : s.get? path =
      ((Value.obj s.settings).lookup? parents).bind (·.child? last) := by
    rw [get?_eq_lookup?, hsplit, lookup?_append]
    congr 1
    funext parent
    rw [Value.lookup?]
    cases parent.child? last <;> rfl
  have htake := take?_concat (.obj s.settings) parents last
  rw [← hsplit] at htake
  cases hparent : (Value.obj s.settings).lookup? parents with
  | none =>
    rw [hparent] at hget htake
    refine .inl ⟨hget, ?_⟩
    rw [remove?, guarded, if_pos hmut, htake]
    rfl
  | some parent =>
    rw [hparent] at hget htake
    cases hchild : parent.child? last with
    | none =>
      rw [Option.bind_some, hchild] at hget htake
      refine .inl ⟨hget, ?_⟩
      rw [remove?, guarded, if_pos hmut, htake]
      rfl
    | some removed =>
      rw [Option.bind_some, hchild] at hget htake
      obtain ⟨m', hm'⟩ := exists_obj_assign hparent last
      refine .inr ⟨removed, parent, { s with settings := m' }, hget, rfl, hchild, ?_, hmut,
        hm'.symm⟩
      rw [remove?, guarded, if_pos hmut, htake, hm']
      rfl

/-- **Removing** a value from a store that is not locked gives back what was found at the
path. If nothing was, the store stays as it is. Otherwise the parent, the container that
the path without its last component leads to, is put in its place without the value, and
nothing else changes. If it is a mapping, the path finds nothing afterwards, and a path
that is no part of it, nor has it as a part, finds what it found before, unless the two
paths meet where they spell one index in two ways. If it is a sequence, the item at the
index that the last component writes is gone from it, the others being there in order, and
all places that are neither above nor below it are as they were. -/
theorem remove?_exact {s : Store} (hmut : s.mutable = true) (hd : DistinctEntries s.settings)
    (path : String) :
    ∃ s' parents last, s.remove? path = .ok (s.get? path, s') ∧ s'.mutable = true ∧
      KeyPath.split path = parents ++ [last] ∧
      (s.get? path = none → s' = s) ∧
      ((s.get? path).isSome = true →
        (∃ m, (Value.obj s.settings).lookup? parents = some (.obj m) ∧
          Value.obj s'.settings =
            (Value.obj s.settings).assign parents (.obj (Mapping.erase m last)) ∧
          s'.get? path = none ∧
          ∀ other, ¬ KeyPath.split path <+: KeyPath.split other →
            ¬ KeyPath.split other <+: KeyPath.split path →
            s'.get? other = s.get? other ∨
              (Value.obj s.settings).Meet (KeyPath.split path) (KeyPath.split other) ∧
              ∃ fork : KeyPath.Fork, fork.leftPath = KeyPath.split path ∧
                fork.rightPath = KeyPath.split other ∧ fork.IsRespelling (.obj s.settings)) ∨
        ∃ items i P, (Value.obj s.settings).lookup? parents = some (.arr items) ∧
          KeyPath.index? last items.length = some i ∧
          Value.obj s'.settings =
            (Value.obj s.settings).assign parents (.arr (items.eraseIdx i)) ∧
          (Value.obj s.settings).place? parents = some P ∧
          ∀ place, ¬ P <+: place → ¬ place <+: P →
            (Value.obj s'.settings).at? place = (Value.obj s.settings).at? place) := by
  have hsplit : KeyPath.split path = (KeyPath.split path).dropLast ++
      [(KeyPath.split path).getLast (KeyPath.split_ne_nil path)] :=
    (List.dropLast_concat_getLast _).symm
  generalize (KeyPath.split path).dropLast = parents at hsplit
  generalize (KeyPath.split path).getLast _ = last at hsplit
  rcases remove?_of_mutable hmut hsplit with
    ⟨hget, hremove⟩ | ⟨removed, parent, s', hget, hparent, hchild, hremove, hmut', hs'⟩
  · refine ⟨s, parents, last, by rw [hremove, hget], hmut, hsplit, fun _ => rfl, fun hsome => ?_⟩
    rw [hget] at hsome
    exact absurd hsome (by simp)
  · refine ⟨s', parents, last, by rw [hremove, hget], hmut', hsplit, fun hnone => ?_, fun _ => ?_⟩
    · rw [hget] at hnone
      exact absurd hnone (by simp)
    cases parent with
    | obj m =>
      have hm : (Mapping.keys m).Nodup :=
        DistinctEntries.nodup (Distinct.of_lookup? (v := .obj s.settings) hd hparent)
      have hfound : ∀ p, s'.get? p =
          ((Value.obj s.settings).assign parents (.obj (Mapping.erase m last))).lookup?
            (KeyPath.split p) := fun p => by rw [get?_eq_lookup?, hs']; rfl
      refine .inl ⟨m, hparent, hs', ?_, fun other hnot hnot' => ?_⟩
      · rw [hfound, hsplit, lookup?_assign_append, Value.lookup?, child?,
          Mapping.find?_erase hm hchild, if_pos rfl]
        rfl
      · by_cases hmeet : (Value.obj s.settings).Meet (KeyPath.split path) (KeyPath.split other)
        · exact .inr ⟨hmeet, hmeet.exists_respelling hnot hnot'⟩
        · rw [hsplit] at hmeet
          rw [hfound, lookup?_erase_of_not_meet hparent hm hchild hmeet, get?_eq_lookup?]
          exact .inl rfl
    | arr items =>
      obtain ⟨i, hi, -⟩ := Option.bind_eq_some_iff.mp hchild
      obtain ⟨P, hP⟩ := exists_place?_of_lookup? hparent
      have hleft : (Value.arr items).withoutChild last = .arr (items.eraseIdx i) := by
        simp only [withoutChild, hi]
      rw [hleft] at hs'
      refine .inr ⟨items, i, P, hparent, hi, hs', hP, fun place h h' => ?_⟩
      rw [hs', at?_assign_of_apart hparent hP h h']
    | _ => cases hchild

/-- Settings with mappings in a sequence, and a sequence in one of them. -/
def pagedSettings : Mapping :=
  [("pages", .arr [.null, .obj [("title", .str "Home"), ("menu", .arr [.bool true, .null]),
    ("foot", .obj [("title", .str "End")])]]), ("lang", .str "en")]

/-- A key is removed from the mapping at an index, and another spelling of the index leads
to the other keys as before. -/
theorem remove?_exact_paged :
    let s : Store := ⟨pagedSettings, true⟩
    let path := "pages.1.title"
    let other := "pages.+01.foot.title"
    (s.mutable = true ∧ DistinctEntries s.settings ∧ (s.get? path).isSome = true ∧
      ¬ KeyPath.split path <+: KeyPath.split other ∧
      ¬ KeyPath.split other <+: KeyPath.split path) ∧
    ∃ s' parents last, s.remove? path = .ok (s.get? path, s') ∧ s'.mutable = true ∧
      KeyPath.split path = parents ++ [last] ∧
      ((∃ m, (Value.obj s.settings).lookup? parents = some (.obj m) ∧
          Value.obj s'.settings =
            (Value.obj s.settings).assign parents (.obj (Mapping.erase m last)) ∧
          s'.get? path = none ∧
          (s'.get? other = s.get? other ∨
              (Value.obj s.settings).Meet (KeyPath.split path) (KeyPath.split other) ∧
              ∃ fork : KeyPath.Fork, fork.leftPath = KeyPath.split path ∧
                fork.rightPath = KeyPath.split other ∧ fork.IsRespelling (.obj s.settings))) ∨
        ∃ items i P, (Value.obj s.settings).lookup? parents = some (.arr items) ∧
          KeyPath.index? last items.length = some i ∧
          Value.obj s'.settings =
            (Value.obj s.settings).assign parents (.arr (items.eraseIdx i)) ∧
          (Value.obj s.settings).place? parents = some P ∧
          ∀ place, ¬ P <+: place → ¬ place <+: P →
            (Value.obj s'.settings).at? place = (Value.obj s.settings).at? place) := by
  intro s path other
  have hd : DistinctEntries s.settings := by decide
  have hsome : (s.get? path).isSome = true := by decide +kernel
  have hnot : ¬ KeyPath.split path <+: KeyPath.split other := by decide +kernel
  have hnot' : ¬ KeyPath.split other <+: KeyPath.split path := by decide +kernel
  obtain ⟨s', parents, last, hremove, hmut, hsplit, -, heffect⟩ :=
    remove?_exact (s := s) rfl hd path
  refine ⟨⟨rfl, hd, hsome, hnot, hnot'⟩, s', parents, last, hremove, hmut, hsplit, ?_⟩
  rcases heffect hsome with ⟨m, hparent, hs', hnone, hframe⟩ | harr
  · exact .inl ⟨m, hparent, hs', hnone, hframe other hnot hnot'⟩
  · exact .inr harr

/-- The last key comes into the place of a removed one, and items move up. -/
example :
    let s : Store := ⟨pagedSettings, true⟩
    let after path := (s.remove? path).toOption.map fun r => r.2.get? "pages.1"
    after "pages.01.title" = some (some (.obj [("foot", .obj [("title", .str "End")]),
        ("menu", .arr [.bool true, .null])])) ∧
      after "pages.0" = some none ∧
      after "pages.1.menu.0" = some (some (.obj [("title", .str "Home"), ("menu", .arr [.null]),
        ("foot", .obj [("title", .str "End")])])) := by
  decide +kernel

end Store

end PageTree
