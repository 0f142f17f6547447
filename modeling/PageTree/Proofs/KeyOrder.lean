/-
Values up to the order of keys.

Two values are alike if they differ in the order of the entries of their mappings alone,
at any depth. Such values say the same along every path, and stay alike when their
strings are changed by functions that agree on them.

* `Value.Alike`: values up to the order of keys;
* `Value.alike_of_find?`: mappings known by the values of their keys;
* `Value.Alike.lookup?`, `Value.Alike.mapStrings`: **paths and strings**;
* `Value.Alike.same`: alike values are equal as values are compared.
-/
import PageTree.Proofs.Strings

namespace PageTree

/-- A number is equal to itself. -/
lemma Number.same_self (n : Number) : n.same n = true := by
  cases n <;> exact beq_self_eq_true _

namespace Value

mutual

/-- Whether two values differ in the order of keys alone. -/
def Alike : Value → Value → Prop
  | .arr items, w => ∃ items', w = .arr items' ∧ AlikeItems items items'
  | .obj entries, w =>
    ∃ entries', w = .obj entries' ∧ (Mapping.keys entries').Perm (Mapping.keys entries) ∧
      AlikeEntries entries entries'
  | v, w => w = v

/-- Whether the items of two sequences differ in the order of keys alone. -/
def AlikeItems : List Value → List Value → Prop
  | [], ws => ws = []
  | v :: rest, ws => ∃ w rest', ws = w :: rest' ∧ Alike v w ∧ AlikeItems rest rest'

/-- Whether each of some entries has a value in a mapping from which it differs in the
order of keys alone. -/
def AlikeEntries : List (String × Value) → Mapping → Prop
  | [], _ => True
  | (k, v) :: rest, m => (∃ w, Mapping.find? m k = some w ∧ Alike v w) ∧ AlikeEntries rest m

end

variable {v w : Value} {items items' : List Value} {m m' : Mapping}

lemma alikeEntries_iff :
    AlikeEntries m m' ↔ ∀ e ∈ m, ∃ w, Mapping.find? m' e.1 = some w ∧ Alike e.2 w := by
  induction m with
  | nil => simp [AlikeEntries]
  | cons e rest ih => rw [AlikeEntries, ih, List.forall_mem_cons]

/-! ### The values of keys -/

/-- Mappings known by the values of their keys. -/
lemma alike_of_find? (hm : (Mapping.keys m).Nodup) (hm' : (Mapping.keys m').Nodup)
    (h : ∀ key, Option.Rel Alike (Mapping.find? m key) (Mapping.find? m' key)) :
    Alike (.obj m) (.obj m') := by
  refine ⟨m', rfl, (List.perm_ext_iff_of_nodup hm' hm).mpr fun key => ?_, ?_⟩
  · -- a key has a value in both mappings or in none
    have hkey := h key
    rw [← not_iff_not, ← Mapping.find?_eq_none_iff, ← Mapping.find?_eq_none_iff]
    constructor
    · intro hnone
      rw [hnone] at hkey
      cases hfind : Mapping.find? m key with
      | none => rfl
      | some v =>
        rw [hfind] at hkey
        cases hkey
    · intro hnone
      rw [hnone] at hkey
      exact eq_none_of_rel hkey
  · refine alikeEntries_iff.mpr fun e he => ?_
    have hkey := h e.1
    rw [(Mapping.find?_eq_some_iff hm).mpr he] at hkey
    exact exists_of_some_rel hkey

/-- A value is alike itself. -/
theorem Alike.refl (hv : v.Distinct) : Alike v v := by
  induction v using Value.ind with
  | null | bool _ | num _ | str _ => rfl
  | arr items ih =>
    refine ⟨items, rfl, ?_⟩
    rw [Distinct, distinctItems_iff] at hv
    induction items with
    | nil => rfl
    | cons v rest ihrest =>
      rw [List.forall_mem_cons] at ih hv
      exact ⟨v, rest, rfl, ih.1 hv.1, ihrest ih.2 hv.2⟩
  | obj m ih =>
    obtain ⟨hnodup, hdistinct⟩ := distinctEntries_iff.mp hv
    refine ⟨m, rfl, .refl _, alikeEntries_iff.mpr fun e he => ?_⟩
    exact ⟨e.2, (Mapping.find?_eq_some_iff hnodup).mpr he, ih e he (hdistinct e he)⟩

/-- The value of a key in alike mappings. -/
lemma Alike.find? (h : Alike (.obj m) (.obj m')) (key : String) :
    Option.Rel Alike (Mapping.find? m key) (Mapping.find? m' key) := by
  obtain ⟨_, heq, hperm, hentries⟩ := h
  obtain rfl := Value.obj.inj heq
  cases hfind : Mapping.find? m key with
  | none =>
    rw [Mapping.find?_eq_none_iff, ← hperm.mem_iff, ← Mapping.find?_eq_none_iff] at hfind
    rw [hfind]
    exact .none
  | some v =>
    obtain ⟨w, hw, hvw⟩ := alikeEntries_iff.mp hentries _ (Mapping.mem_of_find? hfind)
    rw [hw]
    exact .some hvw

/-! ### Paths -/

lemma AlikeItems.forall₂ (h : AlikeItems items items') : List.Forall₂ Alike items items' := by
  induction items generalizing items' with
  | nil =>
    cases h
    exact .nil
  | cons v rest ih =>
    obtain ⟨w, rest', rfl, hv, hrest⟩ := h
    exact .cons hv (ih hrest)

/-- The child of a value under a component. -/
lemma Alike.child? (h : Alike v w) (component : String) :
    Option.Rel Alike (v.child? component) (w.child? component) := by
  cases v with
  | arr items =>
    obtain ⟨items', rfl, hitems⟩ := h
    rw [Value.child?, Value.child?, ← hitems.forall₂.length_eq]
    cases KeyPath.index? component items.length with
    | none => exact .none
    | some i => exact rel_getElem? hitems.forall₂ i
  | obj m =>
    obtain ⟨m', rfl, -⟩ := id h
    exact h.find? component
  | null | bool _ | num _ | str _ =>
    cases h
    exact .none

/-- What is found along a path. -/
lemma Alike.lookup? (h : Alike v w) (path : List String) :
    Option.Rel Alike (v.lookup? path) (w.lookup? path) := by
  induction path generalizing v w with
  | nil => exact .some h
  | cons component rest ih => exact rel_bind (h.child? component) fun _ _ hvw => ih hvw

/-- What is found along a path in alike mappings. -/
lemma Alike.lookup?_obj (h : Alike (.obj m) (.obj m')) (path : List String) :
    Option.Rel Alike (Mapping.lookup? m path) (Mapping.lookup? m' path) := by
  cases path with
  | nil => exact .none
  | cons component rest =>
    exact rel_bind (h.find? component) fun _ _ hvw => hvw.lookup? rest

/-- A scalar is alike itself alone. -/
lemma Alike.eq_of_isScalar (h : Alike v w) (hv : v.isScalar = true) : w = v := by
  cases v with
  | null | arr _ | obj _ => simp [isScalar] at hv
  | bool _ | num _ | str _ => exact h

/-- Alike mappings say the same of a path if what they say is a scalar. -/
lemma Alike.lookup?_eq (h : Alike (.obj m) (.obj m')) {path : List String}
    (hscalar : ∀ v ∈ Mapping.lookup? m path, v.isScalar = true) :
    Mapping.lookup? m' path = Mapping.lookup? m path :=
  eq_of_rel (h.lookup?_obj path) fun v hv _ hvw => hvw.eq_of_isScalar (hscalar v hv)

/-! ### Strings -/

variable {f g : String → String}

mutual

/-- Alike values stay alike if their strings are changed alike. -/
theorem Alike.mapStrings : ∀ {v w : Value}, Alike v w → (∀ s ∈ v.strings, f s = g s) →
    Alike (v.mapStrings f) (w.mapStrings g)
  | .null, _, hw, _ | .bool _, _, hw, _ | .num _, _, hw, _ => by
    cases hw
    rfl
  | .str s, _, hw, hfg => by
    cases hw
    exact congrArg Value.str (hfg s (List.mem_singleton_self s)).symm
  | .arr _, _, ⟨_, hw, hitems⟩, hfg => by
    subst hw
    exact ⟨_, rfl, hitems.mapItems hfg⟩
  | .obj m, _, ⟨m', hw, hperm, hentries⟩, hfg => by
    subst hw
    refine ⟨_, rfl, ?_, hentries.mapEntries hfg⟩
    rw [keys_mapEntries, keys_mapEntries]
    exact hperm

theorem AlikeItems.mapItems : ∀ {vs ws : List Value}, AlikeItems vs ws →
    (∀ s ∈ itemStrings vs, f s = g s) → AlikeItems (mapItems f vs) (mapItems g ws)
  | [], _, hws, _ => by
    cases hws
    rfl
  | _ :: _, _, ⟨_, _, hws, hv, hrest⟩, hfg => by
    subst hws
    exact ⟨_, _, rfl, hv.mapStrings fun s hs => hfg s (List.mem_append_left _ hs),
      hrest.mapItems fun s hs => hfg s (List.mem_append_right _ hs)⟩

theorem AlikeEntries.mapEntries : ∀ {m m' : Mapping}, AlikeEntries m m' →
    (∀ s ∈ entryStrings m, f s = g s) → AlikeEntries (mapEntries f m) (mapEntries g m')
  | [], _, _, _ => trivial
  | (k, _) :: _, m', ⟨⟨w, hw, hv⟩, hrest⟩, hfg => by
    refine ⟨⟨w.mapStrings g, ?_, hv.mapStrings fun s hs => hfg s (List.mem_append_left _ hs)⟩,
      hrest.mapEntries fun s hs => hfg s (List.mem_append_right _ hs)⟩
    rw [find?_mapEntries, hw, Option.map_some]

end

/-! ### Equality of values -/

mutual

/-- Alike values are equal as values are compared. -/
theorem Alike.same : ∀ {v w : Value}, Alike v w → same v w = true
  | .null, _, hw => by
    cases hw
    rfl
  | .bool b, _, hw => by
    cases hw
    exact beq_self_eq_true b
  | .num n, _, hw => by
    cases hw
    exact n.same_self
  | .str s, _, hw => by
    cases hw
    exact beq_self_eq_true s
  | .arr _, _, ⟨_, hw, hitems⟩ => by
    subst hw
    exact hitems.same
  | .obj m, _, ⟨m', hw, hperm, hentries⟩ => by
    subst hw
    have hlength : m.length = m'.length := by
      simpa [Mapping.keys] using hperm.length_eq.symm
    rw [Value.same, hlength, beq_self_eq_true, Bool.true_and]
    exact hentries.same

theorem AlikeItems.same : ∀ {vs ws : List Value}, AlikeItems vs ws → sameItems vs ws = true
  | [], _, hws => by
    cases hws
    rfl
  | _ :: _, _, ⟨_, _, hws, hv, hrest⟩ => by
    subst hws
    rw [sameItems, hv.same, hrest.same, Bool.true_and]

theorem AlikeEntries.same : ∀ {m m' : Mapping}, AlikeEntries m m' → sameEntries m m' = true
  | [], _, _ => rfl
  | _ :: _, _, ⟨⟨_, hw, hv⟩, hrest⟩ => by
    rw [sameEntries, hw, hrest.same, Bool.and_true]
    exact hv.same

end

end Value

end PageTree
