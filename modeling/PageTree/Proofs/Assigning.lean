/-
Reading after writing.

A value that was put at a path is found there, whatever was on the way before, and what
is below it is found by longer paths. Any other path parts from this one at some value.
There it finds what it found before, unless the value is a sequence: two components may
write one index, and then both paths go on below the same item, or the sequence had to
make room for a mapping, which has nothing for the other path.

* `KeyPath.Fork`: two paths that part;
* `Value.child?_alterChild_self`, `Value.child?_alterChild_of_ne`: the children of a
  value after a change of one;
* `Value.lookup?_assign_append`, `Value.lookup?_assign_prefix`,
  `Value.lookup?_assign_fork`: a path below the one that a value was put at, a path
  above it, and one that parts from it;
* `Value.lookup?_assign_of_not_prefix`: paths of names;
* `Store.get?_of_set?`: **reading after setting**, for every path.
-/
import Mathlib.Tactic.Common
import PageTree.Config.Store

namespace PageTree

/-! ### Mappings -/

namespace Mapping

/-- The value of a key after a change. -/
lemma find?_alter (m : Mapping) (key other : String) (f : Value → Value) :
    find? (alter m key f) other =
      if key = other then some (f ((find? m key).getD .null)) else find? m other := by
  induction m with
  | nil => simp [alter, find?]
  | cons e rest ih =>
    obtain ⟨k, v⟩ := e
    rw [alter]
    by_cases hk : k = key
    · rw [if_pos hk, find?, find?, find?, hk]
      by_cases hother : key = other <;> simp [hother]
    · rw [if_neg hk, find?, find?, find?, ih, if_neg hk]
      by_cases hkother : k = other
      · rw [if_pos hkother, if_neg fun h => hk (hkother.trans h.symm), if_pos hkother]
      · rw [if_neg hkother, if_neg hkother]

end Mapping

/-! ### Paths that part -/

namespace KeyPath

/-- A text has a part in front of its first dot. -/
lemma splitDots_ne_nil (cs : List Char) : splitDots cs ≠ [] := by
  cases cs with
  | nil => simp [splitDots]
  | cons c rest =>
    rw [splitDots]
    split_ifs
    · simp
    · split <;> simp

/-- A path has a first component. -/
lemma split_ne_nil (path : String) : split path ≠ [] := by
  rw [split, ne_eq, List.map_eq_nil_iff]
  exact splitDots_ne_nil path.toList

/-- Whether a component steps into no sequence. -/
def IsName (component : String) : Prop := ∀ length, KeyPath.index? component length = none

/-- The index of a component is one of the sequence. -/
lemma lt_of_index? {component : String} {length i : ℕ} (h : index? component length = some i) :
    i < length := by
  simpa using (Option.filter_eq_some_iff.mp h).2

/-- Two paths that part: what they share, and two different components with what comes
after them. -/
structure Fork where
  shared : List String
  left : String
  leftRest : List String
  right : String
  rightRest : List String
  ne : left ≠ right

namespace Fork

/-- The one path. -/
def leftPath (fork : Fork) : List String := fork.shared ++ fork.left :: fork.leftRest

/-- The other path. -/
def rightPath (fork : Fork) : List String := fork.shared ++ fork.right :: fork.rightRest

/-- Paths that part after one more component. -/
def cons (component : String) (fork : Fork) : Fork :=
  { fork with shared := component :: fork.shared }

/-- Two paths part if neither leads through the other. -/
lemma exists_of_not_prefix {p q : List String} (h : ¬ p <+: q) (h' : ¬ q <+: p) :
    ∃ fork : Fork, fork.leftPath = p ∧ fork.rightPath = q := by
  induction p generalizing q with
  | nil => exact absurd List.nil_prefix h
  | cons component rest ih =>
    cases q with
    | nil => exact absurd List.nil_prefix h'
    | cons first others =>
      by_cases hfirst : component = first
      · subst hfirst
        rw [List.prefix_cons_inj] at h h'
        obtain ⟨fork, rfl, rfl⟩ := ih h h'
        exact ⟨fork.cons component, rfl, rfl⟩
      · exact ⟨⟨[], component, rest, first, others, hfirst⟩, rfl, rfl⟩

end Fork

end KeyPath

/-! ### Children -/

namespace Value

/-- The child that was changed. -/
lemma child?_alterChild_self (v : Value) (component : String) (f : Value → Value) :
    (v.alterChild component f).child? component =
      some (f ((v.child? component).getD .null)) := by
  cases v with
  | obj m =>
    rw [alterChild, child?, child?, Mapping.find?_alter, if_pos rfl]
  | arr items =>
    rw [alterChild, child?]
    cases hindex : KeyPath.index? component items.length with
    | none => simp [child?, Mapping.find?]
    | some i => simp [child?, hindex, KeyPath.lt_of_index? hindex]
  | _ => simp [alterChild, child?, Mapping.find?]

/-- The child under another component: the one that was there, unless both components
are the same index of a sequence, or the sequence became a mapping. -/
lemma child?_alterChild_of_ne {component other : String} (hne : component ≠ other) (v : Value)
    (f : Value → Value) :
    (v.alterChild component f).child? other =
      match v with
      | .arr items =>
        match KeyPath.index? component items.length with
        | some i =>
          if KeyPath.index? other items.length = some i then (items[i]?).map f
          else (Value.arr items).child? other
        | none => none
      | v => v.child? other := by
  cases v with
  | obj m => simp only [alterChild, child?, Mapping.find?_alter, if_neg hne]
  | arr items =>
    simp only [alterChild]
    cases KeyPath.index? component items.length with
    | none => simp [child?, Mapping.find?, hne]
    | some i =>
      simp only [child?, List.length_modify]
      cases KeyPath.index? other items.length with
      | none => rfl
      | some j =>
        by_cases hj : j = i
        · simp [hj]
        · simp [hj, List.getElem?_modify, Ne.symm hj]
  | _ => simp [alterChild, child?, Mapping.find?, hne]

/-! ### Paths -/

/-- A path in two parts. -/
lemma lookup?_append (v : Value) (path rest : List String) :
    v.lookup? (path ++ rest) = (v.lookup? path).bind (·.lookup? rest) := by
  induction path generalizing v with
  | nil => rfl
  | cons component path ih =>
    rw [List.cons_append, lookup?, lookup?, Option.bind_assoc]
    congr 1
    funext w
    exact ih w

/-- Nothing is below a value that is missing. -/
lemma lookup?_null {path : List String} (h : path ≠ []) : null.lookup? path = none := by
  obtain ⟨component, rest, rfl⟩ := List.exists_cons_of_ne_nil h
  rfl

/-- What a path goes through has changed as what it led to before has, null standing for
nothing. -/
lemma lookup?_assign_prefix (v : Value) (path rest : List String) (new : Value) :
    (v.assign (path ++ rest) new).lookup? path =
      some (((v.lookup? path).getD .null).assign rest new) := by
  induction path generalizing v with
  | nil => rfl
  | cons component path ih =>
    rw [List.cons_append, assign, alter, lookup?, child?_alterChild_self, Option.bind_some]
    refine (ih _).trans ?_
    rw [lookup?]
    cases v.child? component with
    | some w => rfl
    | none => cases path <;> rfl

/-- A value is found where it was put, and by longer paths what is below it. -/
lemma lookup?_assign_append (v : Value) (path rest : List String) (new : Value) :
    (v.assign path new).lookup? (path ++ rest) = new.lookup? rest := by
  have hself := lookup?_assign_prefix v path [] new
  rw [List.append_nil] at hself
  rw [lookup?_append, hself]
  rfl

/-- A value is found where it was put. -/
lemma lookup?_assign (v : Value) (path : List String) (new : Value) :
    (v.assign path new).lookup? path = some new := by
  have hself := lookup?_assign_append v path [] new
  rwa [List.append_nil] at hself

/-- What the right path of a fork finds after a value was put at the left one. Where the
paths part at a sequence, they go on below the same item if both are at its index, and
the right path finds nothing if the left one is at no index. -/
def foundBeside (v : Value) (fork : KeyPath.Fork) (new : Value) : Option Value :=
  match v.lookup? fork.shared with
  | some (.arr items) =>
    match KeyPath.index? fork.left items.length with
    | some i =>
      if KeyPath.index? fork.right items.length = some i then
        (items[i]?).bind fun w => (w.assign fork.leftRest new).lookup? fork.rightRest
      else v.lookup? fork.rightPath
    | none => none
  | _ => v.lookup? fork.rightPath

/-- Where nothing is, a path finds nothing beside another one. -/
lemma foundBeside_null (fork : KeyPath.Fork) (new : Value) : null.foundBeside fork new = none := by
  have hright : null.lookup? fork.rightPath = none := lookup?_null (by simp [KeyPath.Fork.rightPath])
  rw [foundBeside]
  cases hshared : fork.shared with
  | nil => exact hright
  | cons component rest => exact hright

/-- A path that parts from the one where a value was put. -/
theorem lookup?_assign_fork (v : Value) (fork : KeyPath.Fork) (new : Value) :
    (v.assign fork.leftPath new).lookup? fork.rightPath = v.foundBeside fork new := by
  obtain ⟨shared, left, leftRest, right, rightRest, hne⟩ := fork
  induction shared generalizing v with
  | nil =>
    -- the paths part at the value itself
    show ((v.alterChild left fun w => w.assign leftRest new).child? right).bind _ = _
    rw [child?_alterChild_of_ne hne]
    cases v with
    | arr items =>
      simp only [foundBeside, KeyPath.Fork.rightPath, lookup?, List.nil_append]
      cases KeyPath.index? left items.length with
      | none => rfl
      | some i =>
        simp only
        split_ifs
        · rw [Option.bind_map]
          rfl
        · rfl
    | _ => rfl
  | cons component shared ih =>
    show ((v.alterChild component fun w => w.assign (shared ++ left :: leftRest) new).child?
      component).bind _ = _
    rw [child?_alterChild_self, Option.bind_some]
    refine (ih _).trans ?_
    have hshared : ∀ rest, v.lookup? (component :: rest) = (v.child? component).bind (·.lookup? rest) :=
      fun _ => rfl
    cases hchild : v.child? component with
    | none =>
      rw [Option.getD_none, foundBeside_null]
      simp [foundBeside, KeyPath.Fork.rightPath, hshared, hchild]
    | some w => simp [foundBeside, KeyPath.Fork.rightPath, hshared, hchild]

/-- A path of names finds what it found before, if a value was put elsewhere. -/
lemma lookup?_assign_of_not_prefix {path other : List String} (h : ¬ path <+: other)
    (h' : ¬ other <+: path) (hnames : ∀ c ∈ other, KeyPath.IsName c) (v new : Value) :
    (v.assign path new).lookup? other = v.lookup? other := by
  obtain ⟨fork, rfl, rfl⟩ := KeyPath.Fork.exists_of_not_prefix h h'
  have hright : ∀ length, KeyPath.index? fork.right length = none :=
    hnames _ (by simp [KeyPath.Fork.rightPath])
  rw [lookup?_assign_fork, foundBeside]
  cases hshared : v.lookup? fork.shared with
  | none => rfl
  | some w =>
    cases w with
    | arr items =>
      have hnone : v.lookup? fork.rightPath = none := by
        rw [KeyPath.Fork.rightPath, lookup?_append, hshared, Option.bind_some, lookup?, child?,
          hright]
        rfl
      simp only [hright, hnone]
      cases KeyPath.index? fork.left items.length <;> rfl
    | _ => rfl

end Value

/-! ### Settings -/

namespace Store

variable {path other : List String}

/-- The settings as a value. -/
lemma lookup?_obj (hne : path ≠ []) (m : Mapping) :
    (Value.obj m).lookup? path = Mapping.lookup? m path := by
  obtain ⟨first, rest, rfl⟩ := List.exists_cons_of_ne_nil hne
  rfl

/-- Putting a value at a path of the settings as a value. -/
lemma obj_assign (hne : path ≠ []) (m : Mapping) (v : Value) :
    (Value.obj m).assign path v = .obj (assign m path v) := by
  obtain ⟨first, rest, rfl⟩ := List.exists_cons_of_ne_nil hne
  rfl

/-- A value is found where it was put in some settings. -/
lemma lookup?_assign (hne : path ≠ []) (m : Mapping) (v : Value) :
    Mapping.lookup? (assign m path v) path = some v := by
  rw [← lookup?_obj hne, ← obj_assign hne, Value.lookup?_assign]

/-- A path of names finds what it found before, if a value was put elsewhere. -/
lemma lookup?_assign_of_not_prefix (h : ¬ path <+: other) (h' : ¬ other <+: path)
    (hnames : ∀ c ∈ other, KeyPath.IsName c) (m : Mapping) (v : Value) :
    Mapping.lookup? (assign m path v) other = Mapping.lookup? m other := by
  have hpath : path ≠ [] := fun hnil => h (hnil ▸ List.nil_prefix)
  have hother : other ≠ [] := fun hnil => h' (hnil ▸ List.nil_prefix)
  rw [← lookup?_obj hother, ← lookup?_obj hother, ← obj_assign hpath,
    Value.lookup?_assign_of_not_prefix h h' hnames]

/-! ### Reading after setting -/

/-- What a store finds is what its settings find as a value. -/
lemma get?_eq_lookup? (s : Store) (path : String) :
    s.get? path = (Value.obj s.settings).lookup? (KeyPath.split path) :=
  (lookup?_obj (KeyPath.split_ne_nil path) s.settings).symm

/-- **Reading after setting**: setting a value in a store that is not locked succeeds, and
then every path finds what it should. The path itself finds the value, a longer path what
is below the value, and a shorter one what it found before with the value put into it. A
path that parts from it finds what it found before, but for sequences at which they part:
below the same item both go on, and a sequence that made room for a mapping is gone. -/
theorem get?_of_set? {s : Store} (h : s.mutable = true) (path other : String) (v : Value) :
    ∃ s', s.set? path v = .ok s' ∧ s'.get? path = some v ∧
      (∀ rest, KeyPath.split other = KeyPath.split path ++ rest → s'.get? other = v.lookup? rest) ∧
      (∀ rest, KeyPath.split path = KeyPath.split other ++ rest →
        s'.get? other = some (((s.get? other).getD .null).assign rest v)) ∧
      (¬ KeyPath.split path <+: KeyPath.split other →
        ¬ KeyPath.split other <+: KeyPath.split path →
        ∃ fork : KeyPath.Fork, fork.leftPath = KeyPath.split path ∧
          fork.rightPath = KeyPath.split other ∧
          s'.get? other = (Value.obj s.settings).foundBeside fork v) := by
  have hfound : ∀ p, Store.get? { s with settings := assign s.settings (KeyPath.split path) v } p =
      ((Value.obj s.settings).assign (KeyPath.split path) v).lookup? (KeyPath.split p) := by
    intro p
    rw [get?_eq_lookup?, obj_assign (KeyPath.split_ne_nil path)]
  refine ⟨_, if_pos h, ?_, fun rest hrest => ?_, fun rest hrest => ?_, fun hnot hnot' => ?_⟩
  · rw [hfound, Value.lookup?_assign]
  · rw [hfound, hrest, Value.lookup?_assign_append]
  · rw [hfound, hrest, Value.lookup?_assign_prefix, get?_eq_lookup?]
  · obtain ⟨fork, hleft, hright⟩ := KeyPath.Fork.exists_of_not_prefix hnot hnot'
    refine ⟨fork, hleft, hright, ?_⟩
    rw [hfound, ← hleft, ← hright, Value.lookup?_assign_fork]

/-- Two spellings of one index, below which both paths go on. -/
theorem get?_of_set?_same_item :
    let s : Store := ⟨[("items", .arr [.null, .obj [("old", .bool false)]])], true⟩
    let path := KeyPath.split "items.01.new"
    let other := KeyPath.split "items.+1.old"
    (s.mutable = true ∧ ¬ path <+: other ∧ ¬ other <+: path) ∧
      ∃ s', s.set? "items.01.new" (.bool true) = .ok s' ∧
        s'.get? "items.01.new" = some (.bool true) ∧
        ∃ fork : KeyPath.Fork, fork.leftPath = path ∧ fork.rightPath = other ∧
          s'.get? "items.+1.old" = (Value.obj s.settings).foundBeside fork (.bool true) := by
  intro s path other
  have hnot : ¬ path <+: other := by decide +kernel
  have hnot' : ¬ other <+: path := by decide +kernel
  obtain ⟨s', hset, hself, -, -, hbeside⟩ :=
    get?_of_set? (s := s) rfl "items.01.new" "items.+1.old" (.bool true)
  exact ⟨⟨rfl, hnot, hnot'⟩, s', hset, hself, hbeside hnot hnot'⟩

/-- A path that is no index takes the items of a sequence away. -/
example :
    let s : Store := ⟨[("items", .arr [.null, .obj [("old", .bool false)]])], true⟩
    let after path := ((s.set? path (.bool true)).toOption.bind (·.get? "items.+1.old"))
    after "items.01.new" = some (.bool false) ∧ after "items.01.old" = some (.bool true) ∧
      after "items.2.new" = none := by
  decide +kernel

end Store

end PageTree
