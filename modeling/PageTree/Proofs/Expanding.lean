/-
Expanding references.

Where a reference to a document is followed, the document comes in whole, however large it
is and whatever it refers to, itself included. Yet expanding ends: every step down counts,
into an item or an entry of the document that is expanded or of one that came in, and past
the last level no reference is followed any more. There the values that are left only
become smaller. So the rules by which a value is expanded give every value one result, and
the result has changed at references that name a document, and below them, and nowhere else.

* `Value.Occurs`, `Value.SameNode`: values in others, and values that are the same apart
  from what is below them;
* `Collections.expandTo`: a document expanded as far as some levels down;
* `Collections.Expands`: expanding, by rules;
* `Collections.expands_expandValue`, `Collections.Expands.eq`: **one result** for every
  value;
* `Collections.InReference`, `Collections.BelowReference`: places at references, and below
  them;
* `Collections.at?_expandValue`, `Collections.at?_expandTo`: what stands at a place after
  expanding;
* `Collections.expand_frame`: **expanding** a document.
-/
import PageTree.Collections
import PageTree.Proofs.Places

namespace PageTree

/-! ### Values in others -/

namespace Value

/-- Whether a value stands somewhere in another one, or is it. -/
inductive Occurs (u : Value) : Value → Prop
  | here : Occurs u u
  | item {items : List Value} {v : Value} (hmem : v ∈ items) (h : Occurs u v) :
    Occurs u (.arr items)
  | entry {m : Mapping} {e : String × Value} (hmem : e ∈ m) (h : Occurs u e.2) :
    Occurs u (.obj m)

/-- Whether two values are the same apart from what is below them: sequences of one length,
mappings with the same keys in the same order, or one and the same other value. -/
def SameNode : Value → Value → Prop
  | .arr items, w => ∃ items', w = .arr items' ∧ items'.length = items.length
  | .obj m, w => ∃ m', w = .obj m' ∧ Mapping.keys m' = Mapping.keys m
  | v, w => w = v

end Value

namespace Collections

open Value

variable {c : Collections} {v w : Value} {items items' : List Value} {m m' : Mapping}
  {depth levels : ℕ} {place : List Step}

/-! ### Levels -/

/-- A document with documents in the place of the references below its top level, as far as
some levels down. -/
def expandTo (c : Collections) (levels : ℕ) (document : Mapping) : Mapping :=
  document.map fun e => (e.1, c.expandValue levels e.2)

lemma keys_expandTo (c : Collections) (levels : ℕ) (m : Mapping) :
    Mapping.keys (c.expandTo levels m) = Mapping.keys m := by
  simp [Mapping.keys, expandTo]

lemma find?_expandTo (c : Collections) (levels : ℕ) (m : Mapping) (key : String) :
    Mapping.find? (c.expandTo levels m) key =
      (Mapping.find? m key).map (c.expandValue levels) := by
  induction m with
  | nil => rfl
  | cons e rest ih =>
    rw [Mapping.find?]
    show (if e.1 = key then _ else Mapping.find? (c.expandTo levels rest) key) = _
    split_ifs
    · rfl
    · exact ih

@[simp] lemma expandValue_zero (c : Collections) (v : Value) : c.expandValue 0 v = v := by
  cases v <;> rfl

/-- A document whose values stay. -/
lemma expandTo_eq_self (h : ∀ e ∈ m, c.expandValue levels e.2 = e.2) :
    c.expandTo levels m = m := by
  refine (List.map_congr_left fun e he => ?_).trans (List.map_id m)
  rw [h e he]
  rfl

lemma expandValue_arr (c : Collections) (levels : ℕ) (items : List Value) :
    c.expandValue levels (.arr items) = .arr (items.map (c.expandValue (levels - 1))) := by
  cases levels with
  | zero => simp [List.map_congr_left fun v _ => c.expandValue_zero v]
  | succ levels => rfl

/-- A reference that is followed. -/
lemma expandValue_of_target {target : Mapping} (h : 0 < levels)
    (htarget : c.target? m = some target) :
    c.expandValue levels (.obj m) = .obj (c.expandTo (levels - 1) target) := by
  obtain ⟨levels, rfl⟩ := Nat.exists_eq_add_of_lt h
  rw [Nat.zero_add, expandValue, htarget]
  rfl

/-- A mapping that is no reference, or one that is not followed. -/
lemma expandValue_of_not_target (h : levels = 0 ∨ c.target? m = none) :
    c.expandValue levels (.obj m) = .obj (c.expandTo (levels - 1) m) := by
  cases levels with
  | zero => rw [expandValue_zero, expandTo_eq_self fun e _ => c.expandValue_zero e.2]
  | succ levels =>
    rw [expandValue, h.resolve_left (Nat.succ_ne_zero levels)]
    rfl

/-- Expanding leaves values that are neither sequences nor mappings alone. -/
lemma expandValue_of_scalar (hitems : ∀ items, v ≠ .arr items) (hentries : ∀ m, v ≠ .obj m) :
    c.expandValue levels v = v := by
  cases v with
  | arr items => exact absurd rfl (hitems items)
  | obj m => exact absurd rfl (hentries m)
  | _ => cases levels <;> rfl

/-! ### Rules -/

mutual

/-- What a value at some depth is expanded to, by rules. A reference is not followed past
the last depth; one that names no document is a mapping like others. -/
inductive Expands (c : Collections) : ℕ → Value → Value → Prop
  | scalar {depth : ℕ} {v : Value} (hitems : ∀ items, v ≠ .arr items)
    (hentries : ∀ m, v ≠ .obj m) : Expands c depth v v
  | sequence {depth : ℕ} {items items' : List Value}
    (h : ExpandsItems c (depth + 1) items items') : Expands c depth (.arr items) (.arr items')
  | mapping {depth : ℕ} {m m' : Mapping} (href : reference? m = none)
    (h : ExpandsEntries c (depth + 1) m m') : Expands c depth (.obj m) (.obj m')
  | tooDeep {depth : ℕ} {m : Mapping} (href : reference? m ≠ none) (hdepth : maxDepth < depth) :
    Expands c depth (.obj m) (.obj m)
  | found {depth : ℕ} {m target target' : Mapping} (hdepth : depth ≤ maxDepth)
    (htarget : c.target? m = some target) (h : ExpandsEntries c (depth + 1) target target') :
    Expands c depth (.obj m) (.obj target')
  | dangling {depth : ℕ} {m m' : Mapping} (href : reference? m ≠ none)
    (hdepth : depth ≤ maxDepth) (htarget : c.target? m = none)
    (h : ExpandsEntries c (depth + 1) m m') : Expands c depth (.obj m) (.obj m')

/-- What the items of a sequence are expanded to. -/
inductive ExpandsItems (c : Collections) : ℕ → List Value → List Value → Prop
  | nil {depth : ℕ} : ExpandsItems c depth [] []
  | cons {depth : ℕ} {v v' : Value} {rest rest' : List Value} (hv : Expands c depth v v')
    (hrest : ExpandsItems c depth rest rest') : ExpandsItems c depth (v :: rest) (v' :: rest')

/-- What the entries of a mapping are expanded to. -/
inductive ExpandsEntries (c : Collections) : ℕ → Mapping → Mapping → Prop
  | nil {depth : ℕ} : ExpandsEntries c depth [] []
  | cons {depth : ℕ} {key : String} {v v' : Value} {rest rest' : Mapping}
    (hv : Expands c depth v v') (hrest : ExpandsEntries c depth rest rest') :
    ExpandsEntries c depth ((key, v) :: rest) ((key, v') :: rest')

end

lemma expandsItems_map {f : Value → Value} (h : ∀ v ∈ items, c.Expands depth v (f v)) :
    c.ExpandsItems depth items (items.map f) := by
  induction items with
  | nil => exact .nil
  | cons v rest ih =>
    rw [List.forall_mem_cons] at h
    exact .cons h.1 (ih h.2)

lemma expandsEntries_map {f : Value → Value} (h : ∀ e ∈ m, c.Expands depth e.2 (f e.2)) :
    c.ExpandsEntries depth m (m.map fun e => (e.1, f e.2)) := by
  induction m with
  | nil => exact .nil
  | cons e rest ih =>
    rw [List.forall_mem_cons] at h
    exact .cons h.1 (ih h.2)

lemma target?_of_reference?_eq_none (href : reference? m = none) : c.target? m = none := by
  rw [target?, href, Option.bind_none]

/-- **Past the last depth** every value is expanded to itself: references are not followed
there, so that values only become smaller. -/
theorem expands_self (hdepth : maxDepth < depth) (v : Value) : c.Expands depth v v := by
  induction v using Value.ind generalizing depth with
  | null | bool _ | num _ | str _ => exact .scalar nofun nofun
  | arr items ih =>
    have hitems := expandsItems_map (f := id) fun v hv => ih v hv (Nat.lt_succ_of_lt hdepth)
    rw [List.map_id] at hitems
    exact .sequence hitems
  | obj m ih =>
    by_cases href : reference? m = none
    · have hentries := expandsEntries_map (f := id) fun e he => ih e he (Nat.lt_succ_of_lt hdepth)
      have hid : (m.map fun e => (e.1, id e.2)) = m := List.map_id m
      rw [hid] at hentries
      exact .mapping href hentries
    · exact .tooDeep href hdepth

/-- **Expanding ends**, by the levels that are left and past the last one by the size of the
value. -/
theorem expands_expandValue (h : levels + depth = maxDepth + 1) (v : Value) :
    c.Expands depth v (c.expandValue levels v) := by
  induction levels generalizing depth v with
  | zero => exact c.expandValue_zero v ▸ expands_self (by omega) v
  | succ levels ih =>
    have hbelow : levels + (depth + 1) = maxDepth + 1 := by omega
    have hentries : ∀ m, c.ExpandsEntries (depth + 1) m (c.expandTo levels m) :=
      fun m => expandsEntries_map fun e _ => ih hbelow e.2
    cases v with
    | arr items => exact .sequence (expandsItems_map fun v _ => ih hbelow v)
    | obj m =>
      cases htarget : c.target? m with
      | some target =>
        rw [expandValue_of_target (Nat.succ_pos levels) htarget]
        exact .found (by omega) htarget (hentries target)
      | none =>
        rw [expandValue_of_not_target (.inr htarget)]
        by_cases href : reference? m = none
        · exact .mapping href (hentries m)
        · exact .dangling href (by omega) htarget (hentries m)
    | _ => exact .scalar nofun nofun

mutual

/-- **One result**: a value is expanded to nothing else. -/
theorem Expands.eq : ∀ {depth : ℕ} {v w : Value}, c.Expands depth v w →
    w = c.expandValue (maxDepth + 1 - depth) v
  | _, _, _, .scalar hitems hentries => (expandValue_of_scalar hitems hentries).symm
  | _, _, _, .sequence h => by rw [expandValue_arr, h.eq, Nat.sub_add_eq]
  | _, _, _, .mapping href h => by
    rw [expandValue_of_not_target (.inr (target?_of_reference?_eq_none href)), h.eq,
      Nat.sub_add_eq]
  | _, _, _, .tooDeep _ hdepth => by
    rw [Nat.sub_eq_zero_of_le hdepth, expandValue_zero]
  | _, _, _, .found hdepth htarget h => by
    rw [expandValue_of_target (Nat.sub_pos_of_lt (Nat.lt_succ_of_le hdepth)) htarget, h.eq,
      Nat.sub_add_eq]
  | _, _, _, .dangling _ _ htarget h => by
    rw [expandValue_of_not_target (.inr htarget), h.eq, Nat.sub_add_eq]

theorem ExpandsItems.eq : ∀ {depth : ℕ} {items items' : List Value},
    c.ExpandsItems depth items items' → items' = items.map (c.expandValue (maxDepth + 1 - depth))
  | _, _, _, .nil => rfl
  | _, _, _, .cons hv hrest => by rw [List.map_cons, hv.eq, hrest.eq]

theorem ExpandsEntries.eq : ∀ {depth : ℕ} {m m' : Mapping},
    c.ExpandsEntries depth m m' → m' = c.expandTo (maxDepth + 1 - depth) m
  | _, _, _, .nil => rfl
  | _, _, _, .cons hv hrest => by
    rw [hv.eq, hrest.eq]
    rfl

end

/-- A document is expanded to its expansion and to nothing else. -/
lemma expandsEntries_iff (document expanded : Mapping) :
    c.ExpandsEntries 1 document expanded ↔ expanded = c.expand document := by
  refine ⟨ExpandsEntries.eq, ?_⟩
  rintro rfl
  exact expandsEntries_map fun e _ => expands_expandValue rfl e.2

/-! ### Places -/

/-- Whether a reference that names a document stands at a place. -/
def RefersAt (c : Collections) (v : Value) (place : List Step) : Prop :=
  ∃ m target, v.at? place = some (.obj m) ∧ c.target? m = some target

/-- Whether a place in a document is at a reference that names a document, or below one. The
document itself is no reference. -/
def InReference (c : Collections) (document : Mapping) (place : List Step) : Prop :=
  ∃ before, before <+: place ∧ before ≠ [] ∧ c.RefersAt (.obj document) before

/-- Whether a place in a document is below a reference that names a document. -/
def BelowReference (c : Collections) (document : Mapping) (place : List Step) : Prop :=
  ∃ before, before <+: place ∧ before ≠ [] ∧ before ≠ place ∧ c.RefersAt (.obj document) before

lemma BelowReference.inReference {document : Mapping} (h : c.BelowReference document place) :
    c.InReference document place := by
  obtain ⟨before, hpre, hne, -, href⟩ := h
  exact ⟨before, hpre, hne, href⟩

/-- What stands at a place after expanding, if the place is below no reference: what stood
there, expanded as far as levels are left. -/
theorem at?_expandValue
    (h : ∀ before, before <+: place → before ≠ place → ¬ c.RefersAt v before) (levels : ℕ) :
    (c.expandValue levels v).at? place =
      (v.at? place).map (c.expandValue (levels - place.length)) := by
  induction place generalizing v levels with
  | nil => rfl
  | cons step rest ih =>
    have hlevels : levels - (rest.length + 1) = levels - 1 - rest.length := by omega
    have htop : ¬ c.RefersAt v [] := h [] List.nil_prefix (List.cons_ne_nil step rest).symm
    have hbelow : ∀ w, (∀ place, v.at? (step :: place) = w.at? place) →
        (c.expandValue (levels - 1) w).at? rest =
          (w.at? rest).map (c.expandValue (levels - 1 - rest.length)) := by
      intro w hw
      refine ih (fun before hpre hne ⟨m, target, hm, htarget⟩ => ?_) (levels - 1)
      exact h (step :: before) (List.cons_prefix_cons.mpr ⟨rfl, hpre⟩)
        (fun heq => hne (List.cons.inj heq).2) ⟨m, target, (hw before).trans hm, htarget⟩
    rw [List.length_cons, hlevels]
    cases v with
    | obj m =>
      have htarget : c.target? m = none :=
        Option.eq_none_iff_forall_ne_some.mpr fun target ht => htop ⟨m, target, rfl, ht⟩
      rw [expandValue_of_not_target (.inr htarget)]
      cases step with
      | index i => rfl
      | key k =>
        rw [at?, at?, find?_expandTo]
        cases hfind : Mapping.find? m k with
        | none => rfl
        | some w => exact hbelow w fun place => at?_key hfind
    | arr items =>
      rw [expandValue_arr]
      cases step with
      | key k => rfl
      | index i =>
        rw [at?, at?, List.getElem?_map]
        cases hget : items[i]? with
        | none => rfl
        | some w => exact hbelow w fun place => at?_index hget
    | _ => cases levels <;> cases step <;> rfl

/-- What stands at a place below the top level of an expanded document. -/
theorem at?_expandTo {document : Mapping} (hplace : place ≠ [])
    (h : ¬ c.BelowReference document place) (levels : ℕ) :
    (Value.obj (c.expandTo levels document)).at? place =
      ((Value.obj document).at? place).map (c.expandValue (levels + 1 - place.length)) := by
  obtain ⟨step, rest, rfl⟩ := List.exists_cons_of_ne_nil hplace
  have hlevels : levels + 1 - (step :: rest).length = levels - rest.length :=
    Nat.add_sub_add_right levels 1 rest.length
  rw [hlevels]
  cases step with
  | index i => rfl
  | key k =>
    rw [at?, at?, find?_expandTo]
    cases hfind : Mapping.find? document k with
    | none => rfl
    | some w =>
      refine at?_expandValue (fun before hpre hne ⟨m, target, hm, htarget⟩ => ?_) levels
      exact h ⟨.key k :: before, List.cons_prefix_cons.mpr ⟨rfl, hpre⟩, by simp,
        fun heq => hne (List.cons.inj heq).2, m, target, (at?_key hfind).trans hm, htarget⟩

/-! ### What is not touched -/

/-- A value that is no reference stays, apart from what is below it. -/
lemma sameNode_expandValue (h : ∀ m, v = .obj m → c.target? m = none) (levels : ℕ) :
    SameNode v (c.expandValue levels v) := by
  cases v with
  | arr items => exact ⟨_, c.expandValue_arr levels items, List.length_map _⟩
  | obj m => exact ⟨_, expandValue_of_not_target (.inr (h m rfl)), c.keys_expandTo _ m⟩
  | _ => exact expandValue_of_scalar nofun nofun

/-- A value without references stays. -/
lemma expandValue_eq_self (h : ∀ m, Occurs (.obj m) v → c.target? m = none) (levels : ℕ) :
    c.expandValue levels v = v := by
  induction v using Value.ind generalizing levels with
  | null | bool _ | num _ | str _ => exact expandValue_of_scalar nofun nofun
  | arr items ih =>
    rw [expandValue_arr]
    refine congrArg Value.arr ((List.map_congr_left fun w hw => ?_).trans (List.map_id items))
    exact ih w hw (fun m hm => h m (.item hw hm)) _
  | obj m ih =>
    rw [expandValue_of_not_target (.inr (h m .here))]
    refine congrArg Value.obj (expandTo_eq_self fun e he => ?_)
    exact ih e he (fun n hn => h n (.entry he hn)) _

/-- **Expanding** a document ends, whatever the documents refer to, with one result by the
rules. This has the keys of the document in their order. At a place that is not at or below a
reference that names a document stands the same as before, apart from what is below the
place, and the same altogether if no such reference is below the place either. A document
without such references below its top level stays as it is. -/
theorem expand_frame (c : Collections) (document : Mapping) :
    (∀ expanded, c.ExpandsEntries 1 document expanded ↔ expanded = c.expand document) ∧
      Mapping.keys (c.expand document) = Mapping.keys document ∧
      (∀ place, ¬ c.InReference document place →
        Option.Rel SameNode ((Value.obj document).at? place)
          ((Value.obj (c.expand document)).at? place)) ∧
      (∀ place v, place ≠ [] → ¬ c.InReference document place →
        (Value.obj document).at? place = some v →
          (∀ m, Occurs (.obj m) v → c.target? m = none) →
            (Value.obj (c.expand document)).at? place = some v) ∧
      ((∀ e ∈ document, ∀ m, Occurs (.obj m) e.2 → c.target? m = none) →
        c.expand document = document) := by
  have hat : ∀ place, place ≠ [] → ¬ c.InReference document place →
      (Value.obj (c.expand document)).at? place =
        ((Value.obj document).at? place).map (c.expandValue (maxDepth + 1 - place.length)) :=
    fun place hplace h => at?_expandTo hplace (fun hbelow => h hbelow.inReference) maxDepth
  refine ⟨expandsEntries_iff document, c.keys_expandTo maxDepth document, fun place h => ?_,
    fun place v hplace h hv hnone => ?_, fun h => ?_⟩
  · by_cases hplace : place = []
    · subst hplace
      exact .some ⟨_, rfl, c.keys_expandTo maxDepth document⟩
    · rw [hat place hplace h]
      cases hv : (Value.obj document).at? place with
      | none => exact .none
      | some v =>
        refine .some (sameNode_expandValue (fun m hm => ?_) _)
        -- otherwise the place itself would be a reference
        subst hm
        exact Option.eq_none_iff_forall_ne_some.mpr fun target htarget =>
          h ⟨place, List.prefix_refl place, hplace, m, target, hv, htarget⟩
  · rw [hat place hplace h, hv, Option.map_some, expandValue_eq_self hnone]
  · exact expandTo_eq_self fun e he => expandValue_eq_self (h e he) maxDepth

/-- Two documents that refer to each other: eight references are followed, and the ninth one
stays. -/
example :
    let reference (id : String) : Value :=
      .obj [("collection", .str "nodes"), ("_id", .obj [("$oid", .str id)])]
    let a : Mapping := [("_id", .str "a"), ("next", reference "b")]
    let b : Mapping := [("_id", .str "b"), ("next", reference "a")]
    let expanded := (⟨[("nodes", a), ("nodes", b)]⟩ : Collections).expand a
    (Value.obj expanded).at? (List.replicate 8 (.key "next")) = some (.obj a) ∧
      (Value.obj expanded).at? (List.replicate 9 (.key "next")) = some (reference "b") := by
  decide +kernel

end Collections

end PageTree
