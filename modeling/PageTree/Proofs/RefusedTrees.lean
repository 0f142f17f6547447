/-
Trees that are refused.

Reading a tree passes over what it does not understand, with two exceptions: the tree itself
must be a mapping, and an `include` must name a template. Such entries count where nodes
stand: in the tree, and below the `children` of document type declarations and elements. The
error is that of the first one in document order.

* `Node.EntryAt`: the entries of a tree at which nodes stand, by their places;
* `Node.IsBefore`: the order of places in a tree;
* `Node.FaultAt`, `Node.IsFirstFault`: an `include` there that names no template, and the
  first one;
* `Node.Reports`: what a result says of the faults at some places;
* `Node.reports_ofEntries`: reading reports the faults of a tree;
* `Node.tags_of_ofEntries`: one node for each entry;
* `Node.ofValue_refuses_iff`: **trees that are refused**.
-/
import Mathlib.Data.List.Lex
import Mathlib.Tactic.Common
import PageTree.Proofs.ShownTexts

namespace PageTree

namespace Node

variable {m : Mapping} {t : String} {payload v : Value} {place : List ℕ} {x : String × Value}

/-! ### Entries of a tree -/

/-- The value that holds what is inside a node: the entry `children` of the payload of a document
type declaration or an element, and the payload of an element if it is a sequence. -/
def inside? (tag : String) : Value → Option Value
  | .obj entries =>
    if tag = textKey ∨ tag = templateKey ∨ tag = styleKey then none
    else Mapping.find? entries childrenKey
  | .arr items =>
    if tag = textKey ∨ tag = doctypeKey ∨ tag = templateKey ∨ tag = styleKey then none
    else some (.arr items)
  | _ => none

mutual

/-- Whether an entry stands at a place of a tree. A place gives the number of an entry and, if
it goes on inside it, that of an item where there is a sequence, and so on. -/
inductive EntryAt : Mapping → List ℕ → String × Value → Prop
  | here {m : Mapping} {i : ℕ} {e : String × Value} (h : m[i]? = some e) : EntryAt m [i] e
  | inside {m : Mapping} {i : ℕ} {e x : String × Value} {w : Value} {place : List ℕ}
    (h : m[i]? = some e) (hw : inside? e.1 e.2 = some w) (hx : EntryIn w place x) :
    EntryAt m (i :: place) x

/-- Whether an entry stands at a place of what is inside a node: of a single mapping, or of the
mappings among the items of a sequence. -/
inductive EntryIn : Value → List ℕ → String × Value → Prop
  | single {m : Mapping} {place : List ℕ} {x : String × Value} (hx : EntryAt m place x) :
    EntryIn (.obj m) place x
  | item {items : List Value} {i : ℕ} {m : Mapping} {place : List ℕ} {x : String × Value}
    (h : items[i]? = some (.obj m)) (hx : EntryAt m place x) : EntryIn (.arr items) (i :: place) x

end

mutual

/-- There is one entry at a place of a tree. -/
theorem EntryAt.unique : ∀ {m : Mapping} {place : List ℕ} {x y : String × Value},
    EntryAt m place x → EntryAt m place y → x = y
  | _, _, _, _, .here h, .here h' => Option.some.inj (h.symm.trans h')
  | _, _, _, _, .here h, .inside h' hw' hx' => by cases hx' with | single hx' => cases hx'
  | _, _, _, _, .inside h hw hx, .here h' => by cases hx with | single hx => cases hx
  | _, _, _, _, .inside h hw hx, .inside h' hw' hx' => by
    cases Option.some.inj (h.symm.trans h')
    cases Option.some.inj (hw.symm.trans hw')
    exact hx.unique hx'

theorem EntryIn.unique : ∀ {v : Value} {place : List ℕ} {x y : String × Value},
    EntryIn v place x → EntryIn v place y → x = y
  | _, _, _, _, .single hx, .single hx' => hx.unique hx'
  | _, _, _, _, .item h hx, .item h' hx' => by
    cases Option.some.inj (h.symm.trans h')
    exact hx.unique hx'

end

/-- Whether a place comes before another one in document order. -/
def IsBefore (place place' : List ℕ) : Prop := List.Lex (· < ·) place place'

lemma isBefore_cons_iff {i j : ℕ} {place place' : List ℕ} :
    IsBefore (i :: place) (j :: place') ↔ i < j ∨ i = j ∧ IsBefore place place' := by
  constructor
  · intro h
    cases h with
    | rel h => exact .inl h
    | cons h => exact .inr ⟨rfl, h⟩
  · rintro (h | ⟨rfl, h⟩)
    · exact .rel h
    · exact .cons h

/-- Two places are one if neither comes before the other one. -/
lemma eq_of_not_isBefore {place place' : List ℕ} (h : ¬ IsBefore place place')
    (h' : ¬ IsBefore place' place) : place = place' :=
  (List.Lex.trichotomous (· < ·)).trichotomous place place' h h'

/-- Whether a payload names a template: it is a text or a mapping with a text under `src`, and
the text is not empty. -/
def NamesTemplate (payload : Value) : Prop :=
  ∃ name, name ≠ "" ∧ (payload = .str name ∨ payload.member? sourceKey = some (.str name))

/-- Whether the entry at a place of a tree should name a template and does not. -/
def FaultAt (m : Mapping) (place : List ℕ) (payload : Value) : Prop :=
  EntryAt m place (templateKey, payload) ∧ ¬ NamesTemplate payload

/-- Whether an entry at a place inside a node should name a template and does not. -/
def FaultIn (v : Value) (place : List ℕ) (payload : Value) : Prop :=
  EntryIn v place (templateKey, payload) ∧ ¬ NamesTemplate payload

/-- Whether the entry at a place of a tree is the first one that should name a template and does
not. -/
def IsFirstFault (m : Mapping) (place : List ℕ) (payload : Value) : Prop :=
  FaultAt m place payload ∧ ∀ place' payload', FaultAt m place' payload' → ¬ IsBefore place' place

/-- All first faults have one payload. -/
lemma IsFirstFault.unique {place' : List ℕ} {payload' : Value} (h : IsFirstFault m place payload)
    (h' : IsFirstFault m place' payload') : payload = payload' := by
  obtain rfl := eq_of_not_isBefore (h'.2 _ _ h.1) (h.2 _ _ h'.1)
  exact congrArg Prod.snd (h.1.1.unique h'.1.1)

/-! ### Faults in order -/

/-- Whether a result is that of reading something with faults at some places: there is none if
it was read, and otherwise the error is that of the first one. -/
def Reports {α : Type} (r : Except TreeError α) (fault : List ℕ → Value → Prop) : Prop :=
  match r with
  | .ok _ => ∀ place payload, ¬ fault place payload
  | .error e => ∃ place payload, fault place payload ∧
      (∀ place' payload', fault place' payload' → ¬ IsBefore place' place) ∧
      e = .namesNoTemplate payload

variable {α β γ : Type} {r : Except TreeError α} {s : Except TreeError β}
  {fault fault' : List ℕ → Value → Prop}

lemma Reports.congr (h : Reports r fault)
    (hiff : ∀ place payload, fault place payload ↔ fault' place payload) :
    Reports r fault' := by
  have heq : fault = fault' := funext₂ fun place payload => propext (hiff place payload)
  exact heq ▸ h

lemma Reports.map (h : Reports r fault) (f : α → β) : Reports (r.map f) fault := by
  cases r <;> exact h

/-- Faults of a list, by those of its first element and those of the rest. -/
def consFault (fault fault' : List ℕ → Value → Prop) (place : List ℕ) (payload : Value) : Prop :=
  (∃ rest, place = 0 :: rest ∧ fault rest payload) ∨
    ∃ i rest, place = (i + 1) :: rest ∧ fault' (i :: rest) payload

/-- Reading one thing after another reports the faults of the first one, and if there is none
those of the rest. -/
lemma Reports.cons (h : Reports r fault) (hs : Reports s fault')
    (hne : ∀ payload, ¬ fault' [] payload) (f : α → β → γ) :
    Reports (do let a ← r; let b ← s; return f a b) (consFault fault fault') := by
  cases r with
  | error e =>
    obtain ⟨place, payload, hfault, hfirst, rfl⟩ := h
    refine ⟨0 :: place, payload, .inl ⟨place, rfl, hfault⟩, ?_, rfl⟩
    rintro _ payload' (⟨rest, rfl, hrest⟩ | ⟨i, rest, rfl, hrest⟩)
    · simpa [isBefore_cons_iff] using hfirst rest payload' hrest
    · -- what comes later counts for nothing
      simp [isBefore_cons_iff]
  | ok a =>
    cases s with
    | error e =>
      obtain ⟨place, payload, hfault, hfirst, rfl⟩ := hs
      cases place with
      | nil => exact absurd hfault (hne payload)
      | cons i place =>
        -- nothing is wrong in the first one, so all faults are moved by the same number
        refine ⟨(i + 1) :: place, payload, .inr ⟨i, place, rfl, hfault⟩, ?_, rfl⟩
        rintro _ payload' (⟨rest, rfl, hrest⟩ | ⟨i', rest, rfl, hrest⟩)
        · exact absurd hrest (h _ _)
        · simpa [isBefore_cons_iff] using hfirst _ _ hrest
    | ok b =>
      rintro _ payload (⟨rest, -, hrest⟩ | ⟨i, rest, -, hrest⟩)
      · exact h _ _ hrest
      · exact hs _ _ hrest

/-! ### The faults that are reported -/

lemma templateName?_eq_some_iff {name : String} : templateName? payload = some name ↔
    name ≠ "" ∧ (payload = .str name ∨ payload.member? sourceKey = some (.str name)) := by
  have htext : ∀ v : Value, v.asText? = some name ↔ v = .str name := by
    intro v
    cases v <;> simp [Value.asText?]
  rw [templateName?.eq_def, Option.filter_eq_some_iff, decide_eq_true_eq, and_comm]
  refine and_congr_right fun _ => ?_
  cases payload with
  | str s => simp [Value.member?, Value.asMapping?]
  | obj m => simp [Value.member?, Value.asMapping?, Option.bind_eq_some_iff, htext]
  | _ => simp [Value.member?, Value.asMapping?]

lemma templateName?_eq_none_iff : templateName? payload = none ↔ ¬ NamesTemplate payload := by
  rw [← Option.not_isSome_iff_eq_none, Option.isSome_iff_exists, NamesTemplate]
  simp only [templateName?_eq_some_iff]

lemma not_faultAt_nil : ¬ FaultAt m [] payload := by
  rintro ⟨h, -⟩
  cases h

lemma not_faultIn_arr_nil {items : List Value} : ¬ FaultIn (.arr items) [] payload := by
  rintro ⟨h, -⟩
  cases h

/-- The faults of an entry: its own, if it should name a template, and those inside it. -/
def entryFault (t : String) (v : Value) (place : List ℕ) (payload : Value) : Prop :=
  (place = [] ∧ t = templateKey ∧ v = payload ∧ ¬ NamesTemplate payload) ∨
    ∃ w, inside? t v = some w ∧ FaultIn w place payload

lemma entryAt_cons_iff : EntryAt ((t, v) :: m) place x ↔
    (place = [0] ∧ x = (t, v)) ∨
    (∃ rest w, place = 0 :: rest ∧ inside? t v = some w ∧ EntryIn w rest x) ∨
    ∃ i rest, place = (i + 1) :: rest ∧ EntryAt m (i :: rest) x := by
  constructor
  · intro h
    cases h with
    | @here _ i _ h =>
      cases i with
      | zero => exact .inl ⟨rfl, (Option.some.inj h).symm⟩
      | succ i => exact .inr (.inr ⟨i, [], rfl, .here h⟩)
    | @inside _ i e _ w place h hw hx =>
      cases i with
      | zero =>
        cases Option.some.inj h
        exact .inr (.inl ⟨place, w, rfl, hw, hx⟩)
      | succ i => exact .inr (.inr ⟨i, place, rfl, .inside h hw hx⟩)
  · rintro (⟨rfl, rfl⟩ | ⟨rest, w, rfl, hw, hx⟩ | ⟨i, rest, rfl, hx⟩)
    · exact .here rfl
    · exact .inside rfl hw hx
    · cases hx with
      | here h => exact .here h
      | inside h hw hx => exact .inside h hw hx

lemma faultAt_cons_iff :
    FaultAt ((t, v) :: m) place payload ↔
      consFault (entryFault t v) (FaultAt m) place payload := by
  rw [FaultAt, entryAt_cons_iff, consFault]
  constructor
  · rintro ⟨⟨rfl, hx⟩ | ⟨rest, w, rfl, hw, hx⟩ | ⟨i, rest, rfl, hx⟩, hnot⟩
    · cases hx
      exact .inl ⟨[], rfl, .inl ⟨rfl, rfl, rfl, hnot⟩⟩
    · exact .inl ⟨rest, rfl, .inr ⟨w, hw, hx, hnot⟩⟩
    · exact .inr ⟨i, rest, rfl, hx, hnot⟩
  · rintro (⟨rest, rfl, ⟨rfl, rfl, rfl, hnot⟩ | ⟨w, hw, hx, hnot⟩⟩ | ⟨i, rest, rfl, hx, hnot⟩)
    · exact ⟨.inl ⟨rfl, rfl⟩, hnot⟩
    · exact ⟨.inr (.inl ⟨rest, w, rfl, hw, hx⟩), hnot⟩
    · exact ⟨.inr (.inr ⟨i, rest, rfl, hx⟩), hnot⟩

/-- The faults of an item of a sequence. -/
def itemFault (v : Value) (place : List ℕ) (payload : Value) : Prop :=
  ∃ m, v = .obj m ∧ FaultAt m place payload

/-- The faults in a sequence, by those of the first item. -/
lemma faultIn_arr_cons_iff {items : List Value} :
    FaultIn (.arr (v :: items)) place payload ↔
      consFault (itemFault v) (FaultIn (.arr items)) place payload := by
  constructor
  · rintro ⟨h, hnot⟩
    cases h with
    | @item _ i m place _ h hx =>
      cases i with
      | zero => exact .inl ⟨place, rfl, m, Option.some.inj h, hx, hnot⟩
      | succ i => exact .inr ⟨i, place, rfl, .item h hx, hnot⟩
  · rintro (⟨rest, rfl, m, rfl, hx, hnot⟩ | ⟨i, rest, rfl, hx, hnot⟩)
    · exact ⟨.item rfl hx, hnot⟩
    · cases hx with
      | item h hx => exact ⟨.item h hx, hnot⟩

/-- The nodes of an item of a sequence. -/
def ofItem : Value → Except TreeError (List Node)
  | .obj entries => ofEntries entries
  | .str content => .ok [.text content]
  | _ => .ok []

lemma ofItems_cons (v : Value) (rest : List Value) :
    ofItems (v :: rest) = do
      let nodes ← ofItem v
      let more ← ofItems rest
      return nodes ++ more := by
  have hskip : (do let more ← ofItems rest; return [] ++ more) = ofItems rest := by
    cases ofItems rest <;> rfl
  cases v with
  | obj m => rw [ofItems]; rfl
  | str content => rw [ofItems]; rfl
  | _ => exact (by rw [ofItems] <;> simp : _ = ofItems rest).trans hskip.symm

/-- Reading an item reports its faults, if reading a mapping does. -/
lemma reports_ofItem (h : ∀ m, v = .obj m → Reports (ofEntries m) (FaultAt m)) :
    Reports (ofItem v) (itemFault v) := by
  cases v with
  | obj m => exact (h m rfl).congr fun _ _ => by simp [itemFault]
  | _ =>
    rintro place payload ⟨m, hm, -⟩
    cases hm

lemma not_faultIn_of_scalar (hitems : ∀ items, v ≠ .arr items) (hentries : ∀ m, v ≠ .obj m) :
    ¬ FaultIn v place payload := by
  rintro ⟨h, -⟩
  cases h with
  | single => exact hentries _ rfl
  | item => exact hitems _ rfl

lemma faultIn_obj_iff : FaultIn (.obj m) place payload ↔ FaultAt m place payload := by
  refine and_congr_left fun _ => ⟨fun h => ?_, .single⟩
  cases h with
  | single h => exact h

lemma inside?_eq_none (h : t = textKey ∨ t = templateKey ∨ t = styleKey) (v : Value) :
    inside? t v = none := by
  cases v with
  | obj m => exact if_pos h
  | arr items => exact if_pos (by rcases h with h | h | h <;> simp [h])
  | _ => rfl

lemma entryFault_iff (htag : t ≠ templateKey) :
    entryFault t v place payload ↔ ∃ w, inside? t v = some w ∧ FaultIn w place payload :=
  or_iff_right fun h => htag h.2.1

/-- Reading an entry with nothing inside it, which need not name a template, reports nothing. -/
lemma reports_none {a : α} (htag : t ≠ templateKey) (h : inside? t v = none) :
    Reports (.ok a) (entryFault t v) := by
  rintro place payload hfault
  obtain ⟨w, hw, -⟩ := (entryFault_iff htag).mp hfault
  rw [h] at hw
  cases hw

lemma reports_ofTemplate (v : Value) : Reports (ofTemplate v) (entryFault templateKey v) := by
  have hinside := inside?_eq_none (t := templateKey) (.inr (.inl rfl)) v
  rw [ofTemplate]
  cases hname : templateName? v with
  | some name =>
    rintro place payload (⟨-, -, rfl, hnot⟩ | ⟨w, hw, -⟩)
    · rw [templateName?_eq_none_iff.mpr hnot] at hname
      cases hname
    · rw [hinside] at hw
      cases hw
  | none =>
    refine ⟨[], v, .inl ⟨rfl, rfl, rfl, templateName?_eq_none_iff.mp hname⟩, ?_, rfl⟩
    intro place _ _ h
    cases h

/-- The faults of the children of a payload. -/
def childrenFault (m : Mapping) (place : List ℕ) (payload : Value) : Prop :=
  ∃ w, Mapping.find? m childrenKey = some w ∧ FaultIn w place payload

/-- Reading an entry reports its faults, if reading what is inside it does. -/
lemma reports_ofEntry_of (hchildren : ∀ m, v = .obj m → Reports (ofChildren m) (childrenFault m))
    (hitems : ∀ items, v = .arr items → Reports (ofItems items) (FaultIn (.arr items))) :
    Reports (ofEntry t v) (entryFault t v) := by
  rw [ofEntry.eq_def]
  split_ifs with htext hdoctype htemplate hstyle
  · subst htext
    exact reports_none (by decide) (inside?_eq_none (.inl rfl) v)
  · have htemplate : t ≠ templateKey := by
      rw [hdoctype]
      decide
    cases v with
    | obj m =>
      refine ((hchildren m rfl).map _).congr fun place payload => ?_
      rw [entryFault_iff htemplate, inside?, if_neg (by rw [hdoctype]; decide), childrenFault]
    | arr items => exact reports_none htemplate (if_pos (.inr (.inl hdoctype)))
    | _ => exact reports_none htemplate rfl
  · subst htemplate
    exact reports_ofTemplate v
  · subst hstyle
    exact reports_none (by decide) (inside?_eq_none (.inr (.inr rfl)) v)
  · cases v with
    | obj m =>
      refine ((hchildren m rfl).map _).congr fun place payload => ?_
      rw [entryFault_iff htemplate, inside?, if_neg (by simp [htext, htemplate, hstyle]),
        childrenFault]
    | arr items =>
      refine ((hitems items rfl).map _).congr fun place payload => ?_
      rw [entryFault_iff htemplate, inside?, if_neg (by simp [htext, hdoctype, htemplate, hstyle])]
      simp
    | _ => exact reports_none htemplate rfl

-- By induction along the recursion of the readers; every step is one of the lemmas above.
mutual

/-- Reading entries reports their faults. -/
theorem reports_ofEntries : ∀ m : Mapping, Reports (ofEntries m) (FaultAt m)
  | [] => by
    rw [ofEntries]
    rintro place payload ⟨h, -⟩
    cases h with
    | here h => cases h
    | inside h => cases h
  | (t, v) :: rest => by
    rw [ofEntries]
    exact ((reports_ofEntry t v).cons (reports_ofEntries rest) (fun _ => not_faultAt_nil) _).congr
      fun _ _ => faultAt_cons_iff.symm

/-- Reading an entry reports its faults. -/
theorem reports_ofEntry (t : String) : ∀ v : Value, Reports (ofEntry t v) (entryFault t v)
  | .obj m => reports_ofEntry_of (fun _ h => by cases h; exact reports_ofChildren m) nofun
  | .arr items => reports_ofEntry_of nofun fun _ h => by cases h; exact reports_ofItems items
  | .null | .bool _ | .num _ | .str _ => reports_ofEntry_of nofun nofun

/-- Reading the children of a payload reports their faults. -/
theorem reports_ofChildren : ∀ m : Mapping, Reports (ofChildren m) (childrenFault m)
  | [] => by
    rw [ofChildren]
    rintro place payload ⟨w, hw, -⟩
    cases hw
  | (key, v) :: rest => by
    rw [ofChildren]
    split_ifs with hkey
    · refine (reports_ofInside v).congr fun place payload => ?_
      rw [childrenFault, Mapping.find?, if_pos hkey]
      simp
    · refine (reports_ofChildren rest).congr fun place payload => ?_
      rw [childrenFault, childrenFault, Mapping.find?, if_neg hkey]

theorem reports_ofInside : ∀ v : Value, Reports (ofInside v) (FaultIn v)
  | .arr items => by
    rw [ofInside]
    exact reports_ofItems items
  | .obj m => by
    rw [ofInside]
    exact (reports_ofEntries m).congr fun _ _ => faultIn_obj_iff.symm
  | .str content => by
    rw [ofInside]
    exact fun _ _ => not_faultIn_of_scalar nofun nofun
  | .null | .bool _ | .num _ => by
    rw [ofInside] <;> first | exact fun _ _ => not_faultIn_of_scalar nofun nofun | nofun

theorem reports_ofItems : ∀ items : List Value, Reports (ofItems items) (FaultIn (.arr items))
  | [] => by
    rw [ofItems]
    rintro place payload ⟨h, -⟩
    cases h with
    | item h => cases h
  | v :: rest => by
    have hitem : Reports (ofItem v) (itemFault v) :=
      match v with
      | .obj m => reports_ofItem fun _ h => by cases h; exact reports_ofEntries m
      | .null | .bool _ | .num _ | .str _ | .arr _ => reports_ofItem nofun
    rw [ofItems_cons]
    exact (hitem.cons (reports_ofItems rest) (fun _ => not_faultIn_arr_nil) _).congr
      fun _ _ => faultIn_arr_cons_iff.symm

end

/-! ### Trees that are refused -/

/-- The tag of the entry that a node is read from. -/
def tag : Node → String
  | .doctype _ => doctypeKey
  | .text _ => textKey
  | .element tag _ _ => tag
  | .style _ => styleKey
  | .template _ => templateKey

/-- A node has the tag of its entry. -/
lemma tag_of_ofEntry {node : Node} (h : ofEntry t v = .ok node) : node.tag = t := by
  rw [ofEntry.eq_def] at h
  split_ifs at h with htext hdoctype htemplate hstyle
  · cases h
    exact htext.symm
  · cases v with
    | obj m =>
      obtain ⟨children, -, rfl⟩ := exists_of_map_eq_ok h
      exact hdoctype.symm
    | _ =>
      cases h
      exact hdoctype.symm
  · rw [ofTemplate] at h
    split at h
    · cases h
      exact htemplate.symm
    · cases h
  · cases h
    exact hstyle.symm
  · cases v with
    | obj m =>
      obtain ⟨children, -, rfl⟩ := exists_of_map_eq_ok h
      rfl
    | arr items =>
      obtain ⟨children, -, rfl⟩ := exists_of_map_eq_ok h
      rfl
    | _ =>
      cases h
      rfl

/-- The nodes of entries have their tags, one node for each entry, in order. -/
lemma tags_of_ofEntries {nodes : List Node} (h : ofEntries m = .ok nodes) :
    nodes.map tag = Mapping.keys m := by
  induction m generalizing nodes with
  | nil =>
    cases h
    rfl
  | cons e rest ih =>
    rw [ofEntries] at h
    obtain ⟨node, hnode, h⟩ := exists_of_bind_eq_ok h
    obtain ⟨nodes, hnodes, h⟩ := exists_of_bind_eq_ok h
    cases h
    rw [List.map_cons, ih hnodes, tag_of_ofEntry hnode]
    rfl

/-- **Trees that are refused**: a value is not read if and only if it is no mapping, or an
`include` somewhere at a place of a node names no template; the error then tells of the first
one, in document order. Otherwise there is one node for each key, in order. -/
theorem ofValue_refuses_iff (v : Value) :
    ((∃ e, ofValue v = .error e) ↔
      v.asMapping? = none ∨ ∃ m place payload, v = .obj m ∧ FaultAt m place payload) ∧
    (∀ e, ofValue v = .error e ↔
      v.asMapping? = none ∧ e = .notMapping v ∨
        ∃ m place payload, v = .obj m ∧ IsFirstFault m place payload ∧
          e = .namesNoTemplate payload) ∧
    ∀ nodes, ofValue v = .ok nodes → ∃ m, v = .obj m ∧ nodes.map tag = Mapping.keys m := by
  cases v with
  | obj m =>
    have hread := reports_ofEntries m
    simp only [ofValue, Value.asMapping?, reduceCtorEq, false_and, false_or, Value.obj.injEq,
      exists_and_left, exists_eq_left']
    cases hnodes : ofEntries m with
    | ok nodes =>
      rw [hnodes] at hread
      have hnone : ∀ place payload, ¬ FaultAt m place payload := hread
      refine ⟨?_, ?_, ?_⟩
      · simp [hnone]
      · simp [IsFirstFault, hnone]
      · rintro _ ⟨⟩
        exact tags_of_ofEntries hnodes
    | error found =>
      rw [hnodes] at hread
      obtain ⟨place, payload, hfault, hfirst, rfl⟩ := hread
      refine ⟨⟨fun _ => ⟨place, payload, hfault⟩, fun _ => ⟨_, rfl⟩⟩, fun e => ?_, fun _ h => ?_⟩
      · constructor
        · rintro ⟨⟩
          exact ⟨place, payload, ⟨hfault, hfirst⟩, rfl⟩
        · rintro ⟨place', payload', hfault', rfl⟩
          rw [hfault'.unique ⟨hfault, hfirst⟩]
      · cases h
  | _ => simp [ofValue, Value.asMapping?, eq_comm]

/-- What is no node is passed over, and the first `include` is told. -/
example :
    ofValue (.obj [
      ("div", .obj [("children", .arr [.null, .obj [("include", .obj [])]])]),
      ("include", .str "")]) = .error (.namesNoTemplate (.obj [])) := rfl

end Node

end PageTree
