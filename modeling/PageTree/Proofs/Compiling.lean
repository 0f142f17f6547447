/-
Compiling settings.

Compiling rewrites strings and nothing else: keys, their order, the lengths of
sequences and all other values stay, so every path leads as far as it did before.
A token whose path leads nowhere is therefore kept by every step, wherever it
stands, while the texts before and after it are compiled on their own.

* `Value.Reworded`: values that differ in their strings alone;
* `Value.Reworded.lookup?`: paths into such values;
* `Value.reworded_put`: a string in the place of another one;
* `Store.reworded_compileAll`: **compiling**, one string after the other;
* `Store.Recompiled`: what becomes of a string while a path leads nowhere;
* `Store.Recompiled.exists_append`: a token of this path in it.
-/
import Mathlib.Data.List.Forall2
import Mathlib.Logic.Relation
import Mathlib.Tactic.Common
import PageTree.Config.Store
import PageTree.Proofs.Literals

namespace PageTree

/-- Inserting the value that a key has. -/
lemma Mapping.insert_of_find? {m : Mapping} {key : String} {v : Value}
    (h : find? m key = some v) : insert m key v = m := by
  induction m with
  | nil => simp [find?] at h
  | cons e rest ih =>
    rw [find?] at h
    rw [insert]
    split_ifs at h ⊢ with hkey
    · rw [← Option.some.inj h]
    · rw [ih h]

/-! ### Values that differ in their strings -/

namespace Value

section

variable (R : String → String → Prop)

mutual

/-- Whether two values differ in their strings alone, and these are related. -/
def Reworded : Value → Value → Prop
  | .str s, w => ∃ s', w = .str s' ∧ R s s'
  | .arr items, w => ∃ items', w = .arr items' ∧ RewordedItems items items'
  | .obj entries, w => ∃ entries', w = .obj entries' ∧ RewordedEntries entries entries'
  | v, w => w = v

/-- Whether the items of two sequences differ in their strings alone. -/
def RewordedItems : List Value → List Value → Prop
  | [], ws => ws = []
  | v :: rest, ws => ∃ w rest', ws = w :: rest' ∧ Reworded v w ∧ RewordedItems rest rest'

/-- Whether the entries of two mappings differ in the strings among their values
alone. -/
def RewordedEntries : List (String × Value) → List (String × Value) → Prop
  | [], es => es = []
  | (k, v) :: rest, es => ∃ w rest', es = (k, w) :: rest' ∧ Reworded v w ∧ RewordedEntries rest rest'

end

end

variable {R S T : String → String → Prop}

mutual

theorem Reworded.refl (hR : ∀ s, R s s) : ∀ v, Reworded R v v
  | .null | .bool _ | .num _ => rfl
  | .str s => ⟨s, rfl, hR s⟩
  | .arr items => ⟨items, rfl, RewordedItems.refl hR items⟩
  | .obj entries => ⟨entries, rfl, RewordedEntries.refl hR entries⟩

theorem RewordedItems.refl (hR : ∀ s, R s s) : ∀ items, RewordedItems R items items
  | [] => rfl
  | v :: rest => ⟨v, rest, rfl, Reworded.refl hR v, RewordedItems.refl hR rest⟩

theorem RewordedEntries.refl (hR : ∀ s, R s s) : ∀ entries, RewordedEntries R entries entries
  | [] => rfl
  | (_, v) :: rest => ⟨v, rest, rfl, Reworded.refl hR v, RewordedEntries.refl hR rest⟩

end

mutual

theorem Reworded.trans (hR : ∀ ⦃a b c⦄, R a b → S b c → T a c) :
    ∀ {u v w : Value}, Reworded R u v → Reworded S v w → Reworded T u w
  | .null, _, _, h, h' | .bool _, _, _, h, h' | .num _, _, _, h, h' => by
    cases h
    exact h'
  | .str _, _, _, ⟨_, hv, h⟩, h' => by
    cases hv
    obtain ⟨s, rfl, h'⟩ := h'
    exact ⟨s, rfl, hR h h'⟩
  | .arr _, _, _, ⟨_, hv, h⟩, h' => by
    cases hv
    obtain ⟨items, rfl, h'⟩ := h'
    exact ⟨items, rfl, RewordedItems.trans hR h h'⟩
  | .obj _, _, _, ⟨_, hv, h⟩, h' => by
    cases hv
    obtain ⟨entries, rfl, h'⟩ := h'
    exact ⟨entries, rfl, RewordedEntries.trans hR h h'⟩

theorem RewordedItems.trans (hR : ∀ ⦃a b c⦄, R a b → S b c → T a c) :
    ∀ {us vs ws : List Value}, RewordedItems R us vs → RewordedItems S vs ws →
      RewordedItems T us ws
  | [], _, _, h, h' => by
    cases h
    exact h'
  | _ :: _, _, _, ⟨_, _, hvs, hv, h⟩, h' => by
    cases hvs
    obtain ⟨w, rest, rfl, hw, h'⟩ := h'
    exact ⟨w, rest, rfl, Reworded.trans hR hv hw, RewordedItems.trans hR h h'⟩

theorem RewordedEntries.trans (hR : ∀ ⦃a b c⦄, R a b → S b c → T a c) :
    ∀ {us vs ws : Mapping}, RewordedEntries R us vs → RewordedEntries S vs ws →
      RewordedEntries T us ws
  | [], _, _, h, h' => by
    cases h
    exact h'
  | (_, _) :: _, _, _, ⟨_, _, hvs, hv, h⟩, h' => by
    cases hvs
    obtain ⟨w, rest, rfl, hw, h'⟩ := h'
    exact ⟨w, rest, rfl, Reworded.trans hR hv hw, RewordedEntries.trans hR h h'⟩

end

/-! ### Paths into them -/

section

variable {α β γ δ : Type} {r : α → β → Prop} {q : γ → δ → Prop}

/-- What is found in two steps, if each of them finds the same up to a relation. -/
lemma rel_bind {a : Option α} {b : Option β} (h : Option.Rel r a b) {f : α → Option γ}
    {g : β → Option δ} (hfg : ∀ v w, r v w → Option.Rel q (f v) (g w)) :
    Option.Rel q (a.bind f) (b.bind g) := by
  cases h with
  | none => exact .none
  | some hvw => exact hfg _ _ hvw

lemma eq_none_of_rel {b : Option β} (h : Option.Rel r none b) : b = none := by
  cases h
  rfl

lemma isSome_of_rel {a : Option α} {b : Option β} (h : Option.Rel r a b) :
    b.isSome = a.isSome := by
  cases h <;> rfl

lemma exists_of_rel_some {a : Option α} {w : β} (h : Option.Rel r a (some w)) :
    ∃ v, a = some v ∧ r v w := by
  cases h with
  | some hvw => exact ⟨_, rfl, hvw⟩

lemma exists_of_some_rel {b : Option β} {v : α} (h : Option.Rel r (some v) b) :
    ∃ w, b = some w ∧ r v w := by
  cases h with
  | some hvw => exact ⟨_, rfl, hvw⟩

/-- What is found is the same, if what is related to it is it alone. -/
lemma eq_of_rel {s : α → α → Prop} {a b : Option α} (h : Option.Rel s a b)
    (hsame : ∀ v ∈ a, ∀ w, s v w → w = v) : b = a := by
  cases h with
  | none => rfl
  | some hvw => rw [hsame _ rfl _ hvw]

/-- The items at an index, in lists that are related item by item. -/
lemma rel_getElem? {as : List α} {bs : List β} (h : List.Forall₂ r as bs) (i : ℕ) :
    Option.Rel r as[i]? bs[i]? := by
  induction h generalizing i with
  | nil => exact .none
  | cons hab _ ih =>
    cases i with
    | zero => exact .some hab
    | succ i => exact ih i

end

lemma RewordedItems.forall₂ {items items' : List Value} (h : RewordedItems R items items') :
    List.Forall₂ (Reworded R) items items' := by
  induction items generalizing items' with
  | nil =>
    cases h
    exact .nil
  | cons v rest ih =>
    obtain ⟨w, rest', rfl, hv, hrest⟩ := h
    exact .cons hv (ih hrest)

lemma RewordedEntries.find? {entries entries' : Mapping} (h : RewordedEntries R entries entries')
    (key : String) :
    Option.Rel (Reworded R) (Mapping.find? entries key) (Mapping.find? entries' key) := by
  induction entries generalizing entries' with
  | nil =>
    cases h
    exact .none
  | cons e rest ih =>
    obtain ⟨w, rest', rfl, hv, hrest⟩ := h
    rw [Mapping.find?, Mapping.find?]
    split_ifs
    · exact .some hv
    · exact ih hrest

/-- The child of a value under a component. -/
lemma Reworded.child? {v w : Value} (h : Reworded R v w) (component : String) :
    Option.Rel (Reworded R) (v.child? component) (w.child? component) := by
  cases v with
  | arr items =>
    obtain ⟨items', rfl, hitems⟩ := h
    rw [Value.child?, Value.child?, ← hitems.forall₂.length_eq]
    cases KeyPath.index? component items.length with
    | none => exact .none
    | some i => exact rel_getElem? hitems.forall₂ i
  | obj entries =>
    obtain ⟨entries', rfl, hentries⟩ := h
    exact hentries.find? component
  | str s =>
    obtain ⟨s', rfl, -⟩ := h
    exact .none
  | null | bool _ | num _ =>
    cases h
    exact .none

/-- What is found along a path. -/
lemma Reworded.lookup? {v w : Value} (h : Reworded R v w) (path : List String) :
    Option.Rel (Reworded R) (v.lookup? path) (w.lookup? path) := by
  induction path generalizing v w with
  | nil => exact .some h
  | cons component rest ih => exact rel_bind (h.child? component) fun v w hvw => ih hvw

lemma RewordedEntries.lookup? {m m' : Mapping} (h : RewordedEntries R m m') (path : List String) :
    Option.Rel (Reworded R) (Mapping.lookup? m path) (Mapping.lookup? m' path) := by
  cases path with
  | nil => exact .none
  | cons component rest => exact rel_bind (h.find? component) fun v w hvw => hvw.lookup? rest

/-! ### A string in the place of another one -/

lemma rewordedItems_modify (hR : ∀ s, R s s) {items : List Value} {i : ℕ} {v : Value}
    (hv : items[i]? = some v) {f : Value → Value} (hf : Reworded R v (f v)) :
    RewordedItems R items (items.modify i f) := by
  induction items generalizing i with
  | nil => simp at hv
  | cons w rest ih =>
    cases i with
    | zero =>
      obtain rfl : w = v := by simpa using hv
      exact ⟨f w, rest, by simp, hf, .refl hR rest⟩
    | succ i => exact ⟨w, rest.modify i f, by simp, .refl hR w, ih (by simpa using hv)⟩

/-- An insertion into mappings that differ in their strings alone. -/
lemma RewordedEntries.insert {m m' : Mapping} {v v' : Value} (hm : RewordedEntries R m m')
    (hv : Reworded R v v') (key : String) :
    RewordedEntries R (Mapping.insert m key v) (Mapping.insert m' key v') := by
  induction m generalizing m' with
  | nil =>
    cases hm
    exact ⟨v', [], rfl, hv, rfl⟩
  | cons e rest ih =>
    obtain ⟨w, rest', rfl, hw, hrest⟩ := hm
    rw [Mapping.insert, Mapping.insert]
    split_ifs
    · exact ⟨v', rest', rfl, hv, hrest⟩
    · exact ⟨w, _, rfl, hw, ih hrest⟩

lemma rewordedEntries_insert (hR : ∀ s, R s s) {m : Mapping} {key : String} {v w : Value}
    (hv : Mapping.find? m key = some v) (hw : Reworded R v w) :
    RewordedEntries R m (Mapping.insert m key w) := by
  have hinsert := (RewordedEntries.refl hR m).insert hw key
  rwa [Mapping.insert_of_find? hv] at hinsert

/-- A related string in the place of a string. -/
lemma reworded_put (hR : ∀ s, R s s) {place : List Step} {v : Value} {s s' : String}
    (hs : v.at? place = some (.str s)) (h : R s s') : Reworded R v (v.put place (.str s')) := by
  induction place generalizing v with
  | nil =>
    rw [at?] at hs
    obtain rfl := Option.some.inj hs
    rw [put]
    exact ⟨s', rfl, h⟩
  | cons step rest ih =>
    cases step with
    | key k =>
      cases v with
      | obj m =>
        rw [at?] at hs
        obtain ⟨w, hw, hs⟩ := Option.bind_eq_some_iff.mp hs
        rw [put, hw]
        exact ⟨_, rfl, rewordedEntries_insert hR hw (ih hs)⟩
      | _ => simp [at?] at hs
    | index i =>
      cases v with
      | arr items =>
        rw [at?] at hs
        obtain ⟨w, hw, hs⟩ := Option.bind_eq_some_iff.mp hs
        rw [put]
        exact ⟨_, rfl, rewordedItems_modify hR hw (ih hs)⟩
      | _ => simp [at?] at hs

end Value

/-! ### Tokens that stay -/

namespace Placeholder

variable {t : Token}

/-- A text around a token is replaced on both sides of it alone. -/
lemma substitute_append_token {k : List Char} (h : t.Proper k) (f : Token → String)
    (before after : String) :
    substitute f (before ++ t.rawText ++ after) =
      substitute f before ++ f t ++ substitute f after := by
  have hpieces : pieces (before ++ t.rawText ++ after).toList =
      pieces before.toList ++ .token t :: pieces after.toList := by
    rw [String.toList_append, String.toList_append, Token.rawText, String.toList_ofList,
      List.append_assoc]
    exact pieces_append_token h before.toList after.toList
  rw [substitute_eq, hpieces, List.flatMap_append, List.flatMap_cons, String.ext_iff]
  simp [substitute_eq, Piece.write]

/-- A token whose key may stand between marks is written properly. -/
lemma Token.exists_proper (hne : t.key ≠ "") (hkey : IsKey t.key.toList) : ∃ k, t.Proper k := by
  rw [Token.key, String.toList_ofList] at hkey
  refine isBody_iff.mp ?_
  simp only [isBody, Bool.and_eq_true, decide_eq_true_eq, List.all_eq_true]
  refine ⟨?_, fun c hc => by simpa [and_assoc] using hkey c hc⟩
  intro hbody
  exact hne (by rw [Token.key, hbody]; rfl)

end Placeholder

/-! ### Compiling -/

namespace Store

open Value

variable {R : String → String → Prop} {m : Mapping}

/-- Compiling a string. -/
lemma reworded_compileAt (hR : ∀ s, R s s) (h : ∀ s, R s (compileText m s)) (place : List Step) :
    RewordedEntries R m (compileAt m place) := by
  rw [compileAt]
  split
  · next s hs =>
    obtain ⟨m', hput, hm'⟩ := reworded_put hR hs (h s)
    rw [hput]
    exact hm'
  · exact .refl hR m

/-- Compiling the strings at some places, one after the other. -/
theorem reworded_foldl_compileAt (hR : ∀ s, R s s) (htrans : ∀ ⦃a b c⦄, R a b → R b c → R a c)
    (h : ∀ m', RewordedEntries R m m' → ∀ s, R s (compileText m' s)) (places : List (List Step)) :
    RewordedEntries R m (places.foldl compileAt m) := by
  have hfold : ∀ (places : List (List Step)) (m' : Mapping), RewordedEntries R m m' →
      RewordedEntries R m (places.foldl compileAt m') := by
    intro places
    induction places with
    | nil => exact fun m' hm' => hm'
    | cons place rest ih =>
      intro m' hm'
      exact ih _ (hm'.trans htrans (reworded_compileAt hR (h m' hm') place))
  exact hfold places m (.refl hR m)

/-- **Compiling** rewrites strings alone, each by a step that the relation
allows under the settings that have been compiled so far. -/
theorem reworded_compileAll (hR : ∀ s, R s s) (htrans : ∀ ⦃a b c⦄, R a b → R b c → R a c)
    (h : ∀ m', RewordedEntries R m m' → ∀ s, R s (compileText m' s)) :
    RewordedEntries R m (compileAll m) :=
  reworded_foldl_compileAt hR htrans h _

/-! ### Paths that lead nowhere -/

/-- What a string becomes when it is compiled, any number of times, while a path
leads nowhere. -/
def Recompiled (path : List String) : String → String → Prop :=
  Relation.ReflTransGen fun s s' => ∃ m, Mapping.lookup? m path = none ∧ s' = compileText m s

variable {path : List String}

/-- Compiling makes no path lead anywhere. -/
lemma recompiled_compileAll (h : Mapping.lookup? m path = none) :
    RewordedEntries (Recompiled path) m (compileAll m) := by
  refine reworded_compileAll (fun _ => .refl) (fun _ _ _ h h' => h.trans h') fun m' hm' s => ?_
  have hrel := hm'.lookup? path
  rw [h] at hrel
  exact .single ⟨m', eq_none_of_rel hrel, rfl⟩

/-- A token whose path leads nowhere stays between what becomes of the texts
before and after it. -/
lemma Recompiled.exists_append {t : Placeholder.Token} {k : List Char} (ht : t.Proper k)
    {before after s : String} (h : Recompiled (KeyPath.split t.key) (before ++ t.rawText ++ after) s) :
    ∃ before' after', s = before' ++ t.rawText ++ after' ∧
      Recompiled (KeyPath.split t.key) before before' ∧
        Recompiled (KeyPath.split t.key) after after' := by
  induction h with
  | refl => exact ⟨before, after, rfl, .refl, .refl⟩
  | tail _ hstep ih =>
    obtain ⟨before', after', rfl, hbefore, hafter⟩ := ih
    obtain ⟨m, hnone, rfl⟩ := hstep
    refine ⟨compileText m before', compileText m after', ?_, hbefore.tail ⟨m, hnone, rfl⟩,
      hafter.tail ⟨m, hnone, rfl⟩⟩
    rw [compileText, Placeholder.substitute_append_token ht, hnone]
    rfl

end Store

end PageTree
