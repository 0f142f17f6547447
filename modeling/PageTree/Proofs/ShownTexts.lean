/-
The texts that a page shows.

The texts of a tree stand in its page in document order, each as it is written on
its own: the markup between them belongs to no text. What is inside a void or an
unknown element is not written, and templates and linked data only add to what
stands between the texts.

* `Woven`: texts that stand in a page one behind the other;
* `Node.shownTexts`, `Renderer.walk_shows`: the texts of some nodes, and the walk
  that writes them;
* `Node.textsOfValue`: the strings of a value that are texts of its nodes;
* `Node.sublist_of_ofValue`: they are among the texts of the nodes, in order;
* `Node.forall₂_textsOfValue`: the texts of values that differ in their strings;
* `LinkedData.sublist_inject`: linked data in the head.
-/
import Mathlib.Data.List.Forall2
import PageTree.LinkedData
import PageTree.Proofs.Compiling
import PageTree.Proofs.Walk

namespace PageTree

/-! ### Results -/

lemma exists_of_bind_eq_ok {ε α β : Type} {x : Except ε α} {f : α → Except ε β} {b : β}
    (h : (x >>= f) = .ok b) : ∃ a, x = .ok a ∧ f a = .ok b := by
  cases x with
  | error e => cases h
  | ok a => exact ⟨a, rfl, h⟩

lemma exists_of_map_eq_ok {ε α β : Type} {x : Except ε α} {f : α → β} {b : β}
    (h : x.map f = .ok b) : ∃ a, x = .ok a ∧ f a = b := by
  cases x with
  | error e => cases h
  | ok a => exact ⟨a, rfl, Except.ok.inj h⟩

lemma eq_ok_of_mapError {ε ε' α : Type} {x : Except ε α} {f : ε → ε'} {a : α}
    (h : x.mapError f = .ok a) : x = .ok a := by
  cases x with
  | error e => cases h
  | ok b => exact congrArg Except.ok (Except.ok.inj h)

lemma eq_ok_of_toOption {ε α : Type} {x : Except ε α} {a : α} (h : x.toOption = some a) :
    x = .ok a := by
  cases x with
  | error e => cases h
  | ok b => exact congrArg Except.ok (Option.some.inj h)

/-! ### Texts one behind the other -/

/-- Whether some texts stand in a page one behind the other, with anything
between them. -/
inductive Woven : List String → String → Prop
  | nil (page : String) : Woven [] page
  | cons (before text : String) {texts : List String} {rest : String} (h : Woven texts rest) :
    Woven (text :: texts) (before ++ text ++ rest)

namespace Woven

variable {as bs : List String} {p q : String}

lemma single (text : String) : Woven [text] text := by
  simpa using Woven.cons "" text (.nil "")

lemma before (h : Woven as p) (s : String) : Woven as (s ++ p) := by
  cases h with
  | nil page => exact .nil _
  | cons before text h =>
    rw [← String.append_assoc, ← String.append_assoc]
    exact .cons (s ++ before) text h

/-- Two pages, one behind the other. -/
lemma append (h : Woven as p) (h' : Woven bs q) : Woven (as ++ bs) (p ++ q) := by
  induction h with
  | nil page => exact h'.before page
  | cons before text _ ih =>
    rw [List.cons_append, String.append_assoc]
    exact .cons before text ih

/-- Some of the texts. -/
lemma sublist (h : Woven as p) (hsub : bs.Sublist as) : Woven bs p := by
  induction h generalizing bs with
  | nil page =>
    rw [List.sublist_nil.mp hsub]
    exact .nil page
  | cons before text _ ih =>
    cases hsub with
    | cons _ hsub => exact (ih hsub).before (before ++ text)
    | cons_cons _ hsub => exact .cons before text (ih hsub)

end Woven

/-! ### Texts of nodes -/

namespace Node

mutual

/-- The texts of some nodes that a page shows, in order. -/
def shownTexts : List Node → List String
  | [] => []
  | node :: rest => shownTextsIn node ++ shownTexts rest

/-- The texts of a node that a page shows, in order. -/
def shownTextsIn : Node → List String
  | .text content => [content]
  | .doctype children => shownTexts children
  | .element tag _ children =>
    if Html.kind? tag = some .normal then shownTexts children else []
  | .style _ | .template _ => []

end

lemma shownTexts_append (as bs : List Node) :
    shownTexts (as ++ bs) = shownTexts as ++ shownTexts bs := by
  induction as with
  | nil => rfl
  | cons node as ih => rw [List.cons_append, shownTexts, shownTexts, ih, List.append_assoc]

end Node

/-! ### Walks -/

/-- Whether a part of a walk that does not break off writes some texts, one behind
the other. -/
def Written.Shows (w : Written) (texts : List String) : Prop :=
  w.failure = none → Woven texts w.text

namespace Written

variable {w : Written} {f : Nesting → Written} {as bs : List String}

lemma shows_nil (w : Written) : w.Shows [] := fun _ => .nil w.text

lemma Shows.andThen (h : w.Shows as) (hf : ∀ n, (f n).Shows bs) :
    (w.andThen f).Shows (as ++ bs) := by
  intro hno
  cases hw : w.failure with
  | some e =>
    rw [andThen_of_failure hw, hw] at hno
    exact absurd hno (by simp)
  | none =>
    rw [andThen_of_no_failure hw] at hno ⊢
    exact (h hw).append (hf w.nesting hno)

end Written

namespace Renderer

open Written

variable {config : Store} {e : Nesting → String → Written}

/-- An element with a closing tag shows what is shown inside it. -/
lemma shows_normal {t : String} (ht : Html.kind? t = some .normal) {children : List Node}
    {texts : List String} (h : ∀ n, (walk config e n children).Shows texts) (m : Mapping) (n : Nesting) :
    (walkNode config e n (.element t m children)).Shows texts := by
  have hne : t ≠ "" := by
    rintro rfl
    exact absurd ht (by decide +kernel)
  have hopened :=
    (shows_nil (ofText n.enterNode ("<" ++ t ++ attributes config t m ++ ">"))).andThen h
  have hclosed := hopened.andThen fun n => shows_nil (ofText n ("</" ++ t ++ ">"))
  rw [List.nil_append, List.append_nil] at hclosed
  rw [walkNode, if_neg hne, ht]
  exact hclosed

mutual

/-- A walk that does not break off writes the texts of its nodes, one behind the
other. -/
theorem walk_shows : ∀ (n : Nesting) (nodes : List Node),
    (walk config e n nodes).Shows ((Node.shownTexts nodes).map (text config))
  | n, [] => by
    rw [walk, Node.shownTexts]
    exact shows_nil _
  | n, node :: rest => by
    rw [walk, Node.shownTexts, List.map_append]
    exact (walkNode_shows n node).andThen fun n => walk_shows n rest

/-- The step of `walk_shows`, one case for each kind of node. -/
theorem walkNode_shows : ∀ (n : Nesting) (node : Node),
    (walkNode config e n node).Shows ((Node.shownTextsIn node).map (text config))
  | n, .doctype children => by
    rw [walkNode, Node.shownTextsIn]
    exact (shows_nil (ofText n.enterNode Html.doctype)).andThen fun n => walk_shows n children
  | n, .text content => by
    rw [walkNode, Node.shownTextsIn]
    exact fun _ => .single (text config content)
  | n, .element tag m children => by
    rw [walkNode, Node.shownTextsIn]
    by_cases hnormal : Html.kind? tag = some .normal
    · rw [if_pos hnormal]
      exact shows_normal hnormal (fun n => walk_shows n children) m n
    · rw [if_neg hnormal]
      exact shows_nil _
  | n, .style sheet => by
    rw [Node.shownTextsIn]
    exact shows_nil _
  | n, .template name => by
    rw [Node.shownTextsIn]
    exact shows_nil _

end

end Renderer

/-! ### Texts of values -/

namespace Node

mutual

/-- The strings that are texts of the nodes of some entries, in order. -/
def textsOfEntries : List (String × Value) → List String
  | [] => []
  | (tag, payload) :: rest => textsOfEntry tag payload ++ textsOfEntries rest

/-- The strings that are texts of the node of a tag and its payload. -/
def textsOfEntry (tag : String) (payload : Value) : List String :=
  if tag = textKey then
    match payload with
    | .str content => [content]
    | _ => []
  else if tag = doctypeKey then
    match payload with
    | .obj entries => textsOfChildren entries
    | _ => []
  else if tag = templateKey ∨ tag = styleKey ∨ Html.kind? tag ≠ some .normal then []
  else
    match payload with
    | .obj entries => textsOfChildren entries
    | .arr items => textsOfItems items
    | .str content => [content]
    | _ => []

/-- The strings that are texts inside a payload that is a mapping. -/
def textsOfChildren : List (String × Value) → List String
  | [] => []
  | (key, v) :: rest => if key = childrenKey then textsInside v else textsOfChildren rest

/-- The strings that are texts of the value of `children`. -/
def textsInside : Value → List String
  | .arr items => textsOfItems items
  | .obj entries => textsOfEntries entries
  | .str content => [content]
  | _ => []

/-- The strings that are texts of the items of a sequence. -/
def textsOfItems : List Value → List String
  | [] => []
  | .obj entries :: rest => textsOfEntries entries ++ textsOfItems rest
  | .str content :: rest => content :: textsOfItems rest
  | _ :: rest => textsOfItems rest

end

/-- The strings of a value that are texts of its nodes, in order. -/
def textsOfValue : Value → List String
  | .obj entries => textsOfEntries entries
  | _ => []

mutual

/-- The strings of some entries are among the texts of their nodes. -/
theorem sublist_of_ofEntries : ∀ (entries : Mapping) {nodes : List Node},
    ofEntries entries = .ok nodes → (textsOfEntries entries).Sublist (shownTexts nodes)
  | [], _, h => by
    cases h
    exact .slnil
  | (tag, payload) :: rest, _, h => by
    rw [ofEntries] at h
    obtain ⟨node, hnode, h⟩ := exists_of_bind_eq_ok h
    obtain ⟨nodes, hnodes, h⟩ := exists_of_bind_eq_ok h
    cases h
    exact (sublist_of_ofEntry tag payload hnode).append (sublist_of_ofEntries rest hnodes)

/-- The strings of an entry are among the texts of its node. -/
theorem sublist_of_ofEntry (tag : String) : ∀ (payload : Value) {node : Node},
    ofEntry tag payload = .ok node → (textsOfEntry tag payload).Sublist (shownTextsIn node)
  | payload, node, h => by
    rw [ofEntry.eq_def] at h
    rw [textsOfEntry.eq_def]
    by_cases htext : tag = textKey
    · rw [if_pos htext] at h ⊢
      cases h
      cases payload with
      | str content => exact .refl _
      | _ => exact List.nil_sublist _
    rw [if_neg htext] at h ⊢
    by_cases hdoctype : tag = doctypeKey
    · rw [if_pos hdoctype] at h ⊢
      cases payload with
      | obj entries =>
        obtain ⟨children, hchildren, rfl⟩ := exists_of_map_eq_ok h
        exact sublist_of_ofChildren entries hchildren
      | _ => exact List.nil_sublist _
    rw [if_neg hdoctype] at h ⊢
    split_ifs with hskipped
    · exact List.nil_sublist _
    rw [not_or, not_or, not_not] at hskipped
    obtain ⟨htemplate, hstyle, hnormal⟩ := hskipped
    rw [if_neg htemplate, if_neg hstyle] at h
    have hshown : ∀ m children, shownTextsIn (.element tag m children) = shownTexts children :=
      fun m children => by rw [shownTextsIn, if_pos hnormal]
    cases payload with
    | obj entries =>
      obtain ⟨children, hchildren, rfl⟩ := exists_of_map_eq_ok h
      rw [hshown]
      exact sublist_of_ofChildren entries hchildren
    | arr items =>
      obtain ⟨children, hchildren, rfl⟩ := exists_of_map_eq_ok h
      rw [hshown]
      exact sublist_of_ofItems items hchildren
    | str content =>
      cases h
      rw [hshown]
      exact .refl _
    | _ => exact List.nil_sublist _

/-- The strings inside a payload are among the texts of the nodes inside it. -/
theorem sublist_of_ofChildren : ∀ (entries : Mapping) {nodes : List Node},
    ofChildren entries = .ok nodes → (textsOfChildren entries).Sublist (shownTexts nodes)
  | [], _, h => by
    cases h
    exact .slnil
  | (key, v) :: rest, _, h => by
    rw [ofChildren] at h
    rw [textsOfChildren]
    split_ifs at h ⊢
    · exact sublist_of_ofInside v h
    · exact sublist_of_ofChildren rest h

/-- The strings of the value of `children` are among the texts of its nodes. -/
theorem sublist_of_ofInside : ∀ (v : Value) {nodes : List Node},
    ofInside v = .ok nodes → (textsInside v).Sublist (shownTexts nodes)
  | .arr items, _, h => sublist_of_ofItems items h
  | .obj entries, _, h => sublist_of_ofEntries entries h
  | .str content, _, h => by
    cases h
    exact .refl _
  | .null, _, _ | .bool _, _, _ | .num _, _, _ => List.nil_sublist _

/-- The strings of the items of a sequence are among the texts of their nodes. -/
theorem sublist_of_ofItems : ∀ (items : List Value) {nodes : List Node},
    ofItems items = .ok nodes → (textsOfItems items).Sublist (shownTexts nodes)
  | [], _, h => by
    cases h
    exact .slnil
  | .obj entries :: rest, _, h => by
    rw [ofItems] at h
    obtain ⟨nodes, hnodes, h⟩ := exists_of_bind_eq_ok h
    obtain ⟨more, hmore, h⟩ := exists_of_bind_eq_ok h
    cases h
    rw [shownTexts_append]
    exact (sublist_of_ofEntries entries hnodes).append (sublist_of_ofItems rest hmore)
  | .str content :: rest, _, h => by
    rw [ofItems] at h
    obtain ⟨more, hmore, h⟩ := exists_of_bind_eq_ok h
    cases h
    exact (sublist_of_ofItems rest hmore).cons_cons content
  | .arr _ :: rest, _, h | .null :: rest, _, h | .bool _ :: rest, _, h
  | .num _ :: rest, _, h => sublist_of_ofItems rest h

end

/-- The strings of a value are among the texts of its nodes, in order. -/
lemma sublist_of_ofValue {v : Value} {nodes : List Node} (h : ofValue v = .ok nodes) :
    (textsOfValue v).Sublist (shownTexts nodes) := by
  cases v with
  | obj entries => exact sublist_of_ofEntries entries h
  | _ => exact List.nil_sublist _

/-! ### Values that differ in their strings -/

open Value

variable {R : String → String → Prop}

mutual

/-- The strings of entries that differ in their strings alone are related. -/
theorem forall₂_textsOfEntries : ∀ (entries : Mapping) {entries' : Mapping},
    RewordedEntries R entries entries' →
    List.Forall₂ R (textsOfEntries entries) (textsOfEntries entries')
  | [], _, h => by
    cases h
    exact .nil
  | (tag, payload) :: rest, _, ⟨w, rest', hw, hpayload, hrest⟩ => by
    cases hw
    exact List.rel_append (forall₂_textsOfEntry tag payload hpayload)
      (forall₂_textsOfEntries rest hrest)

/-- The strings of payloads that differ in their strings alone are related. -/
theorem forall₂_textsOfEntry (tag : String) : ∀ (payload : Value) {payload' : Value},
    Reworded R payload payload' →
    List.Forall₂ R (textsOfEntry tag payload) (textsOfEntry tag payload')
  | .obj entries, _, ⟨entries', hw, h⟩ => by
    cases hw
    have hchildren := forall₂_textsOfChildren entries h
    rw [textsOfEntry.eq_def, textsOfEntry.eq_def]
    split_ifs
    · exact .nil
    · exact hchildren
    · exact .nil
    · exact hchildren
  | .arr items, _, ⟨items', hw, h⟩ => by
    cases hw
    rw [textsOfEntry.eq_def, textsOfEntry.eq_def]
    split_ifs
    · exact .nil
    · exact .nil
    · exact .nil
    · exact forall₂_textsOfItems items h
  | .str content, _, ⟨content', hw, h⟩ => by
    cases hw
    rw [textsOfEntry.eq_def, textsOfEntry.eq_def]
    split_ifs
    · exact .cons h .nil
    · exact .nil
    · exact .nil
    · exact .cons h .nil
  | .null, _, h | .bool _, _, h | .num _, _, h => by
    cases h
    rw [textsOfEntry.eq_def]
    split_ifs <;> exact .nil

/-- The strings inside payloads that differ in their strings alone are related. -/
theorem forall₂_textsOfChildren : ∀ (entries : Mapping) {entries' : Mapping},
    RewordedEntries R entries entries' →
    List.Forall₂ R (textsOfChildren entries) (textsOfChildren entries')
  | [], _, h => by
    cases h
    exact .nil
  | (key, v) :: rest, _, ⟨w, rest', hw, hv, hrest⟩ => by
    cases hw
    rw [textsOfChildren, textsOfChildren]
    split_ifs
    · exact forall₂_textsInside v hv
    · exact forall₂_textsOfChildren rest hrest

/-- The strings of values of `children` that differ in their strings alone are
related. -/
theorem forall₂_textsInside : ∀ (v : Value) {v' : Value}, Reworded R v v' →
    List.Forall₂ R (textsInside v) (textsInside v')
  | .obj entries, _, ⟨_, hw, h⟩ => by
    cases hw
    exact forall₂_textsOfEntries entries h
  | .arr items, _, ⟨_, hw, h⟩ => by
    cases hw
    exact forall₂_textsOfItems items h
  | .str _, _, ⟨_, hw, h⟩ => by
    cases hw
    exact .cons h .nil
  | .null, _, h | .bool _, _, h | .num _, _, h => by
    cases h
    exact .nil

/-- The strings of items that differ in their strings alone are related. -/
theorem forall₂_textsOfItems : ∀ (items : List Value) {items' : List Value},
    RewordedItems R items items' →
    List.Forall₂ R (textsOfItems items) (textsOfItems items')
  | [], _, h => by
    cases h
    exact .nil
  | .obj entries :: rest, _, ⟨_, _, hw, ⟨_, hv, hentries⟩, hrest⟩ => by
    cases hw
    cases hv
    exact List.rel_append (forall₂_textsOfEntries entries hentries) (forall₂_textsOfItems rest hrest)
  | .str _ :: rest, _, ⟨_, _, hw, ⟨_, hv, hs⟩, hrest⟩ => by
    cases hw
    cases hv
    exact .cons hs (forall₂_textsOfItems rest hrest)
  | .arr _ :: rest, _, ⟨_, rest', hw, ⟨_, hv, _⟩, hrest⟩ => by
    cases hw
    cases hv
    show List.Forall₂ R (textsOfItems rest) (textsOfItems rest')
    exact forall₂_textsOfItems rest hrest
  | .null :: rest, _, ⟨_, rest', hw, hv, hrest⟩ | .bool _ :: rest, _, ⟨_, rest', hw, hv, hrest⟩
  | .num _ :: rest, _, ⟨_, rest', hw, hv, hrest⟩ => by
    cases hw
    cases hv
    show List.Forall₂ R (textsOfItems rest) (textsOfItems rest')
    exact forall₂_textsOfItems rest hrest

end

/-- The strings that are texts of two values that differ in their strings alone are
related, one by one. -/
lemma forall₂_textsOfValue {v w : Value} (h : Reworded R v w) :
    List.Forall₂ R (textsOfValue v) (textsOfValue w) := by
  cases v with
  | obj entries =>
    obtain ⟨entries', rfl, hentries⟩ := h
    exact forall₂_textsOfEntries entries hentries
  | arr items =>
    obtain ⟨items', rfl, -⟩ := h
    exact .nil
  | str s =>
    obtain ⟨s', rfl, -⟩ := h
    exact .nil
  | _ =>
    cases h
    exact .nil

/-! ### Linked data -/

variable {tag : String} {f : Mapping → List Node → Node}

mutual

/-- A change of an element that keeps its texts keeps those of the tree. -/
theorem sublist_of_alterFirst?
    (hf : ∀ m children, (shownTextsIn (.element tag m children)).Sublist (shownTextsIn (f m children))) :
    ∀ {nodes changed : List Node}, alterFirst? tag f nodes = some changed →
      (shownTexts nodes).Sublist (shownTexts changed)
  | [], _, h => by simp [alterFirst?] at h
  | node :: rest, _, h => by
    rw [alterFirst?] at h
    split at h
    · next node' hnode =>
      cases h
      exact (sublist_of_alterFirstIn? hf hnode).append (.refl _)
    · obtain ⟨rest', hrest, rfl⟩ := Option.map_eq_some_iff.mp h
      exact (List.Sublist.refl _).append (sublist_of_alterFirst? hf hrest)

/-- The step of `sublist_of_alterFirst?`. -/
theorem sublist_of_alterFirstIn?
    (hf : ∀ m children, (shownTextsIn (.element tag m children)).Sublist (shownTextsIn (f m children))) :
    ∀ {node changed : Node}, alterFirstIn? tag f node = some changed →
      (shownTextsIn node).Sublist (shownTextsIn changed)
  | .element t m children, _, h => by
    rw [alterFirstIn?] at h
    split_ifs at h with htag
    · cases h
      rw [htag]
      exact hf m children
    · obtain ⟨children', hchildren, rfl⟩ := Option.map_eq_some_iff.mp h
      rw [shownTextsIn, shownTextsIn]
      split_ifs
      · exact sublist_of_alterFirst? hf hchildren
      · exact .slnil
  | .doctype children, _, h => by
    obtain ⟨children', hchildren, rfl⟩ := Option.map_eq_some_iff.mp h
    exact sublist_of_alterFirst? hf hchildren
  | .text _, _, h | .style _, _, h | .template _, _, h => by simp [alterFirstIn?] at h

end

end Node

/-- Linked data only adds to the texts of a page. -/
lemma LinkedData.sublist_inject (nodes : List Node) (ld : Value) :
    (Node.shownTexts nodes).Sublist (Node.shownTexts (inject nodes ld).1) := by
  have hadd : ∀ added, (Node.shownTexts nodes).Sublist (Node.shownTexts (addToHead nodes added)) := by
    intro added
    rw [addToHead]
    split
    · next changed hchanged =>
      refine Node.sublist_of_alterFirst? (fun m children => ?_) hchanged
      have hhead : Html.kind? "head" = some .normal := by decide +kernel
      rw [Node.shownTextsIn, Node.shownTextsIn, if_pos hhead, if_pos hhead, Node.shownTexts_append]
      exact List.sublist_append_left _ _
    · rw [Node.shownTexts_append]
      exact List.sublist_append_left _ _
  rw [inject]
  split
  · exact .refl _
  · exact hadd _

end PageTree
