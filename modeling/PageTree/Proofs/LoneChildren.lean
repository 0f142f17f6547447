/-
Lone children.

What is inside a node, a style sheet or a style rule is given as a list under `children`; a
mapping that stands there alone is read as a list of one item. So is a text inside a node, but
a text inside a style sheet or a style rule is passed over, although it is a rule of its own
as an item of a list.

A tree is read by way of each of its parts: its reading is a function of that of the part, and
one from which the part can be told, unless the tree is refused. So it is enough to compare
readings where `children` stand, and both agreement and loss carry over to every tree.

* `TreePart`, `TreePart.InTree`: the payloads and rule bodies of a tree, by their places;
* `Faithful`: a reading by way of a part;
* `TreePart.At.exists_read_put`, `TreePart.InTree.exists_ofValue_put`: a tree by way of one
  of its parts;
* `TreePart.ofValue_lone_child`: **a lone child**;
* `TreePart.not_ofValue_lone_child`: a lone text in a style sheet.
-/
import PageTree.Proofs.Places
import PageTree.Proofs.RefusedTrees

namespace PageTree

variable {m : Mapping} {k : String} {v w : Value} {step place : List Step}

/-! ### Keys of a value -/

/-- An entry of a mapping that is put in stands in it behind what was before it. -/
lemma Mapping.exists_insert_eq (m : Mapping) (key : String) :
    ∃ before after, ∀ v, insert m key v = before ++ (key, v) :: after := by
  induction m with
  | nil => exact ⟨[], [], fun _ => rfl⟩
  | cons e rest ih =>
    by_cases hkey : e.1 = key
    · exact ⟨[], rest, fun v => by rw [insert, if_pos hkey, ← hkey]; rfl⟩
    · obtain ⟨before, after, heq⟩ := ih
      exact ⟨e :: before, after, fun v => by rw [insert, if_neg hkey, heq]; rfl⟩

lemma Mapping.filter_insert (m : Mapping) (key : String) (c : Value) :
    (insert m key c).filter (·.1 ≠ key) = m.filter (·.1 ≠ key) := by
  induction m with
  | nil => simp [insert]
  | cons e rest ih =>
    rw [insert]
    split_ifs with hkey
    · simp [hkey]
    · rw [List.filter_cons, List.filter_cons, ih]

/-- Whether a value stands under a key in a mapping, or in one that is an item of a sequence. -/
inductive Value.KeyAt : Value → List Step → String → Value → Prop
  | single {m : Mapping} {k : String} {v : Value} (h : Mapping.find? m k = some v) :
    KeyAt (.obj m) [.key k] k v
  | item {items : List Value} {i : ℕ} {m : Mapping} {k : String} {v : Value}
    (h : items[i]? = some (.obj m)) (hk : Mapping.find? m k = some v) :
    KeyAt (.arr items) [.index i, .key k] k v

namespace Value

lemma KeyAt.at? (h : KeyAt w step k v) : w.at? step = some v := by
  cases h with
  | single h => exact (at?_key h).trans rfl
  | item h hk => exact (at?_index h).trans ((at?_key hk).trans rfl)

end Value

/-! ### Readings -/

variable {α β γ δ : Type}

/-- Whether something is read by way of a part: it is refused if the part is, and may be for
another reason; if it is not, what the part is read as can be told from it. -/
structure Faithful (f : Except TreeError α → Except TreeError β) : Prop where
  refuses : ∀ e, ∃ e', f (.error e) = .error e'
  elsewhere : ∀ {a e}, f (.ok a) = .error e → ∀ b, f (.ok b) = .error e
  injective : ∀ {a b : α}, f (.ok a) = f (.ok b) → a = b ∨ ∃ e, f (.ok a) = .error e

namespace Faithful

lemma id : Faithful (fun r : Except TreeError α => r) where
  refuses e := ⟨e, rfl⟩
  elsewhere h := nomatch h
  injective h := .inl (Except.ok.inj h)

/-- What is read in the same way has the same parts, if it is read at all. -/
lemma eq_or_refused {f : Except TreeError α → Except TreeError β} (hf : Faithful f)
    {r s : Except TreeError α} (h : f r = f s) : r = s ∨ ∃ e, f r = .error e := by
  cases r with
  | error e => exact .inr (hf.refuses e)
  | ok a =>
    cases s with
    | error e =>
      obtain ⟨e', he'⟩ := hf.refuses e
      exact .inr ⟨e', h.trans he'⟩
    | ok b => exact (hf.injective h).imp_left (congrArg Except.ok)

lemma comp {f : Except TreeError β → Except TreeError γ}
    {g : Except TreeError α → Except TreeError β} (hf : Faithful f) (hg : Faithful g) :
    Faithful (fun r => f (g r)) where
  refuses e := by
    obtain ⟨e', he'⟩ := hg.refuses e
    rw [he']
    exact hf.refuses e'
  elsewhere {a e} h b := by
    cases hga : g (.ok a) with
    | error e' => rwa [hg.elsewhere hga b, ← hga]
    | ok c =>
      rw [hga] at h
      cases hgb : g (.ok b) with
      | error e' =>
        rw [hg.elsewhere hgb a] at hga
        cases hga
      | ok d => exact hf.elsewhere h d
  injective {a b} h := by
    obtain heq | herr := hf.eq_or_refused h
    · obtain heq | ⟨e, he⟩ := hg.injective heq
      · exact .inl heq
      · rw [he]
        exact .inr (hf.refuses e)
    · exact .inr herr

/-- Reading something before the part and something after it. -/
lemma between (before : Except TreeError γ) (after : Except TreeError δ) {f : γ → α → δ → β}
    (hf : ∀ c d, Function.Injective fun a => f c a d) :
    Faithful fun r => do let c ← before; let a ← r; let d ← after; return f c a d where
  refuses e := by
    cases before with
    | error e' => exact ⟨e', rfl⟩
    | ok c => exact ⟨e, rfl⟩
  elsewhere {a e} h b := by
    cases before with
    | error e' => exact h
    | ok c =>
      cases after with
      | error e' => exact h
      | ok d => cases h
  injective {a b} h := by
    cases before with
    | error e => exact .inr ⟨e, rfl⟩
    | ok c =>
      cases after with
      | error e => exact .inr ⟨e, rfl⟩
      | ok d => exact .inl (hf c d (Except.ok.inj h))

lemma map {f : α → β} (hf : Function.Injective f) :
    Faithful fun r : Except TreeError α => r.map f where
  refuses e := ⟨e, rfl⟩
  elsewhere h := nomatch h
  injective h := .inl (hf (Except.ok.inj h))

end Faithful

/-! ### Reading what is inside a part -/

namespace Node

lemma ofEntries_append (m n : Mapping) :
    ofEntries (m ++ n) = do
      let nodes ← ofEntries m
      let more ← ofEntries n
      return nodes ++ more := by
  induction m with
  | nil =>
    rw [List.nil_append, ofEntries]
    cases ofEntries n <;> rfl
  | cons e rest ih =>
    rw [List.cons_append, ofEntries, ih, ofEntries]
    simp only [bind_assoc, pure_bind, List.cons_append]

lemma ofItems_append (items more : List Value) :
    ofItems (items ++ more) = do
      let nodes ← ofItems items
      let rest ← ofItems more
      return nodes ++ rest := by
  induction items with
  | nil =>
    rw [List.nil_append, ofItems]
    cases ofItems more <;> rfl
  | cons v rest ih =>
    rw [List.cons_append, ofItems_cons, ih, ofItems_cons]
    simp only [bind_assoc, pure_bind, List.append_assoc]

/-- A lone mapping or text inside a node is the same as a list of one item. -/
lemma ofInside_lone (h : (∃ n, v = .obj n) ∨ ∃ s, v = .str s) :
    ofInside v = ofInside (.arr [v]) := by
  have hlist : ofInside (.arr [v]) = (ofItem v).map (· ++ []) := by
    rw [ofInside, ofItems_cons, ofItems]
    cases ofItem v <;> rfl
  rw [hlist]
  obtain ⟨n, rfl⟩ | ⟨s, rfl⟩ := h
  · rw [ofInside, ofItem]
    cases ofEntries n <;> simp [Except.map]
  · rfl

lemma ofChildren_insert (m : Mapping) (c : Value) :
    ofChildren (Mapping.insert m childrenKey c) = ofInside c := by
  induction m with
  | nil => rw [Mapping.insert, ofChildren, if_pos rfl]
  | cons e rest ih =>
    rw [Mapping.insert]
    split_ifs with hkey
    · rw [ofChildren, if_pos hkey]
    · rw [ofChildren, if_neg hkey, ih]

/-- The nodes of entries by way of one of them. -/
lemma exists_ofEntries_insert (m : Mapping) (k : String) :
    ∃ f, Faithful f ∧ ∀ v, ofEntries (Mapping.insert m k v) = f (ofEntry k v) := by
  obtain ⟨before, after, hinsert⟩ := Mapping.exists_insert_eq m k
  refine ⟨_, .between (ofEntries before) (ofEntries after) (f := fun c a d => c ++ a :: d) ?_, ?_⟩
  · intro c d a b h
    exact (List.cons.inj (List.append_cancel_left h)).1
  · intro v
    rw [hinsert, ofEntries_append, ofEntries]
    simp only [bind_assoc, pure_bind]

/-- The nodes of what is inside a node by way of one of them. -/
lemma exists_ofInside_put (h : w.KeyAt step k v) :
    ∃ f, Faithful f ∧ ∀ new, ofInside (w.put step new) = f (ofEntry k new) := by
  cases h with
  | @single m _ _ hv =>
    obtain ⟨f, hf, hread⟩ := exists_ofEntries_insert m k
    refine ⟨f, hf, fun new => ?_⟩
    rw [Value.put_key hv, Value.put, ofInside, hread]
  | @item items i m _ _ hm hv =>
    obtain ⟨f, hf, hread⟩ := exists_ofEntries_insert m k
    obtain ⟨hi, hitem⟩ := List.getElem?_eq_some_iff.mp hm
    refine ⟨_, (Faithful.between (ofItems (items.take i)) (ofItems (items.drop (i + 1)))
      (f := fun c a d => c ++ (a ++ d)) ?_).comp hf, ?_⟩
    · intro c d a b h
      exact List.append_cancel_right (List.append_cancel_left h)
    · intro new
      rw [Value.put, List.modify_eq_take_cons_drop hi, hitem, Value.put_key hv, Value.put, ofInside,
        ofItems_append, ofItems_cons, ofItem, hread]
      simp only [bind_assoc, pure_bind]

end Node

namespace StyleRule

lemma ofEntries_append (m n : Mapping) : ofEntries (m ++ n) = ofEntries m ++ ofEntries n := by
  induction m with
  | nil => rfl
  | cons e rest ih => rw [List.cons_append, ofEntries, ih, ofEntries, List.cons_append]

lemma ofItems_append (items more : List Value) :
    ofItems (items ++ more) = ofItems items ++ ofItems more := by
  induction items with
  | nil => rfl
  | cons v rest ih =>
    cases v with
    | obj m => rw [List.cons_append, ofItems, ih, ofItems, List.append_assoc]
    | str css => rw [List.cons_append, ofItems, ih, ofItems, List.cons_append]
    | _ => rw [List.cons_append, ofItems, ih, ofItems] <;> simp

/-- A lone mapping inside a style sheet or a rule is the same as a list of one item. -/
lemma ofValue_lone_mapping (n : Mapping) : ofValue (.obj n) = ofValue (.arr [.obj n]) := by
  rw [ofValue, ofValue, ofItems, ofItems, List.append_nil]

lemma ofChildren_insert (m : Mapping) (c : Value) :
    ofChildren (Mapping.insert m Node.childrenKey c) = ofValue c := by
  induction m with
  | nil => rw [Mapping.insert, ofChildren, if_pos rfl]
  | cons e rest ih =>
    rw [Mapping.insert]
    split_ifs with hkey
    · rw [ofChildren, if_pos hkey]
    · rw [ofChildren, if_neg hkey, ih]

/-- The rules of entries, with one of them in its place. -/
lemma exists_ofEntries_insert (m : Mapping) (hk : k ≠ Node.textKey) :
    ∃ before after, ∀ v, ofEntries (Mapping.insert m k v) = before ++ ofBody k v :: after := by
  obtain ⟨before, after, hinsert⟩ := Mapping.exists_insert_eq m k
  refine ⟨ofEntries before, ofEntries after, fun v => ?_⟩
  rw [hinsert, ofEntries_append, ofEntries, if_neg hk]

/-- The rules of what is inside a style sheet or a rule, with one of them in its place. -/
lemma exists_ofValue_put (h : w.KeyAt step k v) (hk : k ≠ Node.textKey) :
    ∃ before after, ∀ new, ofValue (w.put step new) = before ++ ofBody k new :: after := by
  cases h with
  | @single m _ _ hv =>
    obtain ⟨before, after, hread⟩ := exists_ofEntries_insert m hk
    refine ⟨before, after, fun new => ?_⟩
    rw [Value.put_key hv, Value.put, ofValue, hread]
  | @item items i m _ _ hm hv =>
    obtain ⟨before, after, hread⟩ := exists_ofEntries_insert m hk
    obtain ⟨hi, hitem⟩ := List.getElem?_eq_some_iff.mp hm
    refine ⟨ofItems (items.take i) ++ before, after ++ ofItems (items.drop (i + 1)), fun new => ?_⟩
    rw [Value.put, List.modify_eq_take_cons_drop hi, hitem, Value.put_key hv, Value.put, ofValue,
      ofItems_append, ofItems, hread, List.append_assoc, List.append_assoc, List.cons_append]

end StyleRule

/-! ### Parts -/

/-- A part of a tree: the payload of a tag, or the body of a style rule. -/
inductive TreePart where
  | payload (tag : String)
  | body (selector : String)

namespace TreePart

/-- What a part is read as. -/
def Form : TreePart → Type
  | .payload _ => Node
  | .body _ => StyleRule

/-- Reading a part. -/
def read : (part : TreePart) → Value → Except TreeError part.Form
  | .payload tag, v => Node.ofEntry tag v
  | .body selector, v => .ok (StyleRule.ofBody selector v)

/-- Whether what is inside a part is read as nodes: the part is the payload of a document type
declaration or of an element that is no style sheet. -/
def HasNodes : TreePart → Prop
  | .payload tag => tag ≠ Node.textKey ∧ tag ≠ Node.templateKey ∧ tag ≠ Node.styleKey
  | .body _ => False

/-- Whether what is inside a part is read as rules: the part is the payload of a style sheet or
the body of a rule. -/
def HasRules : TreePart → Prop
  | .payload tag => tag = Node.styleKey
  | .body _ => True

/-- Whether a part is found at a place of another one: it is the same one, or a part is found
inside it and the part in question there. -/
inductive At (part : TreePart) : TreePart → Value → List Step → Prop
  | here {v : Value} : At part part v []
  | node {tag k : String} {m : Mapping} {w v : Value} {step place : List Step}
    (htag : (payload tag).HasNodes) (hw : Mapping.find? m Node.childrenKey = some w)
    (hk : w.KeyAt step k v) (hpart : At part (.payload k) v place) :
    At part (.payload tag) (.obj m) (.key Node.childrenKey :: (step ++ place))
  | listed {tag k : String} {items : List Value} {v : Value} {step place : List Step}
    (htag : (payload tag).HasNodes) (hdoctype : tag ≠ Node.doctypeKey)
    (hk : (Value.arr items).KeyAt step k v) (hpart : At part (.payload k) v place) :
    At part (.payload tag) (.arr items) (step ++ place)
  | rule {outer : TreePart} {k : String} {m : Mapping} {w v : Value} {step place : List Step}
    (houter : outer.HasRules) (hw : Mapping.find? m Node.childrenKey = some w)
    (hk : w.KeyAt step k v) (htext : k ≠ Node.textKey) (hpart : At part (.body k) v place) :
    At part outer (.obj m) (.key Node.childrenKey :: (step ++ place))

/-- Whether a part is found at a place of a tree. -/
def InTree (part : TreePart) (m : Mapping) (place : List Step) : Prop :=
  ∃ k v rest, Mapping.find? m k = some v ∧ At part (.payload k) v rest ∧ place = .key k :: rest

variable {part outer : TreePart}

/-- A part with nodes inside it, by way of them. -/
lemma exists_read_of_hasNodes (h : part.HasNodes) (m : Mapping) :
    ∃ f, Faithful f ∧
      ∀ c, part.read (.obj (Mapping.insert m Node.childrenKey c)) = f (Node.ofInside c) := by
  cases part with
  | body selector => exact h.elim
  | payload tag =>
    obtain ⟨htext, htemplate, hstyle⟩ := h
    by_cases hdoctype : tag = Node.doctypeKey
    · refine ⟨_, .map (f := Node.doctype) fun _ _ h => Node.doctype.inj h, fun c => ?_⟩
      rw [read, Node.ofEntry.eq_def, if_neg htext, if_pos hdoctype]
      dsimp only
      rw [Node.ofChildren_insert]
    · refine ⟨_, .map (f := Node.element tag (m.filter (·.1 ≠ Node.childrenKey)))
        fun _ _ h => (Node.element.inj h).2.2, fun c => ?_⟩
      rw [read, Node.ofEntry.eq_def, if_neg htext, if_neg hdoctype, if_neg htemplate,
        if_neg hstyle]
      dsimp only
      rw [Node.ofChildren_insert, Mapping.filter_insert]

/-- A part with rules inside it, by way of them. -/
lemma exists_read_of_hasRules (h : part.HasRules) (m : Mapping) :
    ∃ f : List StyleRule → part.Form, Function.Injective f ∧
      ∀ c, part.read (.obj (Mapping.insert m Node.childrenKey c)) =
        .ok (f (StyleRule.ofValue c)) := by
  cases part with
  | body selector =>
    refine ⟨StyleRule.block selector (m.filter (·.1 ≠ Node.childrenKey)),
      fun _ _ h => (StyleRule.block.inj h).2.2, fun c => ?_⟩
    rw [read, StyleRule.ofBody, StyleRule.ofChildren_insert, Mapping.filter_insert]
  | payload tag =>
    obtain rfl : tag = Node.styleKey := h
    refine ⟨fun rules => Node.style ⟨m.filter (·.1 ≠ Node.childrenKey), rules⟩,
      fun _ _ h => (StyleSheet.mk.inj (Node.style.inj h)).2, fun c => ?_⟩
    rw [read, Node.ofEntry.eq_def, if_neg (by decide), if_neg (by decide), if_neg (by decide),
      if_pos rfl, StyleSheet.ofPayload, StyleRule.ofChildren_insert, Mapping.filter_insert]
    rfl

/-- A part by way of one at a place of it. -/
lemma At.exists_read_put (h : At part outer v place) :
    ∃ f, Faithful f ∧ ∀ new, outer.read (v.put place new) = f (part.read new) := by
  -- by induction on the way to the part, whose steps are all readings by way of a part
  induction h with
  | here => exact ⟨_, .id, fun _ => rfl⟩
  | @node tag k m w v step place htag hw hk _ ih =>
    obtain ⟨f, hf, hnodes⟩ := exists_read_of_hasNodes htag m
    obtain ⟨g, hg, hentry⟩ := Node.exists_ofInside_put hk
    obtain ⟨f', hf', hread⟩ := ih
    refine ⟨_, (hf.comp hg).comp hf', fun new => ?_⟩
    rw [Value.put_key hw, Value.put_append hk.at?, hnodes, hentry]
    exact congrArg (fun r => f (g r)) (hread new)
  | @listed tag k items v step place htag hdoctype hk _ ih =>
    obtain ⟨g, hg, hentry⟩ := Node.exists_ofInside_put hk
    obtain ⟨f', hf', hread⟩ := ih
    obtain ⟨htext, htemplate, hstyle⟩ := htag
    have helement : Function.Injective (Node.element tag []) :=
      fun _ _ h => (Node.element.inj h).2.2
    refine ⟨_, ((Faithful.map helement).comp hg).comp hf', fun new => ?_⟩
    have hlist : ∀ u, (TreePart.payload tag).read ((Value.arr items).put step u) =
        (Node.ofInside ((Value.arr items).put step u)).map (Node.element tag []) := by
      intro u
      cases hk with
      | item =>
        rw [Value.put, read, Node.ofEntry.eq_def, if_neg htext, if_neg hdoctype, if_neg htemplate,
          if_neg hstyle, Node.ofInside]
    rw [Value.put_append hk.at?, hlist, hentry]
    exact congrArg (fun r => (g r).map (Node.element tag [])) (hread new)
  | @rule outer k m w v step place houter hw hk htext _ ih =>
    obtain ⟨f, hf, hrules⟩ := exists_read_of_hasRules houter m
    obtain ⟨before, after, hentry⟩ := StyleRule.exists_ofValue_put hk htext
    obtain ⟨f', hf', hread⟩ := ih
    have hbetween : Function.Injective fun rule => f (before ++ rule :: after) := by
      intro a b h
      exact (List.cons.inj (List.append_cancel_left (hf h))).1
    refine ⟨_, (Faithful.map hbetween).comp hf', fun new => ?_⟩
    rw [Value.put_key hw, Value.put_append hk.at?, hrules, hentry, ← hread]
    rfl

/-- A tree by way of one of its parts. -/
lemma InTree.exists_ofValue_put (h : part.InTree m place) :
    ∃ f, Faithful f ∧ ∀ new, Node.ofValue ((Value.obj m).put place new) = f (part.read new) := by
  obtain ⟨k, v, rest, hv, hpart, rfl⟩ := h
  obtain ⟨f, hf, hentries⟩ := Node.exists_ofEntries_insert m k
  obtain ⟨f', hf', hread⟩ := hpart.exists_read_put
  refine ⟨_, hf.comp hf', fun new => ?_⟩
  rw [Value.put_key hv, Node.ofValue, hentries]
  exact congrArg f (hread new)

/-! ### A lone child -/

/-- A tree whose part at a place has some entries, and `children` in them. -/
def withChildren (m : Mapping) (place : List Step) (entries : Mapping) (c : Value) : Value :=
  (Value.obj m).put place (.obj (Mapping.insert entries Node.childrenKey c))

/-- **A lone child** that is a mapping is the same as a list with this child, and so is a text
inside a node. A text inside a style sheet or a style rule is the same as an empty list, so it
is not the same as a list with this text, except that the tree may be refused. -/
theorem ofValue_lone_child (h : part.InTree m place) (entries : Mapping) :
    (part.HasNodes → ∀ c, (∃ n, c = .obj n) ∨ (∃ s, c = .str s) →
      Node.ofValue (withChildren m place entries c) =
        Node.ofValue (withChildren m place entries (.arr [c]))) ∧
    (part.HasRules → ∀ n,
      Node.ofValue (withChildren m place entries (.obj n)) =
        Node.ofValue (withChildren m place entries (.arr [.obj n]))) ∧
    (part.HasRules → ∀ s,
      Node.ofValue (withChildren m place entries (.str s)) =
        Node.ofValue (withChildren m place entries (.arr [])) ∧
      (Node.ofValue (withChildren m place entries (.str s)) =
          Node.ofValue (withChildren m place entries (.arr [.str s])) ↔
        ∃ e, Node.ofValue (withChildren m place entries (.str s)) = .error e)) := by
  obtain ⟨f, hf, hread⟩ := h.exists_ofValue_put
  simp only [withChildren, hread]
  refine ⟨fun hnodes c hc => ?_, fun hrules n => ?_, fun hrules s => ?_⟩
  · obtain ⟨g, -, hinside⟩ := exists_read_of_hasNodes hnodes entries
    rw [hinside, hinside, Node.ofInside_lone hc]
  · obtain ⟨g, -, hinside⟩ := exists_read_of_hasRules hrules entries
    rw [hinside, hinside, StyleRule.ofValue_lone_mapping]
  · obtain ⟨g, hg, hinside⟩ := exists_read_of_hasRules hrules entries
    rw [hinside, hinside, hinside]
    refine ⟨rfl, fun heq => ?_, fun ⟨e, he⟩ => ?_⟩
    · obtain heq | hrefused := hf.injective heq
      · cases hg heq
      · exact hrefused
    · rw [he]
      exact (hf.elsewhere he _).symm

/-- A media rule in a style sheet in the head of a page. -/
theorem ofValue_lone_child_media :
    let media : Value := .obj [("@media print", .obj [])]
    let m : Mapping := [("head", .arr [.obj [("style", .obj [("children", media)])]])]
    let place : List Step :=
      [.key "head", .index 0, .key "style", .key "children", .key "@media print"]
    let nested : Mapping := [("nav", .obj [("display", .str "none")])]
    (body "@media print").InTree m place ∧ (body "@media print").HasRules ∧
      Node.ofValue (withChildren m place [] (.obj nested)) =
        Node.ofValue (withChildren m place [] (.arr [.obj nested])) ∧
      Node.ofValue (withChildren m place [] (.str "nav")) =
        Node.ofValue (withChildren m place [] (.arr [])) := by
  intro media m place nested
  have hstyle : (payload "style").HasRules := rfl
  have hsheet : At (body "@media print") (payload "style") (.obj [("children", media)])
      [.key "children", .key "@media print"] :=
    .rule hstyle rfl (.single rfl) (by decide) .here
  have hpart : (body "@media print").InTree m place := by
    refine ⟨"head", _, _, rfl, .listed ⟨?_, ?_, ?_⟩ ?_ (.item rfl rfl) hsheet, rfl⟩
    all_goals decide
  have hlone := ofValue_lone_child hpart []
  exact ⟨hpart, trivial, hlone.2.1 trivial nested, (hlone.2.2 trivial "nav").1⟩

/-- A text in a style sheet, alone and in a list. -/
theorem not_ofValue_lone_child :
    let m : Mapping := [("style", .obj [])]
    let css := "p\x7bmargin:0\x7d"
    (payload "style").InTree m [.key "style"] ∧
      Node.ofValue (withChildren m [.key "style"] [] (.str css)) = .ok [.style ⟨[], []⟩] ∧
      Node.ofValue (withChildren m [.key "style"] [] (.arr [.str css])) =
        .ok [.style ⟨[], [.raw css]⟩] ∧
      Node.ofValue (withChildren m [.key "style"] [] (.str css)) ≠
        Node.ofValue (withChildren m [.key "style"] [] (.arr [.str css])) := by
  refine ⟨⟨"style", _, [], rfl, .here, rfl⟩, rfl, rfl, fun h => ?_⟩
  cases h

end TreePart

end PageTree
