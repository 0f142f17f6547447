/-
Linked data in the head of a page.

The nodes of a tree have places: the number of a node in a list, then that of one inside it,
and so on, an element coming before what is inside it. A tree is known by the nodes at its
places, each without what is inside it. So it can be told by places alone where the scripts of
linked data go, that they are all of them, and that nothing else in the tree is changed.

* `Node.at?`, `Node.bareAt?`: the node at a place, and the same without what is inside it;
* `Node.eq_of_bareAt?`: trees with the same nodes at all places;
* `Node.IsFirst`: the first element with a tag, in document order;
* `Node.AddedAt`: nodes added at the end of what is inside a place, and nothing else changed;
* `Node.found_alterFirst?`: changing the first element with a tag;
* `LinkedData.inject_exact`: **the place of linked data**.
-/
import PageTree.LinkedData
import PageTree.Proofs.RefusedTrees

namespace PageTree

namespace Node

variable {tag : String} {place : List ℕ} {node node' : Node} {added nodes rest : List Node}

/-! ### Places -/

/-- The nodes inside a node. -/
def children : Node → List Node
  | .doctype children | .element _ _ children => children
  | .text _ | .style _ | .template _ => []

/-- A node without the nodes inside it. -/
def bare : Node → Node
  | .doctype _ => .doctype []
  | .element tag attributes _ => .element tag attributes []
  | node => node

/-- The node at a place below a node; at the empty place it is the node itself. -/
def below? : Node → List ℕ → Option Node
  | node, [] => some node
  | node, i :: place => (node.children[i]?).bind (below? · place)

/-- The node at a place of some nodes: the number of one of them, then a place below it. -/
def at? (nodes : List Node) : List ℕ → Option Node
  | [] => none
  | i :: place => (nodes[i]?).bind (below? · place)

/-- The node at a place, without the nodes inside it. -/
def bareAt? (nodes : List Node) (place : List ℕ) : Option Node := (at? nodes place).map bare

/-- The nodes inside the one at a place; at the empty place these are all nodes. -/
def insideAt : List Node → List ℕ → List Node
  | nodes, [] => nodes
  | nodes, i :: place => ((nodes[i]?).map fun node => insideAt node.children place).getD []

lemma below?_of_ne_nil (h : place ≠ []) : node.below? place = at? node.children place := by
  cases place with
  | nil => exact absurd rfl h
  | cons i place => rfl

mutual

/-- **Trees are known** by the nodes at their places, each without what is inside it. -/
theorem eq_of_bareAt? : ∀ {nodes nodes' : List Node},
    (∀ place, bareAt? nodes place = bareAt? nodes' place) → nodes = nodes'
  | [], nodes', h => by
    cases nodes' with
    | nil => rfl
    | cons node' rest' => cases h [0]
  | node :: rest, nodes', h => by
    cases nodes' with
    | nil => cases h [0]
    | cons node' rest' =>
      have hbare : node.bare = node'.bare := Option.some.inj (h [0])
      have hinside : ∀ place, bareAt? node.children place = bareAt? node'.children place := by
        intro place
        cases place with
        | nil => rfl
        | cons i place => exact h (0 :: i :: place)
      have hrest : ∀ place, bareAt? rest place = bareAt? rest' place := by
        intro place
        cases place with
        | nil => rfl
        | cons i place => exact h ((i + 1) :: place)
      rw [eq_of_bare hbare hinside, eq_of_bareAt? hrest]

/-- The step of `eq_of_bareAt?`. -/
theorem eq_of_bare : ∀ {node node' : Node}, node.bare = node'.bare →
    (∀ place, bareAt? node.children place = bareAt? node'.children place) → node = node'
  | .doctype children, node', hbare, h => by
    cases node' with
    | doctype children' =>
      have hchildren : children = children' := eq_of_bareAt? h
      rw [hchildren]
    | _ => cases hbare
  | .element tag attributes children, node', hbare, h => by
    cases node' with
    | element tag' attributes' children' =>
      cases hbare
      have hchildren : children = children' := eq_of_bareAt? h
      rw [hchildren]
    | _ => cases hbare
  | .text _, node', hbare, _ | .style _, node', hbare, _ | .template _, node', hbare, _ => by
    cases node' <;> cases hbare
    rfl

end

/-! ### The first element with a tag -/

/-- Whether an element with a tag stands at a place. -/
def Tagged (nodes : List Node) (tag : String) (place : List ℕ) : Prop :=
  ∃ attributes children, at? nodes place = some (.element tag attributes children)

/-- Whether the first element with a tag, in document order, stands at a place. -/
def IsFirst (nodes : List Node) (tag : String) (place : List ℕ) : Prop :=
  Tagged nodes tag place ∧ ∀ other, Tagged nodes tag other → ¬ IsBefore other place

namespace Tagged

/-- An element stands among some nodes or inside one of them. -/
lemma exists_cons (h : Tagged nodes tag place) : ∃ i below, place = i :: below := by
  obtain ⟨_, _, hat⟩ := h
  cases place with
  | nil => cases hat
  | cons i below => exact ⟨i, below, rfl⟩

lemma not_nil : ¬ Tagged [] tag place := by
  rintro ⟨_, _, hat⟩
  cases place <;> cases hat

/-- An element in a list is in the first node or in a later one. -/
lemma of_cons (h : Tagged (node :: rest) tag place) :
    (∃ below, place = 0 :: below ∧ Tagged [node] tag (0 :: below)) ∨
      ∃ i below, place = (i + 1) :: below ∧ Tagged rest tag (i :: below) := by
  obtain ⟨i, below, rfl⟩ := h.exists_cons
  cases i with
  | zero => exact .inl ⟨below, rfl, h⟩
  | succ i => exact .inr ⟨i, below, rfl, h⟩

/-- An element in a node is the node itself or inside it. -/
lemma of_singleton (h : Tagged [node] tag place) :
    place = [0] ∨ ∃ below, place = 0 :: below ∧ Tagged node.children tag below := by
  obtain ⟨below, rfl, h⟩ | ⟨i, below, -, h⟩ := h.of_cons
  · cases below with
    | nil => exact .inl rfl
    | cons i below => exact .inr ⟨i :: below, rfl, h⟩
  · exact absurd h not_nil

end Tagged

/-! ### Nodes added at a place -/

/-- Whether nodes are added at the end of those inside a place, and all the others are as they
were: those at the other places, without what is inside them. -/
def AddedAt (place : List ℕ) (added nodes result : List Node) : Prop :=
  (∀ i below, bareAt? result (place ++ ((insideAt nodes place).length + i) :: below) =
      bareAt? added (i :: below)) ∧
    ∀ other, (∀ i below, other = place ++ i :: below → i < (insideAt nodes place).length) →
      bareAt? result other = bareAt? nodes other

namespace AddedAt

/-- Nodes added behind all of some nodes. -/
lemma append (nodes added : List Node) : AddedAt [] added nodes (nodes ++ added) := by
  refine ⟨fun i below => ?_, fun other hother => ?_⟩
  · rw [insideAt, List.nil_append, bareAt?, bareAt?, at?, at?,
      List.getElem?_append_right (Nat.le_add_right _ i), Nat.add_sub_cancel_left]
  · cases other with
    | nil => rfl
    | cons i below =>
      have hi : i < nodes.length := hother i below rfl
      rw [bareAt?, bareAt?, at?, at?, List.getElem?_append_left hi]

/-- Nodes added inside a single node. -/
lemma inside (h : AddedAt place added node.children node'.children)
    (hbare : node'.bare = node.bare) : AddedAt (0 :: place) added [node] [node'] := by
  refine ⟨fun i below => ?_, fun other hother => ?_⟩
  · let n := (insideAt node.children place).length
    have hne : place ++ (n + i) :: below ≠ [] := List.append_ne_nil_of_right_ne_nil _ (by simp)
    change (node'.below? (place ++ (n + i) :: below)).map bare = _
    rw [below?_of_ne_nil hne]
    exact h.1 i below
  · match other with
    | [] | (_ + 1) :: _ => rfl
    | [0] => exact congrArg some hbare
    | 0 :: j :: other =>
      refine h.2 (j :: other) fun i below heq => hother i below ?_
      rw [heq, List.cons_append]

/-- Nodes added inside the first one of some nodes. -/
lemma head (h : AddedAt (0 :: place) added [node] [node']) (rest : List Node) :
    AddedAt (0 :: place) added (node :: rest) (node' :: rest) := by
  refine ⟨h.1, fun other hother => ?_⟩
  match other with
  | [] | (_ + 1) :: _ => rfl
  | 0 :: other => exact h.2 (0 :: other) hother

/-- Nodes added inside a later one of some nodes. -/
lemma later {i : ℕ} {rest' : List Node} (h : AddedAt (i :: place) added rest rest') (node : Node) :
    AddedAt ((i + 1) :: place) added (node :: rest) (node :: rest') := by
  refine ⟨h.1, fun other hother => ?_⟩
  match other with
  | [] | 0 :: _ => rfl
  | (j + 1) :: other =>
    refine h.2 (j :: other) fun k below heq => hother k below ?_
    obtain ⟨rfl, rfl⟩ := List.cons.inj heq
    rfl

/-- There is one way to add nodes. -/
lemma unique {result result' : List Node} (h : AddedAt place added nodes result)
    (h' : AddedAt place added nodes result') : result = result' := by
  refine eq_of_bareAt? fun other => ?_
  by_cases hnew : ∃ i below, other = place ++ ((insideAt nodes place).length + i) :: below
  · obtain ⟨i, below, rfl⟩ := hnew
    rw [h.1, h'.1]
  · have hold : ∀ i below, other = place ++ i :: below → i < (insideAt nodes place).length := by
      intro i below heq
      by_contra hle
      obtain ⟨j, rfl⟩ := Nat.exists_eq_add_of_le (Nat.le_of_not_lt hle)
      exact hnew ⟨j, below, heq⟩
    rw [h.2 other hold, h'.2 other hold]

end AddedAt

/-! ### Changing the first element with a tag -/

/-- Whether a result is that of a search for the first element with a tag: there is none, or
nodes are added inside it. -/
def Found (tag : String) (added nodes : List Node) : Option (List Node) → Prop
  | none => ∀ place, ¬ Tagged nodes tag place
  | some result => ∃ place, IsFirst nodes tag place ∧ AddedAt place added nodes result

namespace Found

/-- The search ends at the first node if something is found there. -/
lemma head (h : Found tag added [node] (some [node'])) (rest : List Node) :
    Found tag added (node :: rest) (some (node' :: rest)) := by
  obtain ⟨place, ⟨htag, hfirst⟩, hadded⟩ := h
  obtain ⟨below, rfl, -⟩ | ⟨i, below, -, htag⟩ := htag.of_cons
  · refine ⟨0 :: below, ⟨htag, fun other hother hbefore => ?_⟩, hadded.head rest⟩
    obtain ⟨below', rfl, hfound⟩ | ⟨j, below', rfl, -⟩ := hother.of_cons
    · exact hfirst _ hfound hbefore
    · simp [isBefore_cons_iff] at hbefore
  · exact absurd htag Tagged.not_nil

/-- The search goes on behind the first node if nothing is found there. -/
lemma later {found : Option (List Node)} (hnode : Found tag added [node] none)
    (h : Found tag added rest found) : Found tag added (node :: rest) (found.map (node :: ·)) := by
  cases found with
  | none =>
    intro place htag
    obtain ⟨below, -, htag⟩ | ⟨i, below, -, htag⟩ := htag.of_cons
    · exact hnode _ htag
    · exact h _ htag
  | some result =>
    obtain ⟨place, ⟨htag, hfirst⟩, hadded⟩ := h
    obtain ⟨i, below, rfl⟩ := htag.exists_cons
    refine ⟨(i + 1) :: below, ⟨htag, fun other hother hbefore => ?_⟩, hadded.later node⟩
    obtain ⟨below', -, hfound⟩ | ⟨j, below', rfl, hfound⟩ := hother.of_cons
    · exact hnode _ hfound
    · refine hfirst (j :: below') hfound ?_
      simpa [isBefore_cons_iff] using hbefore

/-- The element itself comes first. -/
lemma here (attributes : Mapping) (children : List Node) :
    Found tag added [.element tag attributes children]
      (some [.element tag attributes (children ++ added)]) := by
  refine ⟨[0], ⟨⟨attributes, children, rfl⟩, fun other hother hbefore => ?_⟩,
    .inside (.append children added) rfl⟩
  obtain ⟨i, below, rfl⟩ := hother.exists_cons
  rcases isBefore_cons_iff.mp hbefore with hlt | ⟨-, hlex⟩
  · exact Nat.not_lt_zero i hlt
  · cases hlex

/-- The search goes on inside a node that is not such an element. -/
lemma inside {found : Option (List Node)} (htag : ¬ Tagged [node] tag [0])
    (h : Found tag added node.children found) {build : List Node → Node}
    (hbuild : ∀ result ∈ found,
      (build result).children = result ∧ (build result).bare = node.bare) :
    Found tag added [node] ((found.map build).map ([·])) := by
  cases found with
  | none =>
    intro place hplace
    obtain rfl | ⟨below, -, hbelow⟩ := hplace.of_singleton
    · exact htag hplace
    · exact h below hbelow
  | some result =>
    obtain ⟨hchildren, hbare⟩ := hbuild result rfl
    obtain ⟨place, ⟨hplace, hfirst⟩, hadded⟩ := h
    obtain ⟨i, below, rfl⟩ := hplace.exists_cons
    rw [← hchildren] at hadded
    refine ⟨0 :: i :: below, ⟨hplace, fun other hother hbefore => ?_⟩, hadded.inside hbare⟩
    obtain rfl | ⟨below', rfl, hfound⟩ := hother.of_singleton
    · exact htag hother
    · refine hfirst below' hfound ?_
      simpa [isBefore_cons_iff] using hbefore

end Found

variable (tag added)

mutual

/-- **Changing the first element** with a tag by adding nodes inside it. -/
theorem found_alterFirst? : ∀ nodes : List Node, Found tag added nodes
    (alterFirst? tag (fun attributes children => .element tag attributes (children ++ added)) nodes)
  | [] => fun _ => Tagged.not_nil
  | node :: rest => by
    have hnode := found_alterFirstIn? node
    rw [alterFirst?]
    split
    · next node' hfound =>
      rw [hfound] at hnode
      exact hnode.head rest
    · next hfound =>
      rw [hfound] at hnode
      exact hnode.later (found_alterFirst? rest)

/-- The step of `found_alterFirst?`. -/
theorem found_alterFirstIn? : ∀ node : Node, Found tag added [node]
    ((alterFirstIn? tag (fun attributes children => .element tag attributes (children ++ added))
      node).map ([·]))
  | .element t attributes children => by
    rw [alterFirstIn?]
    split_ifs with htag
    · subst htag
      exact .here attributes children
    · refine .inside ?_ (found_alterFirst? children) fun _ _ => ⟨rfl, rfl⟩
      rintro ⟨_, _, hat⟩
      cases hat
      exact htag rfl
  | .doctype children => by
    refine .inside ?_ (found_alterFirst? children) fun _ _ => ⟨rfl, rfl⟩
    rintro ⟨_, _, hat⟩
    cases hat
  | .text _ | .style _ | .template _ => by
    intro place hplace
    obtain rfl | ⟨below, -, hbelow⟩ := hplace.of_singleton
    · obtain ⟨_, _, hat⟩ := hplace
      cases hat
    · exact hbelow.not_nil

end

end Node

namespace LinkedData

open Node

/-- How many mappings there are in linked data: itself, or its items. -/
def mappingCount : Value → ℕ
  | .obj _ => 1
  | .arr items => items.countP fun v => v.asMapping?.isSome
  | _ => 0

lemma length_scripts (ld : Value) : (scripts ld).length = mappingCount ld := by
  rw [scripts, List.length_map]
  cases ld with
  | arr items => exact List.countP_eq_length_filter.symm
  | _ => rfl

/-- Whether the scripts of linked data go inside a place: that of the first `head`, or the empty
one if there is no `head`. -/
def IsHost (nodes : List Node) (place : List ℕ) : Prop :=
  IsFirst nodes "head" place ∨ place = [] ∧ ∀ other, ¬ Tagged nodes "head" other

lemma exists_addedAt_addToHead (nodes added : List Node) :
    ∃ place, IsHost nodes place ∧ AddedAt place added nodes (addToHead nodes added) := by
  have hfound := found_alterFirst? "head" added nodes
  rw [addToHead]
  split
  · next changed hchanged =>
    rw [hchanged] at hfound
    obtain ⟨place, hfirst, hadded⟩ := hfound
    exact ⟨place, .inl hfirst, hadded⟩
  · next hnone =>
    rw [hnone] at hfound
    exact ⟨[], .inr ⟨rfl, hfound⟩, .append nodes added⟩

/-- **The place of linked data**: the number that is told is that of the mappings in it. If
there are none the nodes are as they were. Otherwise the nodes that come out are the only ones
to which the scripts were added at the end of the first `head` or, if there is none, of the
list, and which are unchanged at all other places. -/
theorem inject_exact (nodes : List Node) (ld : Value) :
    (inject nodes ld).2 = mappingCount ld ∧ (scripts ld).length = mappingCount ld ∧
    (mappingCount ld = 0 → (inject nodes ld).1 = nodes) ∧
    (0 < mappingCount ld → ∃ place, IsHost nodes place ∧
      ∀ result, AddedAt place (scripts ld) nodes result ↔ result = (inject nodes ld).1) := by
  have hlength := length_scripts ld
  rw [inject, ← hlength]
  split
  · next hnone =>
    rw [hnone]
    exact ⟨rfl, rfl, fun _ => rfl, fun h => absurd h (Nat.lt_irrefl 0)⟩
  · next hsome =>
    refine ⟨rfl, rfl, fun h => absurd (List.length_eq_zero_iff.mp h) hsome, fun _ => ?_⟩
    obtain ⟨place, hhost, hadded⟩ := exists_addedAt_addToHead nodes (scripts ld)
    exact ⟨place, hhost, fun result => ⟨fun h => h.unique hadded, fun h => h ▸ hadded⟩⟩

/-- Scripts for one of two items, in a tree with a `head` inside a `head` and one behind it. -/
theorem inject_exact_heads :
    let html (first : List Node) : List Node :=
      [.doctype [.element "html" [] [.element "head" [] first, .element "head" [] []]]]
    let nodes := html [.text "a", .element "head" [] []]
    let entry : Value := .obj [("name", .str "Acme")]
    let ld : Value := .arr [entry, .str "b"]
    (mappingCount .null = 0 ∧ (inject nodes .null).1 = nodes) ∧ 0 < mappingCount ld ∧
      (inject nodes ld).1 = html [.text "a", .element "head" [] [], script entry] ∧
      ∃ place, IsHost nodes place ∧
        ∀ result, AddedAt place (scripts ld) nodes result ↔ result = (inject nodes ld).1 := by
  intro html nodes entry ld
  have hpos : 0 < mappingCount ld := by decide
  exact ⟨⟨rfl, (inject_exact nodes .null).2.2.1 rfl⟩, hpos, rfl,
    (inject_exact nodes ld).2.2.2 hpos⟩

end LinkedData

end PageTree
