/-
Walks over trees.

Two facts about a walk do not depend on what it writes. The counters are back
where they were when it ends, however it ends, and do not decide what it
writes; and with less room for templates inside templates it writes the same,
or breaks off because they are too deep.

* `Written.Steady`: the parts of a walk that are the same under all counters
  and leave them alone; `walk_steady` and `expand_steady`;
* `Written.Below`: the parts of a walk that are the same as others or break off
  inside them; `walk_below` and `expand_below`;
* `walk_append`: the walk over two lists of nodes, one after the other.
-/
import Mathlib.Tactic.Common
import PageTree.Render

namespace PageTree

namespace Written

/-! ### Parts of a walk -/

/-- The same part with other counters after it. -/
def withNesting (w : Written) (n : Nesting) : Written := { w with nesting := n }

lemma andThen_of_failure {w : Written} {e : RenderError} (h : w.failure = some e)
    (next : Nesting → Written) : w.andThen next = w := by
  rw [andThen, h]

lemma andThen_of_no_failure {w : Written} (h : w.failure = none) (next : Nesting → Written) :
    w.andThen next =
      ⟨w.text ++ (next w.nesting).text, (next w.nesting).failure, (next w.nesting).nesting⟩ := by
  rw [andThen, h]

/-- Only the counters after a part matter for the next one. -/
lemma andThen_congr {w : Written} {f g : Nesting → Written} (h : f w.nesting = g w.nesting) :
    w.andThen f = w.andThen g := by
  rw [andThen, andThen, h]

/-- Three parts one after the other. -/
lemma andThen_assoc (w : Written) (f g : Nesting → Written) :
    (w.andThen f).andThen g = w.andThen fun n => (f n).andThen g := by
  cases hw : w.failure with
  | some e => rw [andThen_of_failure hw, andThen_of_failure hw, andThen_of_failure hw]
  | none =>
    rw [andThen_of_no_failure hw, andThen_of_no_failure hw]
    cases hf : (f w.nesting).failure with
    | some e => rw [andThen_of_failure hf, andThen_of_failure rfl, hf]
    | none =>
      rw [andThen_of_no_failure hf, andThen_of_no_failure rfl, String.append_assoc]

/-- Nothing comes before the first part. -/
lemma ofText_empty_andThen (n : Nesting) (f : Nesting → Written) :
    (ofText n "").andThen f = f n := by
  rw [andThen_of_no_failure rfl]
  simp [ofText]

/-- Nothing comes after the last part. -/
lemma andThen_ofText_empty (w : Written) : (w.andThen fun n => ofText n "") = w := by
  obtain ⟨text, failure, n⟩ := w
  cases failure with
  | some e => rfl
  | none => simp [andThen, ofText]

/-! ### Counters -/

/-- A part of a walk that is the same under all counters and leaves them as they
were. -/
def Steady (w : Nesting → Written) : Prop := ∀ m n, w n = (w m).withNesting n

namespace Steady

variable {w f : Nesting → Written}

lemma nesting_eq (h : Steady w) (n : Nesting) : (w n).nesting = n := by
  rw [h n n]
  rfl

lemma text_eq (h : Steady w) (m n : Nesting) : (w n).text = (w m).text := by
  rw [h m n]
  rfl

lemma failure_eq (h : Steady w) (m n : Nesting) : (w n).failure = (w m).failure := by
  rw [h m n]
  rfl

/-- A text. -/
lemma ofText (s : String) : Steady fun n => Written.ofText n s := fun _ _ => rfl

/-- A failure. -/
lemma fail (e : RenderError) : Steady fun n => Written.fail n e := fun _ _ => rfl

/-- One part after another. -/
lemma andThen (hw : Steady w) (hf : Steady f) : Steady fun n => (w n).andThen f := by
  intro m n
  simp only
  cases hm : (w m).failure with
  | some e =>
    rw [andThen_of_failure hm, andThen_of_failure (hw.failure_eq m n ▸ hm)]
    exact hw m n
  | none =>
    rw [andThen_of_no_failure hm, andThen_of_no_failure (hw.failure_eq m n ▸ hm),
      hw.nesting_eq m, hw.nesting_eq n, hw.text_eq m n, hf m n]
    rfl

/-- Nothing changes in the counters after it. -/
lemma nesting_andThen (hf : Steady f) (v : Written) : (v.andThen f).nesting = v.nesting := by
  cases h : v.failure with
  | some e => rw [andThen_of_failure h]
  | none => rw [andThen_of_no_failure h, hf.nesting_eq]

/-- A part inside a node. -/
lemma inNode (hw : Steady w) : Steady fun n => (w n.enterNode).leaveNode := by
  intro m n
  simp only
  rw [hw m.enterNode n.enterNode]
  rfl

/-- A part inside a template. -/
lemma inTemplate (hw : Steady w) : Steady fun n => (w n.enterTemplate).leaveTemplate := by
  intro m n
  simp only
  rw [hw m.enterTemplate n.enterTemplate]
  rfl

/-- Inside a template that a node names, everything is as outside. -/
lemma enter_leave (hw : Steady w) (n : Nesting) :
    ((w n.enterNode.enterTemplate).leaveTemplate).leaveNode = w n := by
  rw [hw n n.enterNode.enterTemplate, hw n n]
  rfl

end Steady

/-! ### Room for templates -/

/-- Whether a part of a walk broke off because too many templates were open. -/
def TooDeep (w : Written) : Prop := ∃ name limit, w.failure = some (.tooDeep name limit)

/-- A part of a walk that is another one, or that breaks off inside it because
too many templates were open. -/
def Below (w w' : Written) : Prop :=
  w = w' ∨ w.TooDeep ∧ ∃ more, w'.text = w.text ++ more

namespace Below

variable {w w' : Written} {f g : Nesting → Written}

lemma refl (w : Written) : Below w w := .inl rfl

/-- What does not break off is the same. -/
lemma eq (h : Below w w') (hw : ¬ w.TooDeep) : w = w' :=
  h.resolve_right fun hdeep => hw hdeep.1

/-- Its text is the beginning of the other one's. -/
lemma text_isPrefix (h : Below w w') : w.text.toList <+: w'.text.toList := by
  rcases h with rfl | ⟨-, more, htext⟩
  · exact List.prefix_rfl
  · rw [htext, String.toList_append]
    exact List.prefix_append _ _

/-- One part after another. -/
lemma andThen (hw : Below w w') (hf : ∀ n, Below (f n) (g n)) :
    Below (w.andThen f) (w'.andThen g) := by
  rcases hw with rfl | ⟨⟨name, limit, hdeep⟩, more, htext⟩
  · cases hfail : w.failure with
    | some e =>
      rw [andThen_of_failure hfail, andThen_of_failure hfail]
      exact refl w
    | none =>
      rw [andThen_of_no_failure hfail, andThen_of_no_failure hfail]
      rcases hf w.nesting with heq | ⟨⟨name, limit, hdeep⟩, more, htext⟩
      · rw [heq]
        exact refl _
      · refine .inr ⟨⟨name, limit, hdeep⟩, more, ?_⟩
        rw [htext, String.append_assoc]
  · rw [andThen_of_failure hdeep]
    refine .inr ⟨⟨name, limit, hdeep⟩, ?_⟩
    cases hfail : w'.failure with
    | some e =>
      rw [andThen_of_failure hfail]
      exact ⟨more, htext⟩
    | none =>
      rw [andThen_of_no_failure hfail, htext, String.append_assoc]
      exact ⟨_, rfl⟩

/-- A part after which a node is left. -/
lemma leaveNode (h : Below w w') : Below w.leaveNode w'.leaveNode := by
  rcases h with rfl | h
  · exact refl _
  · exact .inr h

/-- A part after which a template is left. -/
lemma leaveTemplate (h : Below w w') : Below w.leaveTemplate w'.leaveTemplate := by
  rcases h with rfl | h
  · exact refl _
  · exact .inr h

end Below

end Written

namespace Renderer

open Written

variable {config : Store} {e e' : Nesting → String → Written}

/-- The walk over two lists of nodes, one after the other. -/
lemma walk_append (n : Nesting) (as bs : List Node) :
    walk config e n (as ++ bs) = (walk config e n as).andThen fun n => walk config e n bs := by
  induction as generalizing n with
  | nil => rw [List.nil_append, walk, ofText_empty_andThen]
  | cons node as ih =>
    rw [List.cons_append, walk, walk, andThen_assoc]
    congr 1
    funext n
    exact ih n

/-! ### Counters of a walk -/

mutual

/-- A walk is the same under all counters and leaves them as they were, if this
is so of the templates in it. -/
theorem walk_steady (he : ∀ name, Steady fun n => e n name) :
    ∀ nodes, Steady fun n => walk config e n nodes
  | [] => by simpa only [walk] using Steady.ofText ""
  | node :: rest => by
    simp only [walk]
    exact (walkNode_steady he node).andThen (walk_steady he rest)

/-- The step of `walk_steady`, one case for each kind of node. -/
theorem walkNode_steady (he : ∀ name, Steady fun n => e n name) :
    ∀ node, Steady fun n => walkNode config e n node
  | .doctype children => by
    simp only [walkNode]
    exact ((Steady.ofText _).andThen (walk_steady he children)).inNode
  | .text content => by
    simp only [walkNode]
    exact (Steady.ofText _).inNode
  | .element tag m children => by
    simp only [walkNode]
    split
    · exact (Steady.ofText "").inNode
    · split
      · exact (Steady.ofText _).inNode
      · exact (Steady.ofText _).inNode
      · exact (((Steady.ofText _).andThen (walk_steady he children)).andThen
          (Steady.ofText _)).inNode
  | .style sheet => by
    simp only [walkNode]
    exact (Steady.ofText _).inNode
  | .template name => by
    simp only [walkNode]
    exact (he name).inNode

end

/-- A template is the same under all counters and leaves them as they were. -/
theorem expand_steady (r : Renderer) (room : ℕ) (name : String) :
    Steady fun n => r.expand room n name := by
  induction room generalizing name with
  | zero =>
    simp only [expand]
    exact (Steady.fail _).inTemplate
  | succ room ih =>
    simp only [expand]
    split
    · exact (Steady.ofText _).inTemplate
    · split
      · exact (Steady.fail _).inTemplate
      · exact (walk_steady ih _).inTemplate

/-! ### Room of a walk -/

mutual

/-- A walk is the same as another one or breaks off inside it, if this is so of
the templates in it. -/
theorem walk_below (he : ∀ n name, Below (e n name) (e' n name)) :
    ∀ n nodes, Below (walk config e n nodes) (walk config e' n nodes)
  | n, [] => by
    rw [walk, walk]
    exact .refl _
  | n, node :: rest => by
    rw [walk, walk]
    exact (walkNode_below he n node).andThen fun n => walk_below he n rest

/-- The step of `walk_below`, one case for each kind of node. -/
theorem walkNode_below (he : ∀ n name, Below (e n name) (e' n name)) :
    ∀ n node, Below (walkNode config e n node) (walkNode config e' n node)
  | n, .doctype children => by
    rw [walkNode, walkNode]
    exact ((Below.refl _).andThen fun n => walk_below he n children).leaveNode
  | n, .text content => by
    rw [walkNode, walkNode]
    exact .refl _
  | n, .element tag m children => by
    rw [walkNode, walkNode]
    split
    · exact .refl _
    · split
      · exact .refl _
      · exact .refl _
      · exact (((Below.refl _).andThen fun n => walk_below he n children).andThen
          fun n => .refl _).leaveNode
  | n, .style sheet => by
    rw [walkNode, walkNode]
    exact .refl _
  | n, .template name => by
    rw [walkNode, walkNode]
    exact (he n.enterNode name).leaveNode

end

/-- With at least as much room inside it, under any options, a template is the
same, or broke off because too many were open. -/
theorem expand_below (r : Renderer) (options : RenderOptions) {room room' : ℕ}
    (h : room ≤ room') (n : Nesting) (name : String) :
    Below (r.expand room n name) ((r.withOptions options).expand room' n name) := by
  induction room generalizing room' n name with
  | zero =>
    refine .inr ⟨⟨name, r.options.maxTemplateDepth, rfl⟩, ?_⟩
    exact ⟨_, (String.empty_append).symm⟩
  | succ room ih =>
    obtain ⟨room', rfl⟩ := Nat.exists_eq_add_one.mpr (Nat.zero_lt_of_lt h)
    rw [expand, expand, withOptions_config, withOptions_templates]
    split
    · exact .refl _
    · split
      · exact .refl _
      · exact (walk_below (ih (Nat.le_of_succ_le_succ h)) _ _).leaveTemplate

/-! ### What nodes write -/

/-- Writing leaves the counters as they were. -/
lemma write_nesting (r : Renderer) (n : Nesting) (nodes : List Node) :
    (r.write n nodes).nesting = n :=
  (walk_steady (expand_steady r _) nodes).nesting_eq n

/-- A renderer without passes over its pages, with a limit on open templates. -/
def bare (r : Renderer) (limit : ℕ) : Renderer := r.withOptions ⟨false, false, limit⟩

/-- The page of such a renderer is what its nodes write. -/
lemma bare_page_text (r : Renderer) (limit : ℕ) (nodes : List Node) :
    ((r.bare limit).page nodes).text = ((r.bare limit).write r.nesting.enterNode nodes).text := rfl

/-- The failure of a page is that of the walk. -/
lemma page_failure (r : Renderer) (nodes : List Node) :
    (r.page nodes).failure = (r.write r.nesting.enterNode nodes).failure := rfl

/-! ### A template without end -/

/-- A list that names itself inside. -/
def loopSource : String :=
  "\x7b\"ul\": \x7b\"children\": [\x7b\"include\": \"loop\"\x7d]\x7d\x7d"

/-- A renderer whose only template names itself. -/
def loopRenderer : Renderer := new .empty (Templates.ofList [("loop", loopSource)])

lemma loopRenderer_nodes : loopRenderer.templates "loop" = some loopSource ∧
    Template.nodes "loop" loopSource = .ok [.element "ul" [] [.template "loop"]] := by
  have hparse : Source.parse loopSource ((Format.ofPath? "loop").getD .json) "loop" =
      .ok [("ul", .obj [("children", .arr [.obj [("include", .str "loop")]])])] := by rfl
  refine ⟨rfl, ?_⟩
  rw [Template.nodes, hparse]
  rfl

end Renderer

end PageTree
