/-
Parts of a tree that are not rendered.

What is inside a void element is not rendered, and neither are the attributes and the
children of an element whose tag is unknown or empty. A walk does not enter such parts:
it writes nothing of them, opens no template in them and meets no failure there, so
others may stand in their place, at any number of places in the tree and in the trees of
its templates.

* `Node.SameRendered`: trees that differ in parts that are not rendered;
* `Templates.SameRendered`: sources whose templates differ in such parts;
* `Renderer.walk_eq_of_sameRendered`, `Renderer.expand_eq_of_sameRendered`: walks, and
  templates in them;
* `Renderer.render_eq_of_sameRendered`: **what is not rendered cannot matter**.
-/
import PageTree.Proofs.Walk

namespace PageTree

/-! ### Trees that differ in parts that are not rendered -/

/-- Trees that differ in nothing but the children of void elements, and the attributes
and the children of elements whose tag is unknown or empty. -/
inductive Node.SameRendered : List Node → List Node → Prop
  /-- There are no nodes. -/
  | nil : SameRendered [] []
  /-- The first nodes are the same. -/
  | same (node : Node) {xs ys : List Node} (h : SameRendered xs ys) :
      SameRendered (node :: xs) (node :: ys)
  /-- The first nodes may differ inside a document type declaration. -/
  | doctype {cs cs' : List Node} (hc : SameRendered cs cs') {xs ys : List Node}
      (h : SameRendered xs ys) : SameRendered (.doctype cs :: xs) (.doctype cs' :: ys)
  /-- The first nodes may differ inside an element. -/
  | element (tag : String) (m : Mapping) {cs cs' : List Node} (hc : SameRendered cs cs')
      {xs ys : List Node} (h : SameRendered xs ys) :
      SameRendered (.element tag m cs :: xs) (.element tag m cs' :: ys)
  /-- The first nodes are void elements, with any children. -/
  | void {tag : String} (htag : Html.kind? tag = some .void) (m : Mapping)
      (cs cs' : List Node) {xs ys : List Node} (h : SameRendered xs ys) :
      SameRendered (.element tag m cs :: xs) (.element tag m cs' :: ys)
  /-- The first nodes are elements whose tag is unknown or empty, with any attributes and
  any children. -/
  | unknown {tag : String} (htag : tag = "" ∨ Html.kind? tag = none) (m m' : Mapping)
      (cs cs' : List Node) {xs ys : List Node} (h : SameRendered xs ys) :
      SameRendered (.element tag m cs :: xs) (.element tag m' cs' :: ys)

lemma Node.SameRendered.refl (nodes : List Node) : SameRendered nodes nodes := by
  induction nodes with
  | nil => exact .nil
  | cons node rest ih => exact .same node ih

/-- Whether two texts of a template are wrong in the same way, or are those of trees that
differ in parts that are not rendered. -/
inductive Template.SameRendered (name source source' : String) : Prop
  | wrong {reason : Failure} (h : nodes name source = .error reason)
      (h' : nodes name source' = .error reason)
  | trees {xs ys : List Node} (h : nodes name source = .ok xs) (h' : nodes name source' = .ok ys)
      (hsame : Node.SameRendered xs ys)

lemma Template.SameRendered.refl (name source : String) : SameRendered name source source := by
  cases h : nodes name source with
  | error reason => exact .wrong h h
  | ok xs => exact .trees h h (.refl xs)

/-- Whether two sources have templates of the same names, and the templates differ in
parts that are not rendered. -/
def Templates.SameRendered (ts ts' : Templates) : Prop :=
  ∀ name, Option.Rel (Template.SameRendered name) (ts name) (ts' name)

namespace Renderer

variable {config : Store} {e : Nesting → String → Written} {xs ys : List Node}

/-! ### Walks -/

/-- A node whose children are rendered in the same way. -/
lemma walkNode_element_congr {tag : String} {m : Mapping} {cs cs' : List Node}
    (h : ∀ n, walk config e n cs = walk config e n cs') (n : Nesting) :
    walkNode config e n (.element tag m cs) = walkNode config e n (.element tag m cs') := by
  rw [walkNode, walkNode, funext h]

/-- The children of a void element are not walked. -/
lemma walkNode_void {tag : String} (htag : Html.kind? tag = some .void) (m : Mapping)
    (cs cs' : List Node) (n : Nesting) :
    walkNode config e n (.element tag m cs) = walkNode config e n (.element tag m cs') := by
  rw [walkNode, walkNode, htag]

/-- An element whose tag is unknown is a comment, and one whose tag is empty is nothing. -/
lemma walkNode_unknown {tag : String} (htag : tag = "" ∨ Html.kind? tag = none) (m m' : Mapping)
    (cs cs' : List Node) (n : Nesting) :
    walkNode config e n (.element tag m cs) = walkNode config e n (.element tag m' cs') := by
  rw [walkNode, walkNode]
  rcases htag with htag | htag
  · rw [if_pos htag, if_pos htag]
  · rw [htag]

/-- Walks over such trees are the same, whatever templates write. -/
theorem walk_eq_of_sameRendered (h : Node.SameRendered xs ys) (n : Nesting) :
    walk config e n xs = walk config e n ys := by
  induction h generalizing n with
  | nil => rfl
  | same node _ ih => rw [walk, walk, funext ih]
  | doctype _ _ ihc ih => rw [walk, walk, walkNode, walkNode, funext ihc, funext ih]
  | element tag m _ _ ihc ih => rw [walk, walk, walkNode_element_congr ihc, funext ih]
  | void htag m cs cs' _ ih => rw [walk, walk, walkNode_void htag m cs cs', funext ih]
  | unknown htag m m' cs cs' _ ih => rw [walk, walk, walkNode_unknown htag m m' cs cs', funext ih]

/-- Such templates are the same, with any room inside them. -/
theorem expand_eq_of_sameRendered (r : Renderer) {ts : Templates}
    (h : r.templates.SameRendered ts) (room : ℕ) :
    r.expand room = expand { r with templates := ts } room := by
  induction room with
  | zero =>
    funext n name
    rw [expand, expand]
  | succ room ih =>
    funext n name
    have hname := h name
    rw [expand, expand, ih]
    dsimp only
    generalize r.templates name = source?, ts name = source?' at hname ⊢
    cases hname with
    | none => rfl
    | some hsource =>
      cases hsource with
      | wrong hnodes hnodes' => simp only [hnodes, hnodes']
      | trees hnodes hnodes' hsame =>
        simp only [hnodes, hnodes', walk_eq_of_sameRendered hsame]

/-! ### Pages -/

/-- **What is not rendered cannot matter**: trees that differ in nothing but the children of
void elements and the insides of unknown elements give the same page, with the same
failure if there is one, and leave the renderer in the same state; and the same page comes
from any template source whose templates differ in such parts too. -/
theorem render_eq_of_sameRendered (r : Renderer) {nodes nodes' : List Node}
    (h : Node.SameRendered nodes nodes') :
    r.render nodes = r.render nodes' ∧
      ∀ ts, r.templates.SameRendered ts →
        r.page nodes = page { r with templates := ts } nodes' := by
  have hwrite : ∀ n, r.write n nodes = r.write n nodes' :=
    fun n => walk_eq_of_sameRendered h n
  refine ⟨by rw [render, render, hwrite], fun ts hts => ?_⟩
  have hwrite' : ∀ n, r.write n nodes = write { r with templates := ts } n nodes' := by
    intro n
    rw [hwrite, write, write, expand_eq_of_sameRendered r hts]
  rw [page, page, render, render, hwrite']

/-- The template of a line with a template without end inside it, which is void. -/
def lineSource : String :=
  "\x7b\"hr\": \x7b\"children\": [\x7b\"include\": \"loop\"\x7d]\x7d\x7d"

/-- A template without end in a void element, a missing one in an unknown element, and both
kinds of elements in a template. -/
theorem render_eq_of_sameRendered_line :
    let r : Renderer := new .empty fun name =>
      if name = "line" then some lineSource else if name = "loop" then some loopSource else none
    let ts : Templates := fun name =>
      if name = "line" then some "\x7b\"hr\": null\x7d"
      else if name = "loop" then some loopSource else none
    let nodes := [Node.element "div" [] [.element "br" [] [.template "loop"], .element "widget"
      [("class", .str "x")] [.template "gone"], .template "line"], .element "" [] [.text "a"]]
    let nodes' := [Node.element "div" [] [.element "br" [] [], .element "widget" [] [.text "b"],
      .template "line"], .element "" [("id", .null)] []]
    Node.SameRendered nodes nodes' ∧ r.templates.SameRendered ts ∧
      r.render nodes = r.render nodes' ∧ r.page nodes = page { r with templates := ts } nodes' := by
  intro r ts nodes nodes'
  have hsame : Node.SameRendered nodes nodes' :=
    .element "div" [] (.void (by decide +kernel) [] _ _ <|
      .unknown (.inr (by decide +kernel)) _ _ _ _ <| .same _ .nil) <|
      .unknown (.inl rfl) _ _ _ _ .nil
  have hparse : Source.parse lineSource ((Format.ofPath? "line").getD .json) "line" =
      .ok [("hr", .obj [("children", .arr [.obj [("include", .str "loop")]])])] := by rfl
  have hline : Template.nodes "line" lineSource = .ok [.element "hr" [] [.template "loop"]] := by
    rw [Template.nodes, hparse]
    rfl
  have hparse' : Source.parse "\x7b\"hr\": null\x7d" ((Format.ofPath? "line").getD .json) "line" =
      .ok [("hr", .null)] := by rfl
  have hline' : Template.nodes "line" "\x7b\"hr\": null\x7d" = .ok [.element "hr" [] []] := by
    rw [Template.nodes, hparse']
    rfl
  have hts : r.templates.SameRendered ts := by
    intro name
    show Option.Rel _ (if _ then _ else _) (if _ then _ else _)
    split_ifs with hname
    · subst hname
      exact .some (.trees hline hline' (.void (by decide +kernel) _ _ _ .nil))
    · exact .some (.refl name loopSource)
    · exact .none
  obtain ⟨hrender, hpage⟩ := render_eq_of_sameRendered r hsame
  exact ⟨hsame, hts, hrender, hpage ts hts⟩

end Renderer

end PageTree
