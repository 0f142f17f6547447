/-
Templates written out in place.

A node that names a template may be replaced by the nodes of the template. The
walk over the new tree has more room, as one template less is open around these
nodes; so it writes the same, unless the old walk broke off because too many
templates were open.

* `Node.Inlined`: a tree in which one node that names a template is replaced by
  nodes;
* `Renderer.walk_below_of_inlined`: the old walk is the new one, or breaks off
  inside it;
* `Renderer.render_eq_of_inlined`: **transparency** of templates.
-/
import PageTree.Proofs.Walk

namespace PageTree

/-! ### Trees with a template written out -/

/-- One node that names a template, anywhere in a tree, is replaced by some
nodes. -/
inductive Node.Inlined (name : String) (ns : List Node) : List Node → List Node → Prop
  /-- It is the first node. -/
  | here (rest : List Node) : Inlined name ns (.template name :: rest) (ns ++ rest)
  /-- It is in a later node. -/
  | next (node : Node) {xs ys : List Node} (h : Inlined name ns xs ys) :
      Inlined name ns (node :: xs) (node :: ys)
  /-- It is below a document type declaration. -/
  | doctype {xs ys : List Node} (h : Inlined name ns xs ys) (rest : List Node) :
      Inlined name ns (.doctype xs :: rest) (.doctype ys :: rest)
  /-- It is below an element. -/
  | element (tag : String) (attributes : Mapping) {xs ys : List Node}
      (h : Inlined name ns xs ys) (rest : List Node) :
      Inlined name ns (.element tag attributes xs :: rest) (.element tag attributes ys :: rest)

namespace Renderer

open Written

variable {r : Renderer} {name source : String} {ns : List Node}

/-! ### The walk over both trees -/

/-- A node that names a template is the template's nodes with less room, or
breaks off. -/
lemma walkNode_template_below (hsource : r.templates name = some source)
    (hns : Template.nodes name source = .ok ns) (room : ℕ) (n : Nesting) :
    Below (walkNode r.config (r.expand room) n (.template name))
      (walk r.config (r.expand room) n ns) := by
  rw [walkNode]
  cases room with
  | zero =>
    refine .inr ⟨⟨name, r.options.maxTemplateDepth, rfl⟩, ?_⟩
    exact ⟨_, String.empty_append.symm⟩
  | succ room =>
    have hopen : (r.expand (room + 1) n.enterNode name).leaveNode =
        walk r.config (r.expand room) n ns := by
      rw [expand, hsource]
      simp only [hns]
      exact (walk_steady (expand_steady r room) ns).enter_leave n
    rw [hopen]
    exact walk_below (expand_below r r.options (Nat.le_succ room)) n ns

/-- The walk over a tree is the walk over the tree with a template written out,
or breaks off inside it. -/
theorem walk_below_of_inlined (hsource : r.templates name = some source)
    (hns : Template.nodes name source = .ok ns) (room : ℕ) {xs ys : List Node}
    (h : Node.Inlined name ns xs ys) (n : Nesting) :
    Below (walk r.config (r.expand room) n xs) (walk r.config (r.expand room) n ys) := by
  induction h generalizing n with
  | here rest =>
    rw [walk, walk_append]
    exact (walkNode_template_below hsource hns room n).andThen fun n => .refl _
  | next node _ ih =>
    rw [walk, walk]
    exact (Below.refl _).andThen ih
  | doctype _ rest ih =>
    rw [walk, walk, walkNode, walkNode]
    exact ((Below.refl _).andThen ih).leaveNode.andThen fun n => .refl _
  | element tag attributes _ rest ih =>
    rw [walk, walk, walkNode, walkNode]
    refine Below.andThen (Below.leaveNode ?_) fun n => .refl _
    -- below an unknown, empty or void tag neither tree is walked
    split
    · exact .refl _
    · split
      · exact .refl _
      · exact .refl _
      · exact ((Below.refl _).andThen ih).andThen fun n => .refl _

/-! ### Pages -/

/-- **Transparency of templates**: a template that is there and can be read may
be written out in place of any node that names it. The page, the failure that
may have ended it and the renderer after it are the same, unless too many
templates were open. -/
theorem render_eq_of_inlined (r : Renderer) (name source : String) (ns : List Node)
    (hsource : r.templates name = some source) (hns : Template.nodes name source = .ok ns)
    (nodes nodes' : List Node) (h : Node.Inlined name ns nodes nodes')
    (hdeep : ∀ inner limit, (r.page nodes).failure ≠ some (.tooDeep inner limit)) :
    r.render nodes' = r.render nodes := by
  have hbelow := walk_below_of_inlined hsource hns
    (r.options.maxTemplateDepth - r.nesting.enterNode.templates.current) h r.nesting.enterNode
  have hwrite : r.write r.nesting.enterNode nodes = r.write r.nesting.enterNode nodes' :=
    hbelow.eq fun ⟨inner, limit, hfail⟩ => hdeep inner limit hfail
  rw [render, render, hwrite]

/-- The template of a menu, which names another one. -/
def menuSource : String :=
  "\x7b\"ul\": \x7b\"children\": [\x7b\"include\": \"item\"\x7d]\x7d\x7d"

/-- A renderer with the template of a menu and that of its item. -/
def menuRenderer : Renderer :=
  new .empty (Templates.ofList [("menu", menuSource), ("item", "\x7b\"li\": null\x7d")])

/-- A menu below an element, with text around it. -/
theorem render_eq_of_inlined_menu :
    (menuRenderer.templates "menu" = some menuSource ∧
      Template.nodes "menu" menuSource = .ok [.element "ul" [] [.template "item"]] ∧
      Node.Inlined "menu" [.element "ul" [] [.template "item"]]
        [.text "a", .element "nav" [] [.template "menu", .text "b"]]
        [.text "a", .element "nav" [] [.element "ul" [] [.template "item"], .text "b"]] ∧
      ∀ inner limit,
        (menuRenderer.page [.text "a", .element "nav" [] [.template "menu", .text "b"]]).failure ≠
          some (.tooDeep inner limit)) ∧
    menuRenderer.render
        [.text "a", .element "nav" [] [.element "ul" [] [.template "item"], .text "b"]] =
      menuRenderer.render [.text "a", .element "nav" [] [.template "menu", .text "b"]] := by
  have hsource : menuRenderer.templates "menu" = some menuSource := rfl
  have hparse : Source.parse menuSource ((Format.ofPath? "menu").getD .json) "menu" =
      .ok [("ul", .obj [("children", .arr [.obj [("include", .str "item")]])])] := by
    rfl
  have hns : Template.nodes "menu" menuSource = .ok [.element "ul" [] [.template "item"]] := by
    rw [Template.nodes, hparse]
    rfl
  have hinlined : Node.Inlined "menu" [.element "ul" [] [.template "item"]]
      [.text "a", .element "nav" [] [.template "menu", .text "b"]]
      [.text "a", .element "nav" [] [.element "ul" [] [.template "item"], .text "b"]] :=
    .next _ (.element "nav" [] (.here [.text "b"]) [])
  have hfailure : (menuRenderer.page
      [.text "a", .element "nav" [] [.template "menu", .text "b"]]).failure = none := by
    rw [← Option.isNone_iff_eq_none]
    decide +kernel
  have hdeep : ∀ inner limit,
      (menuRenderer.page [.text "a", .element "nav" [] [.template "menu", .text "b"]]).failure ≠
        some (.tooDeep inner limit) := by
    intro inner limit
    rw [hfailure]
    simp
  exact ⟨⟨hsource, hns, hinlined, hdeep⟩, render_eq_of_inlined menuRenderer "menu" menuSource _
    hsource hns _ _ hinlined hdeep⟩

end Renderer

end PageTree
