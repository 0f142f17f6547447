/-
Pages rendered one after the other.

Nothing of a page stays behind in its renderer. Rendering touches the counters
alone, and every counter that is raised is lowered again, also where a template
breaks the walk off inside other nodes and templates. So a renderer with any
past writes what a new one writes.

* `Renderer.render_snd`: rendering leaves a renderer as it was;
* `Renderer.Reached`: the renderers that there are, with any past;
* `Renderer.renderAll`: some pages, one after the other, with the renderer after
  each;
* `Renderer.renderAll_eq_fresh`: each of them is the page of a new renderer.
-/
import PageTree.Proofs.Walk

namespace PageTree

namespace Renderer

/-! ### Renderers with a past -/

/-- The renderers that there are: new ones, and what becomes of them by a change
of their options or by a page. -/
inductive Reached : Renderer → Prop
  /-- A new renderer. -/
  | new (config : Store) (templates : Templates) : Reached (new config templates)
  /-- A renderer whose options were changed. -/
  | withOptions {r : Renderer} (h : Reached r) (options : RenderOptions) :
      Reached (r.withOptions options)
  /-- A renderer after a page, finished or not. -/
  | render {r : Renderer} (h : Reached r) (nodes : List Node) : Reached (r.render nodes).2

/-- A page leaves the renderer as it was. -/
lemma render_snd (r : Renderer) (nodes : List Node) : (r.render nodes).2 = r := by
  have hnesting : (r.write r.nesting.enterNode nodes).leaveNode.nesting = r.nesting := by
    rw [Written.leaveNode, write_nesting]
    rfl
  rw [render]
  simp only [hnesting]

/-- Between two pages both counters are idle. -/
lemma Reached.nesting_eq {r : Renderer} (h : Reached r) : r.nesting = .idle := by
  induction h with
  | new config templates => rfl
  | withOptions _ options ih => exact ih
  | @render r _ nodes ih => rw [render_snd, ih]

/-- A renderer with any past is a new one. -/
lemma Reached.eq_fresh {r : Renderer} (h : Reached r) :
    r = (Renderer.new r.config r.templates).withOptions r.options := by
  have hnesting := h.nesting_eq
  obtain ⟨config, templates, options, nesting⟩ := r
  obtain rfl : nesting = .idle := hnesting
  rfl

/-! ### Pages one after the other -/

/-- The pages of some lists of nodes, one after the other, with the renderer
after each page. -/
def renderAll (r : Renderer) : List (List Node) → List (Page × Renderer)
  | [] => []
  | nodes :: rest => r.render nodes :: renderAll (r.render nodes).2 rest

/-- Every page is written by the renderer as it was before the first one. -/
lemma renderAll_eq (r : Renderer) (trees : List (List Node)) :
    r.renderAll trees = trees.map fun nodes => (r.page nodes, r) := by
  induction trees with
  | nil => rfl
  | cons nodes rest ih =>
    have hfirst : r.render nodes = (r.page nodes, r) := Prod.ext rfl (r.render_snd nodes)
    rw [renderAll, render_snd, ih, hfirst, List.map_cons]

/-- **No memory**: whatever a renderer has rendered before, each of the pages
that it renders one after the other is the page of a new renderer with the same
configuration, templates and options, with the same failure if there is one; and
after each page its counters are idle, and it is as good as new. -/
theorem renderAll_eq_fresh {r : Renderer} (h : Reached r) (trees : List (List Node)) :
    let fresh := (Renderer.new r.config r.templates).withOptions r.options
    (r.renderAll trees = trees.map fun nodes => (fresh.page nodes, fresh)) ∧
      ∀ after ∈ r.renderAll trees,
        after.2.nesting.nodes.isIdle = true ∧ after.2.nesting.templates.isIdle = true := by
  intro fresh
  have hfresh : r = fresh := h.eq_fresh
  refine ⟨?_, fun after hafter => ?_⟩
  · rw [renderAll_eq, hfresh]
  · rw [renderAll_eq] at hafter
    obtain ⟨nodes, -, rfl⟩ := List.mem_map.mp hafter
    rw [h.nesting_eq]
    exact ⟨rfl, rfl⟩

/-- Two pages after one that broke off inside a template. -/
theorem renderAll_eq_fresh_loop :
    let r := ((loopRenderer.withOptions ⟨false, true, 1⟩).render [.template "loop"]).2
    let fresh := (Renderer.new r.config r.templates).withOptions r.options
    let trees := [[Node.element "p" [] [.template "loop"]], [.text "a"]]
    Reached r ∧ (r.renderAll trees = trees.map fun nodes => (fresh.page nodes, fresh)) ∧
      ∀ after ∈ r.renderAll trees,
        after.2.nesting.nodes.isIdle = true ∧ after.2.nesting.templates.isIdle = true := by
  intro r fresh trees
  have hreached : Reached r := .render (.withOptions (.new _ _) _) _
  exact ⟨hreached, renderAll_eq_fresh hreached trees⟩

end Renderer

end PageTree
