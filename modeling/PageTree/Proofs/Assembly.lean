/-
Pages put together from parts.

What the nodes of a list write is put together node by node, but the tokens that
are left are removed from the page as a whole. So a part of a page may lose text
to another part: half a token at its end is completed by what comes next. This
is the only way in which the page of two lists is not made up of their pages.

* `Renderer.draft`: what some nodes write, before the passes over the page;
* `Renderer.write_append`: two lists of nodes write one after the other;
* `Renderer.page_append_iff`: the page of two lists is made up of their pages
  exactly when nothing that is removed runs from the one into the other;
* `Renderer.not_page_append`: this does happen.
-/
import PageTree.Proofs.Cuts
import PageTree.Proofs.Walk

namespace PageTree

namespace Renderer

open Written

variable {r : Renderer}

/-- What some nodes write, before the passes over the page. -/
def draft (r : Renderer) (nodes : List Node) : String :=
  (r.write r.nesting.enterNode nodes).text

/-- Two lists of nodes write one after the other. -/
lemma write_append (n : Nesting) (as bs : List Node) :
    r.write n (as ++ bs) = (r.write n as).andThen fun n => r.write n bs := by
  have hnesting := r.write_nesting n as
  rw [write] at hnesting
  rw [write, write, walk_append]
  cases hfail : (walk r.config (r.expand (r.options.maxTemplateDepth - n.templates.current)) n
      as).failure with
  | some e => rw [andThen_of_failure hfail, andThen_of_failure hfail]
  | none => rw [andThen_of_no_failure hfail, andThen_of_no_failure hfail, hnesting, write]

/-- A page with left-over tokens removed. -/
lemma page_text (hstrip : r.options.stripUnused = true) (hmin : r.options.minimize = false)
    (nodes : List Node) : (r.page nodes).text = Cleanup.strip (r.draft nodes) := by
  show Cleanup.finish r.options.stripUnused r.options.minimize (r.draft nodes) = _
  rw [hstrip, hmin]
  rfl

/-- **Assembly**: two lists of nodes that are written without failure are so
together, and their page is made up of their pages exactly when no token, and no
attribute whose whole value is a token, runs from what the first ones write into
what the second ones write. -/
theorem page_append_iff (r : Renderer) (hstrip : r.options.stripUnused = true)
    (hmin : r.options.minimize = false) (as bs : List Node) (has : (r.page as).failure = none)
    (hbs : (r.page bs).failure = none) :
    (r.page (as ++ bs)).failure = none ∧
      ((r.page (as ++ bs)).text = (r.page as).text ++ (r.page bs).text ↔
        ¬ Cleanup.CutAcross (r.draft as).toList (r.draft bs).toList) := by
  rw [page_failure] at has hbs
  have hwrite : r.write r.nesting.enterNode (as ++ bs) =
      ⟨r.draft as ++ r.draft bs, none, r.nesting.enterNode⟩ := by
    rw [write_append, andThen_of_no_failure has, write_nesting, hbs, write_nesting]
    rfl
  have hdraft : r.draft (as ++ bs) = r.draft as ++ r.draft bs := by rw [draft, hwrite]
  refine ⟨by rw [page_failure, hwrite], ?_⟩
  rw [page_text hstrip hmin, page_text hstrip hmin, page_text hstrip hmin, hdraft,
    Cleanup.strip_append_iff]

/-- Half a token in a text, and a paragraph with the other half. -/
theorem page_append_iff_half_token :
    let r := new .empty Templates.none
    let as := [Node.text "\x7b%x"]
    let bs := [Node.element "p" [] [.text "y%\x7d"]]
    (r.options.stripUnused = true ∧ r.options.minimize = false ∧
      (r.page as).failure = none ∧ (r.page bs).failure = none) ∧
    (r.page (as ++ bs)).failure = none ∧
      ((r.page (as ++ bs)).text = (r.page as).text ++ (r.page bs).text ↔
        ¬ Cleanup.CutAcross (r.draft as).toList (r.draft bs).toList) := by
  intro r as bs
  have has : (r.page as).failure = none := rfl
  have hbs : (r.page bs).failure = none := rfl
  exact ⟨⟨rfl, rfl, has, hbs⟩, page_append_iff r rfl rfl as bs has hbs⟩

/-- Two lists of nodes need not keep their pages: the halves of a token go, and
with them the opening tag in between. -/
theorem not_page_append :
    ¬ ∀ (r : Renderer) (as bs : List Node), r.options.stripUnused = true →
      r.options.minimize = false → (r.page as).failure = none → (r.page bs).failure = none →
        (r.page (as ++ bs)).text = (r.page as).text ++ (r.page bs).text := by
  intro h
  have hjoin := h (new .empty Templates.none) [.text "\x7b%x"]
    [.element "p" [] [.text "y%\x7d"]] rfl rfl rfl rfl
  revert hjoin
  decide +kernel

end Renderer

end PageTree
