/-
The limit on open templates.

A page that does not break off because too many templates were open does not
depend on the limit. One that does ends right there: no sibling, no closing tag
and no text of an enclosing template comes after it, so it is the beginning of
the page under every larger limit.

* `Renderer.write_below_limit`: what nodes write under two limits;
* `Renderer.page_below_limit`: **monotonicity** in the limit.
-/
import PageTree.Proofs.Walk

namespace PageTree

namespace Renderer

open Written

/-- What some nodes write under a limit, they write under a larger one, or it
breaks off because too many templates were open. -/
lemma write_below_limit (r : Renderer) {limit limit' : ℕ} (h : limit ≤ limit') (n : Nesting)
    (nodes : List Node) : Below ((r.bare limit).write n nodes) ((r.bare limit').write n nodes) := by
  have hroom : limit - n.templates.current ≤ limit' - n.templates.current :=
    Nat.sub_le_sub_right h n.templates.current
  exact walk_below (expand_below (r.bare limit) ⟨false, false, limit'⟩ hroom) n nodes

/-- **Monotonicity in the limit**: without passes over the page, a page that does
not break off because too many templates were open is the same under every
larger limit, with the same failure if there is one; and a page that does is the
beginning of the page under every larger limit. -/
theorem page_below_limit (r : Renderer) {limit limit' : ℕ} (h : limit ≤ limit')
    (nodes : List Node) :
    ((∀ name depth, ((r.bare limit).page nodes).failure ≠ some (.tooDeep name depth)) →
        (r.bare limit').page nodes = (r.bare limit).page nodes) ∧
      ((∃ name depth, ((r.bare limit).page nodes).failure = some (.tooDeep name depth)) →
        ((r.bare limit).page nodes).text.toList <+: ((r.bare limit').page nodes).text.toList) := by
  have hbelow := r.write_below_limit h r.nesting.enterNode nodes
  constructor
  · intro hdeep
    have hwrite := hbelow.eq fun ⟨name, depth, hfailure⟩ => hdeep name depth hfailure
    have htext : ((r.bare limit').page nodes).text = ((r.bare limit).page nodes).text := by
      rw [bare_page_text, bare_page_text, hwrite]
    have hfailure : ((r.bare limit').page nodes).failure = ((r.bare limit).page nodes).failure := by
      rw [page_failure, page_failure]
      exact congrArg Written.failure hwrite.symm
    exact congrArg₂ Page.mk htext hfailure
  · intro _
    rw [bare_page_text, bare_page_text]
    exact hbelow.text_isPrefix

/-- A template without end, under two limits. -/
theorem page_below_limit_loop :
    1 ≤ 3 ∧
    ((∀ name depth,
        ((loopRenderer.bare 1).page [.template "loop"]).failure ≠ some (.tooDeep name depth)) →
      (loopRenderer.bare 3).page [.template "loop"] =
        (loopRenderer.bare 1).page [.template "loop"]) ∧
    ((∃ name depth,
        ((loopRenderer.bare 1).page [.template "loop"]).failure = some (.tooDeep name depth)) →
      ((loopRenderer.bare 1).page [.template "loop"]).text.toList <+:
        ((loopRenderer.bare 3).page [.template "loop"]).text.toList) := by
  have hle : 1 ≤ 3 := by decide
  exact ⟨hle, page_below_limit loopRenderer hle [.template "loop"]⟩

end Renderer

end PageTree
