/-
What a page shows of the configuration.

A token reads the configuration only if its path starts with `env.`, and such a
path has `env` as its first component. So everything that is written into a
page is the same under two configurations with the same entry `env`, at every
place where a token is replaced: in texts, in attributes, in the test for
attributes that stand for nothing, in style sheets and in templates.

* `SameEnv`: configurations with the same entry `env`;
* `Scope.resolve?_congr`: the text of a token;
* `Renderer.walk_congr`, `Renderer.expand_congr`: walks, and templates in them;
* `Renderer.page_eq_of_sameEnv`: **confidentiality** of the other entries.
-/
import Mathlib.Tactic.Common
import PageTree.Render

namespace PageTree

/-- The entry of a configuration that pages may read. -/
def Store.env? (config : Store) : Option Value := Mapping.find? config.settings "env"

/-- Whether two configurations have the same entry `env`, or both none. -/
def SameEnv (c c' : Store) : Prop := c.env? = c'.env?

/-! ### Paths that lead into the configuration -/

namespace KeyPath

/-- The first component of a path ends at its first dot. -/
lemma splitDots_append_dot {cs : List Char} (h : '.' ∉ cs) (rest : List Char) :
    splitDots (cs ++ '.' :: rest) = cs :: splitDots rest := by
  induction cs with
  | nil => rfl
  | cons c cs ih =>
    have hc : c ≠ '.' := fun heq => h (heq ▸ List.mem_cons_self)
    rw [List.cons_append, splitDots, if_neg hc, ih fun hmem => h (List.mem_cons_of_mem c hmem)]

end KeyPath

namespace Scope

/-- A path into the configuration starts with the component `env`. -/
lemma split_of_isEnvPath {path : String} (h : isEnvPath path = true) :
    ∃ rest, KeyPath.split path = "env" :: rest := by
  obtain ⟨rest, hrest⟩ := List.isPrefixOf_iff_prefix.mp h
  have hpath : path.toList = ['e', 'n', 'v'] ++ '.' :: rest := hrest.symm
  refine ⟨(KeyPath.splitDots rest).map String.ofList, ?_⟩
  rw [KeyPath.split, hpath, KeyPath.splitDots_append_dot (by decide)]
  rfl

/-- A path into the configuration reads the entry `env` alone. -/
lemma get?_congr {c c' : Store} (hc : SameEnv c c') {path : String}
    (h : isEnvPath path = true) : c.get? path = c'.get? path := by
  obtain ⟨rest, hsplit⟩ := split_of_isEnvPath h
  rw [Store.get?, Store.get?, hsplit]
  exact congrArg (·.bind fun v => v.lookup? rest) hc

/-- The text of a token. -/
lemma resolve?_congr {c c' : Store} (hc : SameEnv c c') (scope : Scope) (path : String) :
    scope.resolve? c path = scope.resolve? c' path := by
  rw [resolve?, resolve?]
  by_cases h : isEnvPath path = true
  · rw [if_pos h, if_pos h, get?_congr hc h]
  · rw [if_neg h, if_neg h]

/-- A text with its tokens replaced. -/
lemma interpolate_congr {c c' : Store} (hc : SameEnv c c') (scope : Scope) (text : String) :
    scope.interpolate c text = scope.interpolate c' text := by
  simp only [interpolate, resolve?_congr hc]

end Scope

/-! ### Walks -/

namespace Renderer

variable {c c' : Store} {e : Nesting → String → Written}

/-- An attribute, its omission included. -/
lemma writeAttribute_congr (hc : SameEnv c c') (scope : Scope) (name : String) (v : Value) :
    writeAttribute c scope name v = writeAttribute c' scope name v := by
  have hunresolved : ∀ s, isUnresolved c scope s = isUnresolved c' scope s := fun s => by
    simp only [isUnresolved, Scope.resolve?_congr hc]
  have htext : attributeText? c scope v = attributeText? c' scope v := by
    cases v <;> simp only [attributeText?, hunresolved]
  simp only [writeAttribute, htext, Scope.interpolate_congr hc]

/-- The attributes of an element. -/
lemma attributes_congr (hc : SameEnv c c') (tag : String) (m : Mapping) :
    attributes c tag m = attributes c' tag m := by
  simp only [attributes, writeAttribute_congr hc]

/-- A style sheet. -/
lemma styleSheet_congr (hc : SameEnv c c') (sheet : StyleSheet) :
    styleSheet c sheet = styleSheet c' sheet := by
  simp only [styleSheet, attributes_congr hc, Scope.interpolate_congr hc]

/-- A text. -/
lemma text_congr (hc : SameEnv c c') (content : String) : text c content = text c' content := by
  simp only [text, Scope.interpolate_congr hc]

mutual

/-- A walk, with the same templates in it. -/
theorem walk_congr (hc : SameEnv c c') : ∀ n nodes, walk c e n nodes = walk c' e n nodes
  | n, [] => by rw [walk, walk]
  | n, node :: rest => by
    rw [walk, walk, walkNode_congr hc n node]
    congr 1
    funext n
    exact walk_congr hc n rest

/-- The step of `walk_congr`, one case for each kind of node. -/
theorem walkNode_congr (hc : SameEnv c c') :
    ∀ n node, walkNode c e n node = walkNode c' e n node
  | n, .doctype children => by
    have hchildren : (fun n => walk c e n children) = fun n => walk c' e n children :=
      funext fun n => walk_congr hc n children
    rw [walkNode, walkNode, hchildren]
  | n, .text content => by rw [walkNode, walkNode, text_congr hc]
  | n, .element tag m children => by
    have hchildren : (fun n => walk c e n children) = fun n => walk c' e n children :=
      funext fun n => walk_congr hc n children
    rw [walkNode, walkNode, attributes_congr hc, hchildren]
  | n, .style sheet => by rw [walkNode, walkNode, styleSheet_congr hc]
  | n, .template name => by rw [walkNode, walkNode]

end

/-- A template, by the room inside it. -/
theorem expand_congr (hc : SameEnv c c') (templates : Templates) (options : RenderOptions)
    (m m' : Nesting) (room : ℕ) :
    expand ⟨c, templates, options, m⟩ room = expand ⟨c', templates, options, m'⟩ room := by
  induction room with
  | zero =>
    funext n name
    rw [expand, expand]
  | succ room ih =>
    funext n name
    simp only [expand, ih, walk_congr hc]

/-- **Confidentiality**: under all options, the page of some nodes, with the
failure that may have ended it, depends on no entry of the configuration but
`env`. -/
theorem page_eq_of_sameEnv (c c' : Store) (hc : SameEnv c c') (templates : Templates)
    (options : RenderOptions) (nodes : List Node) :
    ((new c templates).withOptions options).page nodes =
      ((new c' templates).withOptions options).page nodes := by
  have hexpand : expand ((new c templates).withOptions options) =
      expand ((new c' templates).withOptions options) :=
    funext fun room => expand_congr hc templates options _ _ room
  have hwrite : ∀ n, write ((new c templates).withOptions options) n nodes =
      write ((new c' templates).withOptions options) n nodes := by
    intro n
    rw [write, write, hexpand]
    exact walk_congr hc n nodes
  simp only [page, render, hwrite]
  rfl

/-- Configurations that differ in the entry `site`, which a text asks for. -/
theorem page_eq_of_sameEnv_site :
    let env : String × Value := ("env", .obj [("src", .str "/static")])
    let c : Store := ⟨[env, ("site", .obj [("name", .str "Acme")])], true⟩
    let c' : Store := ⟨[("site", .str "hidden"), env], false⟩
    let nodes := [Node.text "\x7b%env.src%\x7d/\x7b%site.name%\x7d", .template "menu"]
    SameEnv c c' ∧ ((new c Templates.none).withOptions ⟨true, false, 3⟩).page nodes =
      ((new c' Templates.none).withOptions ⟨true, false, 3⟩).page nodes := by
  intro env c c' nodes
  have hc : SameEnv c c' := rfl
  exact ⟨hc, page_eq_of_sameEnv c c' hc Templates.none ⟨true, false, 3⟩ nodes⟩

end Renderer

end PageTree
