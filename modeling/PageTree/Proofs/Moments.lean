/-
Rendering, moment by moment.

The walk over a tree is taken apart into steps. At every moment some tasks are
left to be done, in order: nodes to be written, closing tags, and nodes and
templates to be left. A node that names a template is replaced by the nodes of
the template, whatever they are, so nothing in the steps themselves makes them
end. They look at the counter of open templates, and a template that is one too
many is refused before it is looked for.

* `Moment`, `Renderer.step`: what is left to be done, and the next step;
* `Renderer.mem_eval_start`: the steps from the first moment lead to a last one,
  at which all that the walk writes is written;
* `Moment.Counted`, `Renderer.counted_of_step`: the counter counts the templates
  that are open, and they are never more than the limit;
* `Renderer.step_refused`, `Renderer.page_failure_of_reaches`: a refused template
  ends the page;
* `Renderer.render_ends`: **termination** under the limit.
-/
import Mathlib.Computability.StateTransition
import PageTree.Proofs.Walk

namespace PageTree

open StateTransition

/-! ### Moments -/

/-- A part of a walk that is left to be done. -/
inductive Task where
  /-- A node is to be written. -/
  | write (node : Node)
  /-- The closing tag of an element is to be written. -/
  | close (tag : String)
  /-- A node is to be left. -/
  | leaveNode
  /-- A template is to be left. -/
  | leaveTemplate (name : String)

/-- The template that a task leaves. -/
def Task.template? : Task → Option String
  | .leaveTemplate name => some name
  | _ => none

/-- A moment of a walk: what is left to be done, and what was written. -/
structure Moment where
  todo : List Task
  written : Written

/-- The templates that are open at a moment, the innermost first. -/
def Moment.openTemplates (m : Moment) : List String := m.todo.filterMap Task.template?

namespace Renderer

/-! ### Steps -/

/-- What is written as soon as a template is entered, and what is left to be done
in it. One that is too many is left at once. -/
def enterTemplate (r : Renderer) (n : Nesting) (name : String) : Written × List Task :=
  if r.options.maxTemplateDepth < n.enterTemplate.templates.current then
    ((Written.fail n.enterTemplate (.tooDeep name r.options.maxTemplateDepth)).leaveTemplate, [])
  else
    match r.templates name with
    | none =>
      (.ofText n.enterTemplate (Html.comment ("missing include: " ++ name)), [.leaveTemplate name])
    | some source =>
      match Template.nodes name source with
      | .error reason => (.fail n.enterTemplate (.template name reason), [.leaveTemplate name])
      | .ok nodes => (.ofText n.enterTemplate "", nodes.map .write ++ [.leaveTemplate name])

/-- What is written as soon as a node is entered, and what is left to be done in
it. -/
def enterNode (r : Renderer) (n : Nesting) : Node → Written × List Task
  | .doctype children => (.ofText n.enterNode Html.doctype, children.map .write)
  | .text content => (.ofText n.enterNode (text r.config content), [])
  | .element tag m children =>
    if tag = "" then (.ofText n.enterNode "", [])
    else
      match Html.kind? tag with
      | none => (.ofText n.enterNode (Html.comment ("unknown tag: " ++ tag)), [])
      | some .void => (.ofText n.enterNode ("<" ++ tag ++ attributes r.config tag m ++ "/>"), [])
      | some .normal =>
        (.ofText n.enterNode ("<" ++ tag ++ attributes r.config tag m ++ ">"),
          children.map .write ++ [.close tag])
  | .style sheet => (.ofText n.enterNode (styleSheet r.config sheet), [])
  | .template name => r.enterTemplate n.enterNode name

/-- The next moment, if something is left to be done. After a failure nothing
more is written, but what is open is left. -/
def step (r : Renderer) (m : Moment) : Option Moment :=
  match m.todo with
  | [] => none
  | .write node :: rest =>
    match m.written.failure with
    | some _ => some ⟨rest, m.written⟩
    | none =>
      some ⟨(r.enterNode m.written.nesting node).2 ++ .leaveNode :: rest,
        m.written.andThen fun n => (r.enterNode n node).1⟩
  | .close tag :: rest => some ⟨rest, m.written.andThen fun n => .ofText n ("</" ++ tag ++ ">")⟩
  | .leaveNode :: rest => some ⟨rest, m.written.leaveNode⟩
  | .leaveTemplate _ :: rest => some ⟨rest, m.written.leaveTemplate⟩

/-- The first moment of the page of some nodes. -/
def start (r : Renderer) (nodes : List Node) : Moment :=
  ⟨nodes.map .write ++ [.leaveNode], .ofText r.nesting.enterNode ""⟩

section Equations

variable {r : Renderer} {w : Written}

/-- A template that fits, is there and can be read. -/
lemma enterTemplate_of_nodes {n : Nesting} {name source : String} {nodes : List Node}
    (hfits : ¬ r.options.maxTemplateDepth < n.enterTemplate.templates.current)
    (hsource : r.templates name = some source) (hnodes : Template.nodes name source = .ok nodes) :
    r.enterTemplate n name =
      (.ofText n.enterTemplate "", nodes.map .write ++ [.leaveTemplate name]) := by
  simp only [enterTemplate, if_neg hfits, hsource, hnodes]

/-- The step at a node, unless there was a failure. -/
lemma step_write (h : w.failure = none) (node : Node) (rest : List Task) :
    r.step ⟨.write node :: rest, w⟩ =
      some ⟨(r.enterNode w.nesting node).2 ++ .leaveNode :: rest,
        w.andThen fun n => (r.enterNode n node).1⟩ := by
  simp only [step, h]

/-- After a failure a node is passed over. -/
lemma step_write_of_failure {e : RenderError} (h : w.failure = some e) (node : Node)
    (rest : List Task) : r.step ⟨.write node :: rest, w⟩ = some ⟨rest, w⟩ := by
  simp only [step, h]

lemma step_close (tag : String) (rest : List Task) :
    r.step ⟨.close tag :: rest, w⟩ =
      some ⟨rest, w.andThen fun n => .ofText n ("</" ++ tag ++ ">")⟩ := rfl

lemma step_leaveNode (rest : List Task) :
    r.step ⟨.leaveNode :: rest, w⟩ = some ⟨rest, w.leaveNode⟩ := rfl

lemma step_leaveTemplate (name : String) (rest : List Task) :
    r.step ⟨.leaveTemplate name :: rest, w⟩ = some ⟨rest, w.leaveTemplate⟩ := rfl

end Equations

/-! ### The steps of a walk -/

section Steps

open Written

variable {r : Renderer} {w : Written} {rest : List Task}

/-- A node is left after what was written in it. -/
lemma reaches_leaveNode (h : w.failure = none) (f : Nesting → Written) :
    Reaches r.step ⟨.leaveNode :: rest, w.andThen f⟩
      ⟨rest, w.andThen fun n => (f n).leaveNode⟩ := by
  rw [andThen_of_no_failure h, andThen_of_no_failure h]
  exact .single (step_leaveNode rest)

/-- A template is left after what was written in it. -/
lemma reaches_leaveTemplate (h : w.failure = none) (name : String) (f : Nesting → Written) :
    Reaches r.step ⟨.leaveTemplate name :: rest, w.andThen f⟩
      ⟨rest, w.andThen fun n => (f n).leaveTemplate⟩ := by
  rw [andThen_of_no_failure h, andThen_of_no_failure h]
  exact .single (step_leaveTemplate name rest)

/-- The room for templates, as the counter of open templates tells it. -/
def room (r : Renderer) (n : Nesting) : ℕ := r.options.maxTemplateDepth - n.templates.current

/-- What a template leaves to be done comes to what it writes, if there is just
this room for it. -/
def TemplateReaches (r : Renderer) (room : ℕ) : Prop :=
  ∀ (w : Written) (name : String) (rest : List Task), w.failure = none → r.room w.nesting = room →
    Reaches r.step ⟨(r.enterTemplate w.nesting name).2 ++ rest,
        w.andThen fun n => (r.enterTemplate n name).1⟩
      ⟨rest, w.andThen fun n => r.expand room n name⟩

mutual

/-- Nodes that are to be written come to what the walk over them writes, if this
is so of the templates in them. -/
theorem reaches_walk {room : ℕ} (he : r.TemplateReaches room) :
    ∀ (nodes : List Node) (w : Written) (rest : List Task), r.room w.nesting = room →
      Reaches r.step ⟨nodes.map .write ++ rest, w⟩
        ⟨rest, w.andThen fun n => walk r.config (r.expand room) n nodes⟩
  | [], w, rest, _ => by
    simp only [walk, andThen_ofText_empty]
    exact .refl
  | node :: nodes, w, rest, hroom => by
    have hsteady : Steady fun n => walkNode r.config (r.expand room) n node :=
      walkNode_steady (expand_steady r room) node
    simp only [walk]
    rw [← andThen_assoc]
    refine .trans ?_ (reaches_walk he nodes _ rest ?_)
    · cases h : w.failure with
      | some e =>
        rw [andThen_of_failure h]
        exact .single (step_write_of_failure h node _)
      | none => exact (reaches_walkNode he node w _ hroom h).head (step_write h node _)
    · rw [hsteady.nesting_andThen]
      exact hroom

/-- The step of `reaches_walk`, one case for each kind of node. -/
theorem reaches_walkNode {room : ℕ} (he : r.TemplateReaches room) :
    ∀ (node : Node) (w : Written) (rest : List Task), r.room w.nesting = room →
      w.failure = none →
        Reaches r.step ⟨(r.enterNode w.nesting node).2 ++ .leaveNode :: rest,
            w.andThen fun n => (r.enterNode n node).1⟩
          ⟨rest, w.andThen fun n => walkNode r.config (r.expand room) n node⟩
  | .doctype children, w, rest, hroom, h => by
    have hchildren := reaches_walk he children
      (w.andThen fun n => .ofText n.enterNode Html.doctype) (.leaveNode :: rest)
      (by rw [andThen_of_no_failure h]; exact hroom)
    rw [andThen_assoc] at hchildren
    simp only [enterNode, walkNode]
    exact hchildren.trans (reaches_leaveNode h _)
  | .text content, w, rest, _, h => by
    simp only [enterNode, walkNode]
    exact reaches_leaveNode h _
  | .element tag m children, w, rest, hroom, h => by
    simp only [enterNode, walkNode]
    by_cases htag : tag = ""
    · simp only [htag, if_true]
      exact reaches_leaveNode h _
    · simp only [htag, if_false]
      rcases hkind : Html.kind? tag with _ | _ | _
      · exact reaches_leaveNode h _
      · have hchildren := reaches_walk he children
          (w.andThen fun n =>
            .ofText n.enterNode ("<" ++ tag ++ attributes r.config tag m ++ ">"))
          (.close tag :: .leaveNode :: rest) (by rw [andThen_of_no_failure h]; exact hroom)
        rw [andThen_assoc] at hchildren
        have hclose := hchildren.tail (step_close tag _)
        rw [andThen_assoc] at hclose
        simp only [List.append_assoc, List.cons_append, List.nil_append]
        exact hclose.trans (reaches_leaveNode h _)
      · exact reaches_leaveNode h _
  | .style sheet, w, rest, _, h => by
    simp only [enterNode, walkNode]
    exact reaches_leaveNode h _
  | .template name, w, rest, hroom, h => by
    have hentered : (w.andThen fun n => .ofText n.enterNode "").nesting = w.nesting.enterNode := by
      rw [andThen_of_no_failure h]
      rfl
    have htemplate := he (w.andThen fun n => .ofText n.enterNode "") name (.leaveNode :: rest)
      (by rw [andThen_of_no_failure h]; rfl) (by rw [hentered]; exact hroom)
    rw [andThen_assoc, andThen_assoc, hentered] at htemplate
    simp only [ofText_empty_andThen] at htemplate
    simp only [enterNode, walkNode]
    exact htemplate.trans (reaches_leaveNode h _)

end

/-- A template comes to what follows from what is written in it at once, and from
what it leaves to be done. -/
lemma reaches_of_enterTemplate {name : String} {last : Moment} (f : Nesting → Written)
    (tasks : List Task) (hentered : r.enterTemplate w.nesting name = (f w.nesting, tasks))
    (hreaches : Reaches r.step ⟨tasks ++ rest, w.andThen f⟩ last) :
    Reaches r.step ⟨(r.enterTemplate w.nesting name).2 ++ rest,
      w.andThen fun n => (r.enterTemplate n name).1⟩ last := by
  rw [andThen_congr (g := f) (congrArg Prod.fst hentered), hentered]
  exact hreaches

/-- What a template leaves to be done comes to what it writes, with any room. -/
theorem templateReaches (r : Renderer) (room : ℕ) : r.TemplateReaches room := by
  induction room with
  | zero =>
    intro w name rest h hroom
    have hfull : r.options.maxTemplateDepth < w.nesting.enterTemplate.templates.current :=
      Nat.lt_succ_of_le (Nat.sub_eq_zero_iff_le.mp hroom)
    refine reaches_of_enterTemplate (fun n => r.expand 0 n name) [] ?_ .refl
    rw [enterTemplate, if_pos hfull, expand]
  | succ room ih =>
    intro w name rest h hroom
    have hroom' : r.room w.nesting.enterTemplate = room := by
      simp only [Renderer.room] at hroom ⊢
      show r.options.maxTemplateDepth - (w.nesting.templates.current + 1) = room
      omega
    have hfits : ¬ r.options.maxTemplateDepth < w.nesting.enterTemplate.templates.current := by
      simp only [Renderer.room] at hroom
      show ¬ r.options.maxTemplateDepth < w.nesting.templates.current + 1
      omega
    cases hsource : r.templates name with
    | none =>
      simp only [expand, hsource]
      refine reaches_of_enterTemplate (fun n => .ofText n.enterTemplate _) [.leaveTemplate name] ?_
        (reaches_leaveTemplate h name _)
      simp only [enterTemplate, if_neg hfits, hsource]
    | some source =>
      cases hnodes : Template.nodes name source with
      | error reason =>
        simp only [expand, hsource, hnodes]
        refine reaches_of_enterTemplate (fun n => .fail n.enterTemplate _) [.leaveTemplate name] ?_
          (reaches_leaveTemplate h name _)
        simp only [enterTemplate, if_neg hfits, hsource, hnodes]
      | ok nodes =>
        have hwalk := reaches_walk ih nodes (w.andThen fun n => .ofText n.enterTemplate "")
          (.leaveTemplate name :: rest) (by rw [andThen_of_no_failure h]; exact hroom')
        rw [andThen_assoc] at hwalk
        simp only [ofText_empty_andThen] at hwalk
        simp only [expand, hsource, hnodes]
        refine reaches_of_enterTemplate (fun n => .ofText n.enterTemplate "") _
          (enterTemplate_of_nodes hfits hsource hnodes) ?_
        rw [List.append_assoc]
        exact hwalk.trans (reaches_leaveTemplate h name _)

end Steps

/-- **A whole walk**: the steps from the first moment of a page lead to a last
one, at which everything is written that the walk writes. -/
theorem mem_eval_start (r : Renderer) (nodes : List Node) :
    ⟨[], (r.write r.nesting.enterNode nodes).leaveNode⟩ ∈ eval r.step (r.start nodes) := by
  have hwalk := reaches_walk (r.templateReaches _) nodes (.ofText r.nesting.enterNode "")
    [.leaveNode] rfl
  rw [Written.ofText_empty_andThen] at hwalk
  exact mem_eval.mpr ⟨hwalk.tail rfl, rfl⟩

/-! ### The counter of open templates -/

/-- Nodes that are to be written have no template open. -/
lemma filterMap_template?_write (nodes : List Node) :
    (nodes.map Task.write).filterMap Task.template? = [] := by
  rw [List.filterMap_map, List.filterMap_eq_nil_iff]
  exact fun node _ => rfl

/-- What entering a node or a template does to the counter of templates, by what
is written at once and what is left to be done. -/
structure Counts (r : Renderer) (n : Nesting) (entered : Written × List Task) : Prop where
  /-- It is raised by what stays open. -/
  current_eq : entered.1.nesting.templates.current =
    n.templates.current + (entered.2.filterMap Task.template?).length
  /-- It stays within the limit. -/
  current_le : n.templates.current ≤ r.options.maxTemplateDepth →
    entered.1.nesting.templates.current ≤ r.options.maxTemplateDepth

/-- A template that stays open raises the counter, and there was room for it. -/
lemma counts_enterTemplate (r : Renderer) (n : Nesting) (name : String) :
    r.Counts n (r.enterTemplate n name) := by
  rw [enterTemplate]
  split
  · exact ⟨rfl, id⟩
  · next hfits =>
    have hle := Nat.le_of_not_lt hfits
    split
    · exact ⟨rfl, fun _ => hle⟩
    · split
      · exact ⟨rfl, fun _ => hle⟩
      · refine ⟨?_, fun _ => hle⟩
        rw [List.filterMap_append, filterMap_template?_write]
        rfl

/-- A node raises the counter only if it names a template. -/
lemma counts_enterNode (r : Renderer) (n : Nesting) (node : Node) :
    r.Counts n (r.enterNode n node) := by
  cases node with
  | doctype children =>
    refine ⟨?_, id⟩
    rw [enterNode, filterMap_template?_write]
    rfl
  | text content => exact ⟨rfl, id⟩
  | element tag attributes children =>
    rw [enterNode]
    split
    · exact ⟨rfl, id⟩
    · split
      · exact ⟨rfl, id⟩
      · exact ⟨rfl, id⟩
      · refine ⟨?_, id⟩
        rw [List.filterMap_append, filterMap_template?_write]
        rfl
  | style sheet => exact ⟨rfl, id⟩
  | template name =>
    obtain ⟨hcurrent, hle⟩ := r.counts_enterTemplate n.enterNode name
    exact ⟨hcurrent, hle⟩

end Renderer

/-- The counter counts the templates that are open, and they are not more than
some limit. -/
structure Moment.Counted (m : Moment) (limit : ℕ) : Prop where
  current_eq : m.written.nesting.templates.current = m.openTemplates.length
  length_le : m.openTemplates.length ≤ limit

namespace Renderer

variable {r : Renderer} {m m' : Moment}

/-- **One step** keeps the count of the open templates, and the limit. -/
theorem counted_of_step (h : r.step m = some m') (hm : m.Counted r.options.maxTemplateDepth) :
    m'.Counted r.options.maxTemplateDepth := by
  obtain ⟨todo, w⟩ := m
  obtain ⟨hcurrent, hle⟩ := hm
  simp only [Moment.openTemplates] at hcurrent hle
  cases todo with
  | nil => simp [step] at h
  | cons task rest =>
    cases task with
    | write node =>
      simp only [List.filterMap_cons, Task.template?] at hcurrent hle
      cases hfailure : w.failure with
      | some e =>
        rw [step_write_of_failure hfailure, Option.some.injEq] at h
        rw [← h]
        exact ⟨hcurrent, hle⟩
      | none =>
        obtain ⟨henter, hlimit⟩ := r.counts_enterNode w.nesting node
        rw [step_write hfailure, Written.andThen_of_no_failure hfailure, Option.some.injEq] at h
        have hcurrent' : (r.enterNode w.nesting node).1.nesting.templates.current =
            m'.openTemplates.length := by
          rw [← h, henter, hcurrent, Moment.openTemplates, List.filterMap_append,
            List.length_append, Nat.add_comm]
          rfl
        refine ⟨?_, ?_⟩
        · rw [← hcurrent', ← h]
        · rw [← hcurrent']
          exact hlimit (hcurrent ▸ hle)
    | close tag =>
      rw [step_close, Option.some.injEq] at h
      have hsteady := Written.Steady.ofText ("</" ++ tag ++ ">")
      rw [← h]
      refine ⟨?_, hle⟩
      rw [hsteady.nesting_andThen]
      exact hcurrent
    | leaveNode =>
      rw [step_leaveNode, Option.some.injEq] at h
      rw [← h]
      exact ⟨hcurrent, hle⟩
    | leaveTemplate name =>
      simp only [List.filterMap_cons, Task.template?, List.length_cons] at hcurrent hle
      rw [step_leaveTemplate, Option.some.injEq] at h
      rw [← h]
      refine ⟨?_, Nat.le_of_succ_le hle⟩
      show w.nesting.templates.current - 1 = _
      rw [hcurrent]
      rfl

/-- At every moment of a page of a renderer that was idle, the counter counts the
open templates, and they are not more than the limit. -/
theorem counted_of_reaches (hidle : r.nesting = .idle) {nodes : List Node}
    (h : Reaches r.step (r.start nodes) m) : m.Counted r.options.maxTemplateDepth := by
  induction h with
  | refl =>
    have hopen : (r.start nodes).openTemplates = [] := by
      rw [Moment.openTemplates, start, List.filterMap_append, filterMap_template?_write]
      rfl
    refine ⟨?_, ?_⟩
    · rw [hopen, start, hidle]
      rfl
    · rw [hopen]
      exact Nat.zero_le _
  | tail _ hstep ih => exact counted_of_step hstep ih

/-! ### Refused templates -/

/-- **One step** keeps a failure. -/
lemma failure_of_step {e : RenderError} (h : r.step m = some m')
    (he : m.written.failure = some e) : m'.written.failure = some e := by
  obtain ⟨todo, w⟩ := m
  cases todo with
  | nil => simp [step] at h
  | cons task rest =>
    cases task with
    | write node =>
      rw [step_write_of_failure he, Option.some.injEq] at h
      rw [← h]
      exact he
    | close tag =>
      rw [step_close, Written.andThen_of_failure he, Option.some.injEq] at h
      rw [← h]
      exact he
    | leaveNode =>
      rw [step_leaveNode, Option.some.injEq] at h
      rw [← h]
      exact he
    | leaveTemplate name =>
      rw [step_leaveTemplate, Option.some.injEq] at h
      rw [← h]
      exact he

/-- The failure of any moment is that of the page. -/
lemma page_failure_of_reaches {nodes : List Node} {e : RenderError}
    (h : Reaches r.step (r.start nodes) m) (he : m.written.failure = some e) :
    (r.page nodes).failure = some e := by
  have hlast := r.mem_eval_start nodes
  rw [reaches_eval h] at hlast
  have hkeeps : ∀ last, Reaches r.step m last → last.written.failure = some e := by
    intro last hreaches
    induction hreaches with
    | refl => exact he
    | tail _ hstep ih => exact failure_of_step hstep ih
  exact hkeeps _ (mem_eval.mp hlast).1

/-- The next step at a template that is one too many. -/
lemma step_refused (r : Renderer) (name : String) (rest : List Task) {w : Written}
    (hw : w.failure = none) (hfull : r.options.maxTemplateDepth ≤ w.nesting.templates.current) :
    ∃ m', r.step ⟨.write (.template name) :: rest, w⟩ = some m' ∧
      m'.written.failure = some (.tooDeep name r.options.maxTemplateDepth) := by
  have hrefused : r.options.maxTemplateDepth < w.nesting.enterNode.enterTemplate.templates.current :=
    Nat.lt_succ_of_le hfull
  refine ⟨_, step_write hw _ _, ?_⟩
  rw [Written.andThen_of_no_failure hw, enterNode, enterTemplate, if_pos hrefused]
  rfl

/-- **Termination**: the page of some nodes, under any configuration, templates
and limit, is reached in finitely many steps; at every moment on the way the
counter counts the open templates, and they are at most as many as the limit
says; and a template that is met when just so many are open ends the page with
its name and the limit, whether it is there or not. -/
theorem render_ends (config : Store) (templates : Templates) (options : RenderOptions)
    (nodes : List Node) :
    let r := (new config templates).withOptions options
    (∃ last ∈ eval r.step (r.start nodes), r.render nodes =
      (⟨Cleanup.finish options.stripUnused options.minimize last.written.text,
        last.written.failure⟩, { r with nesting := last.written.nesting })) ∧
    (∀ m, Reaches r.step (r.start nodes) m →
      m.written.nesting.templates.current = m.openTemplates.length ∧
        m.openTemplates.length ≤ options.maxTemplateDepth) ∧
    ∀ m name rest, Reaches r.step (r.start nodes) m → m.written.failure = none →
      m.todo = .write (.template name) :: rest →
      m.openTemplates.length = options.maxTemplateDepth →
        (r.page nodes).failure = some (.tooDeep name options.maxTemplateDepth) := by
  intro r
  refine ⟨⟨_, r.mem_eval_start nodes, rfl⟩, fun m h => ?_, ?_⟩
  · obtain ⟨hcurrent, hle⟩ := counted_of_reaches rfl h
    exact ⟨hcurrent, hle⟩
  intro m name rest h hfailure htodo hfull
  obtain ⟨todo, w⟩ := m
  obtain rfl : todo = .write (.template name) :: rest := htodo
  have hcurrent := (counted_of_reaches rfl h).current_eq
  rw [hfull] at hcurrent
  obtain ⟨m', hstep, he⟩ := r.step_refused name rest hfailure hcurrent.ge
  exact page_failure_of_reaches (h.tail hstep) he

/-- The moment at which a template without end is met again inside itself. -/
def loopMoment : Moment :=
  ⟨[.write (.template "loop"), .close "ul", .leaveNode, .leaveTemplate "loop", .leaveNode,
    .leaveNode], ⟨"<ul>", none, ⟨⟨3⟩, ⟨1⟩⟩⟩⟩

lemma reaches_loopMoment {source : String} (hidle : r.nesting = .idle)
    (hlimit : r.options.maxTemplateDepth = 1) (hsource : r.templates "loop" = some source)
    (hnodes : Template.nodes "loop" source = .ok [.element "ul" [] [.template "loop"]]) :
    Reaches r.step (r.start [.template "loop"]) loopMoment := by
  have hstart : r.start [.template "loop"] =
      ⟨[.write (.template "loop"), .leaveNode], .ofText ⟨⟨1⟩, ⟨0⟩⟩ ""⟩ := by
    rw [start, hidle]
    rfl
  have hfits : ¬ r.options.maxTemplateDepth < (⟨⟨2⟩, ⟨1⟩⟩ : Nesting).templates.current := by
    rw [hlimit]
    decide
  have hentered : r.enterNode ⟨⟨1⟩, ⟨0⟩⟩ (.template "loop") =
      (.ofText ⟨⟨2⟩, ⟨1⟩⟩ "", [.write (.element "ul" [] [.template "loop"]),
        .leaveTemplate "loop"]) :=
    enterTemplate_of_nodes (n := ⟨⟨2⟩, ⟨0⟩⟩) hfits hsource hnodes
  have hfirst : r.step ⟨[.write (.template "loop"), .leaveNode], .ofText ⟨⟨1⟩, ⟨0⟩⟩ ""⟩ =
      some ⟨[.write (.element "ul" [] [.template "loop"]), .leaveTemplate "loop", .leaveNode,
        .leaveNode], .ofText ⟨⟨2⟩, ⟨1⟩⟩ ""⟩ := by
    rw [step_write rfl, Written.ofText_empty_andThen]
    show some (⟨(r.enterNode ⟨⟨1⟩, ⟨0⟩⟩ (.template "loop")).2 ++ _, _⟩ : Moment) = _
    rw [hentered]
    rfl
  have hsecond : r.step ⟨[.write (.element "ul" [] [.template "loop"]), .leaveTemplate "loop",
      .leaveNode, .leaveNode], .ofText ⟨⟨2⟩, ⟨1⟩⟩ ""⟩ = some loopMoment := by
    rw [step_write rfl, Written.ofText_empty_andThen]
    rfl
  rw [hstart]
  exact .head hfirst (.single hsecond)

/-- A template without end, met when one template is open and only one may be. -/
theorem render_ends_loop :
    let r := (new loopRenderer.config loopRenderer.templates).withOptions ⟨false, true, 1⟩
    (Reaches r.step (r.start [.template "loop"]) loopMoment ∧
      loopMoment.written.failure = none ∧ loopMoment.openTemplates.length = 1) ∧
    (r.page [.template "loop"]).failure = some (.tooDeep "loop" 1) := by
  intro r
  have hreaches : Reaches r.step (r.start [.template "loop"]) loopMoment :=
    reaches_loopMoment rfl rfl loopRenderer_nodes.1 loopRenderer_nodes.2
  exact ⟨⟨hreaches, rfl, rfl⟩, (render_ends loopRenderer.config loopRenderer.templates
    ⟨false, true, 1⟩ [.template "loop"]).2.2 loopMoment "loop" _ hreaches rfl rfl rfl⟩

end Renderer

end PageTree
