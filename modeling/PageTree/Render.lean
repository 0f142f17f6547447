/-
Rendering: the page that a tree writes.

Rendering walks a tree and writes its markup. Unknown tags and missing
templates leave a comment and are no failure; a template that cannot be read,
or one too many inside another, ends the walk, and the page is what was
written before. Whatever happens, the last passes are made over the page.

A renderer counts the nodes and the templates that are open. Both counters are
raised and lowered around each node and each template, also when the walk ends
early.

* `Depth`: a counter that is raised and lowered;
* `Written`: what a part of a walk writes, with `Written.andThen`;
* `Renderer.attributes`: the attributes of an element;
* `Renderer.walk`: nodes, inside which `expand` writes templates;
* `Renderer.expand`: a template, with room for more templates inside it;
* `Renderer.render`: a page, and the renderer after it.
-/
import PageTree.Template
import PageTree.Scope
import PageTree.Style
import PageTree.Html
import PageTree.Cleanup

namespace PageTree

/-! ### Options and failures -/

/-- The passes over a finished page, and how many templates may be open at
once. -/
structure RenderOptions where
  minimize : Bool := false
  stripUnused : Bool := true
  maxTemplateDepth : Nat := 50
deriving DecidableEq

/-- The path of the setting that asks for a minimized page. -/
def RenderOptions.minimizePath : String := "minimize"

/-- The options that a configuration asks for. -/
def RenderOptions.ofConfig (config : Store) : RenderOptions :=
  { minimize := (config.getBool? minimizePath).getD false }

/-- Why a walk ended early. -/
inductive RenderError where
  /-- A template is there but cannot be used. -/
  | template (name : String) (reason : Template.Failure)
  /-- Too many templates are open. -/
  | tooDeep (name : String) (limit : Nat)

/-- The message of a failure. -/
def RenderError.message : RenderError → String
  | .template name reason => "Failed to render include '" ++ name ++ "': " ++ reason.message
  | .tooDeep name limit =>
    "Recursive include detected (depth > " ++ toString limit ++ "): " ++ name

/-! ### Counters -/

/-- A counter of what is open. -/
structure Depth where
  current : Nat
deriving DecidableEq

namespace Depth

/-- Nothing is open. -/
def idle : Depth := ⟨0⟩

/-- Whether nothing is open. -/
def isIdle (d : Depth) : Bool := d.current = 0

/-- One more is open. -/
def enter (d : Depth) : Depth := ⟨d.current + 1⟩

/-- One less is open. -/
def leave (d : Depth) : Depth := ⟨d.current - 1⟩

@[simp] theorem leave_enter (d : Depth) : d.enter.leave = d := rfl

end Depth

/-- The nodes and the templates that are open. -/
structure Nesting where
  nodes : Depth
  templates : Depth
deriving DecidableEq

namespace Nesting

/-- Nothing is open. -/
def idle : Nesting := ⟨.idle, .idle⟩

/-- Inside one more node. -/
def enterNode (n : Nesting) : Nesting := { n with nodes := n.nodes.enter }

/-- Inside one node less. -/
def leaveNode (n : Nesting) : Nesting := { n with nodes := n.nodes.leave }

/-- Inside one more template. -/
def enterTemplate (n : Nesting) : Nesting := { n with templates := n.templates.enter }

/-- Inside one template less. -/
def leaveTemplate (n : Nesting) : Nesting := { n with templates := n.templates.leave }

end Nesting

/-! ### Parts of a walk -/

/-- What a part of a walk writes: its text, why it ended early if it did, and
the counters after it. -/
structure Written where
  text : String
  failure : Option RenderError
  nesting : Nesting

namespace Written

/-- A text. -/
def ofText (n : Nesting) (text : String) : Written := ⟨text, none, n⟩

/-- A failure, with nothing written. -/
def fail (n : Nesting) (e : RenderError) : Written := ⟨"", some e, n⟩

/-- One part after another; nothing comes after a failure. -/
def andThen (w : Written) (next : Nesting → Written) : Written :=
  match w.failure with
  | some _ => w
  | none =>
    let more := next w.nesting
    ⟨w.text ++ more.text, more.failure, more.nesting⟩

/-- A part after which a node is left. -/
def leaveNode (w : Written) : Written := { w with nesting := w.nesting.leaveNode }

/-- A part after which a template is left. -/
def leaveTemplate (w : Written) : Written := { w with nesting := w.nesting.leaveTemplate }

end Written

/-! ### The renderer -/

/-- A renderer: the configuration, the templates and the options of its pages,
and its counters. -/
structure Renderer where
  config : Store
  templates : Templates
  options : RenderOptions
  nesting : Nesting

namespace Renderer

/-- A renderer with the options that its configuration asks for. -/
def new (config : Store) (templates : Templates) : Renderer :=
  ⟨config, templates, RenderOptions.ofConfig config, .idle⟩

/-- A renderer with other options. -/
def withOptions (r : Renderer) (options : RenderOptions) : Renderer :=
  { r with options := options }

@[simp] theorem withOptions_config (r : Renderer) (options : RenderOptions) :
    (r.withOptions options).config = r.config := rfl

@[simp] theorem withOptions_templates (r : Renderer) (options : RenderOptions) :
    (r.withOptions options).templates = r.templates := rfl

/-! ### Attributes -/

/-- Whether a string is nothing but a token that stands for nothing. -/
def isUnresolved (config : Store) (scope : Scope) (s : String) : Bool :=
  match Placeholder.single? s with
  | some span => (scope.resolve? config span.token.key).isNone
  | none => false

/-- The scalars of a sequence as one text, with spaces between them. -/
def joinItems (items : List Value) : String :=
  " ".intercalate ((items.filter Value.isScalar).map Value.text)

/-- The text of an attribute's value before its tokens are replaced: nothing
when the attribute is left out, and no text when it is written without a
value. -/
def attributeText? (config : Store) (scope : Scope) : Value → Option (Option String)
  | .bool true => some none
  | .bool false | .null | .obj _ => none
  | .str s => if isUnresolved config scope s then none else some (some s)
  | .num n => some (some n.text)
  | .arr items => some (some (joinItems items))

/-- An attribute as it is written in an opening tag. -/
def writeAttribute (config : Store) (scope : Scope) (name : String) (v : Value) : String :=
  if Html.isAllowed name then
    match attributeText? config scope v with
    | none => ""
    | some none => " " ++ name
    | some (some text) =>
      " " ++ name ++ "=\"" ++ Html.escape (scope.interpolate config text) ++ "\""
  else ""

/-- The attributes of an element as they are written in its opening tag. -/
def attributes (config : Store) (tag : String) (m : Mapping) : String :=
  String.join (m.map fun a => writeAttribute config (.element tag m) a.1 a.2)

/-! ### Nodes -/

/-- A style sheet. -/
def styleSheet (config : Store) (sheet : StyleSheet) : String :=
  "<style" ++ attributes config Node.styleKey sheet.attributes ++ ">" ++
    Scope.interpolate config (.element Node.styleKey sheet.attributes)
      (StyleRule.writeAll sheet.rules) ++ "</style>"

/-- A text, in which tokens may name the text itself. -/
def text (config : Store) (content : String) : String :=
  Scope.interpolate config (.text content) content

mutual
/-- Nodes, one after the other; `expand` writes a template. -/
def walk (config : Store) (expand : Nesting → String → Written) (n : Nesting) :
    List Node → Written
  | [] => .ofText n ""
  | node :: rest =>
    (walkNode config expand n node).andThen fun n => walk config expand n rest

/-- A node; `expand` writes a template. -/
def walkNode (config : Store) (expand : Nesting → String → Written) (n : Nesting) :
    Node → Written
  | .doctype children =>
    ((Written.ofText n.enterNode Html.doctype).andThen fun n =>
      walk config expand n children).leaveNode
  | .text content => (Written.ofText n.enterNode (text config content)).leaveNode
  | .element tag m children =>
    (if tag = "" then Written.ofText n.enterNode ""
      else
        match Html.kind? tag with
        | none => .ofText n.enterNode (Html.comment ("unknown tag: " ++ tag))
        | some .void => .ofText n.enterNode ("<" ++ tag ++ attributes config tag m ++ "/>")
        | some .normal =>
          ((Written.ofText n.enterNode ("<" ++ tag ++ attributes config tag m ++ ">")).andThen
            fun n => walk config expand n children).andThen
            fun n => .ofText n ("</" ++ tag ++ ">")).leaveNode
  | .style sheet => (Written.ofText n.enterNode (styleSheet config sheet)).leaveNode
  | .template name => (expand n.enterNode name).leaveNode
end

/-- A template, inside which there is room for some more. -/
def expand (r : Renderer) (room : Nat) (n : Nesting) (name : String) : Written :=
  match room with
  | 0 => (Written.fail n.enterTemplate (.tooDeep name r.options.maxTemplateDepth)).leaveTemplate
  | room + 1 =>
    (match r.templates name with
      | none => Written.ofText n.enterTemplate (Html.comment ("missing include: " ++ name))
      | some source =>
        match Template.nodes name source with
        | .error reason => .fail n.enterTemplate (.template name reason)
        | .ok nodes => walk r.config (expand r room) n.enterTemplate nodes).leaveTemplate

/-- What the nodes of a page write. The templates that are open already take
up room. -/
def write (r : Renderer) (n : Nesting) (nodes : List Node) : Written :=
  walk r.config (r.expand (r.options.maxTemplateDepth - n.templates.current)) n nodes

/-! ### Pages -/

/-- A finished page, and why its walk ended early if it did. -/
structure Page where
  text : String
  failure : Option RenderError

/-- The page of some nodes, and the renderer after it. -/
def render (r : Renderer) (nodes : List Node) : Page × Renderer :=
  let w := (r.write r.nesting.enterNode nodes).leaveNode
  (⟨Cleanup.finish r.options.stripUnused r.options.minimize w.text, w.failure⟩,
    { r with nesting := w.nesting })

/-- The page of some nodes alone. -/
def page (r : Renderer) (nodes : List Node) : Page := (r.render nodes).1

end Renderer

end PageTree
