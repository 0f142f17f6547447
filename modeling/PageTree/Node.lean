/-
Page trees, and their form as values.

As a value a node is an entry of a mapping: a tag with a payload. The tags
`textNode`, `doctype`, `include` and `style` are reserved; every other one makes
an element. The payload entry `children` holds what is inside, as a sequence, a
single mapping, or a text; the other entries are attributes.

Reading is lenient, except that a tree must be a mapping and an `include` must
name a template; `TreeError` tells which payload was wrong.

* `Node`, `StyleRule`, `StyleSheet`;
* `Node.ofValue`: the nodes of a value, one for each key;
* `Node.alterFirst?`: a change of the first element with a tag, in depth-first
  order.
-/
import PageTree.Json.Printer
import PageTree.Text.Quoted

namespace PageTree

/-! ### Trees -/

/-- An entry of a style sheet. -/
inductive StyleRule where
  /-- A selector with declarations, and rules inside it. -/
  | block (selector : String) (declarations : List (String × Value)) (nested : List StyleRule)
  /-- Literal text. -/
  | raw (css : String)

/-- A style sheet with the attributes of its element. -/
structure StyleSheet where
  attributes : Mapping
  rules : List StyleRule

/-- A node of a page tree. -/
inductive Node where
  /-- The document type declaration, and what follows it. -/
  | doctype (children : List Node)
  /-- Text. -/
  | text (content : String)
  /-- An element of any tag, known or not. -/
  | element (tag : String) (attributes : List (String × Value)) (children : List Node)
  /-- A style sheet. -/
  | style (sheet : StyleSheet)
  /-- Another tree, by the name of its template. -/
  | template (name : String)

namespace Node

/-! ### Reserved names -/

/-- The tag of text. -/
def textKey : String := "textNode"

/-- The tag of the document type declaration. -/
def doctypeKey : String := "doctype"

/-- The tag of another tree. -/
def templateKey : String := "include"

/-- The tag of a style sheet. -/
def styleKey : String := "style"

/-- The payload entry of what is inside a node. -/
def childrenKey : String := "children"

/-- The payload entry of the name of a template. -/
def sourceKey : String := "src"

end Node

/-! ### Errors -/

/-- What is wrong with a tree. -/
inductive TreeError where
  /-- It is not a mapping. -/
  | notMapping (found : Value)
  /-- An `include` names no template. -/
  | namesNoTemplate (found : Value)

/-- A value, in words. -/
def Value.describe : Value → String
  | .null => "null"
  | .bool true => "boolean true"
  | .bool false => "boolean false"
  | .num n => "number " ++ n.text
  | .str s => "string " ++ Text.quote s
  | .arr items => "sequence of " ++ toString items.length ++ " items"
  | .obj _ => "mapping"

/-- The message of an error. -/
def TreeError.message : TreeError → String
  | .notMapping found =>
    "Expected a mapping of tag names to nodes, found " ++ found.describe
  | .namesNoTemplate found =>
    "Include node must name a template, found " ++ found.describe

namespace StyleRule

mutual
/-- The rules of a value: of a sequence item by item, of a mapping entry by
entry, and none of anything else. -/
def ofValue : Value → List StyleRule
  | .arr items => ofItems items
  | .obj entries => ofEntries entries
  | _ => []

/-- The rules of the items of a sequence; a text is a rule of its own. -/
def ofItems : List Value → List StyleRule
  | [] => []
  | .obj entries :: rest => ofEntries entries ++ ofItems rest
  | .str css :: rest => .raw css :: ofItems rest
  | _ :: rest => ofItems rest

/-- The rules of the entries of a mapping: text, or a selector with its
body. -/
def ofEntries : List (String × Value) → List StyleRule
  | [] => []
  | (selector, body) :: rest =>
    (if selector = Node.textKey then .raw body.text else ofBody selector body) :: ofEntries rest

/-- The rule of a selector and its body. -/
def ofBody (selector : String) : Value → StyleRule
  | .obj entries =>
    .block selector (entries.filter (·.1 ≠ Node.childrenKey)) (ofChildren entries)
  | _ => .block selector [] []

/-- The rules inside a body. -/
def ofChildren : List (String × Value) → List StyleRule
  | [] => []
  | (key, v) :: rest => if key = Node.childrenKey then ofValue v else ofChildren rest
end

end StyleRule

/-- The style sheet of a payload: a mapping, or literal text. -/
def StyleSheet.ofPayload : Value → StyleSheet
  | .obj entries =>
    ⟨entries.filter (·.1 ≠ Node.childrenKey), StyleRule.ofChildren entries⟩
  | .str css => ⟨[], [.raw css]⟩
  | _ => ⟨[], []⟩

namespace Node

/-! ### Reading -/

/-- The template that a payload names: a text, or the entry `src` of a mapping.
The name must not be empty. -/
def templateName? (payload : Value) : Option String :=
  (match payload with
    | .str name => some name
    | .obj entries => (Mapping.find? entries sourceKey).bind Value.asText?
    | _ => none).filter (· ≠ "")

/-- The node of another tree. -/
def ofTemplate (payload : Value) : Except TreeError Node :=
  match templateName? payload with
  | some name => .ok (.template name)
  | none => .error (.namesNoTemplate payload)

mutual
/-- The nodes of the entries of a mapping, one each. -/
def ofEntries : List (String × Value) → Except TreeError (List Node)
  | [] => .ok []
  | (tag, payload) :: rest => do
    let node ← ofEntry tag payload
    let nodes ← ofEntries rest
    return node :: nodes

/-- The node of a tag and its payload. -/
def ofEntry (tag : String) (payload : Value) : Except TreeError Node :=
  if tag = textKey then .ok (.text payload.text)
  else if tag = doctypeKey then
    match payload with
    | .obj entries => (ofChildren entries).map .doctype
    | _ => .ok (.doctype [])
  else if tag = templateKey then ofTemplate payload
  else if tag = styleKey then .ok (.style (StyleSheet.ofPayload payload))
  else
    match payload with
    | .obj entries =>
      (ofChildren entries).map (.element tag (entries.filter (·.1 ≠ childrenKey)))
    | .arr items => (ofItems items).map (.element tag [])
    | .null => .ok (.element tag [] [])
    | scalar => .ok (.element tag [] [.text scalar.text])

/-- The nodes inside a payload that is a mapping. -/
def ofChildren : List (String × Value) → Except TreeError (List Node)
  | [] => .ok []
  | (key, v) :: rest => if key = childrenKey then ofInside v else ofChildren rest

/-- The nodes of the value of `children`. -/
def ofInside : Value → Except TreeError (List Node)
  | .arr items => ofItems items
  | .obj entries => ofEntries entries
  | .str content => .ok [.text content]
  | _ => .ok []

/-- The nodes of the items of a sequence; anything but mappings and texts is
passed over. -/
def ofItems : List Value → Except TreeError (List Node)
  | [] => .ok []
  | .obj entries :: rest => do
    let nodes ← ofEntries entries
    let more ← ofItems rest
    return nodes ++ more
  | .str content :: rest => do
    let more ← ofItems rest
    return .text content :: more
  | _ :: rest => ofItems rest
end

/-- The nodes of a value. -/
def ofValue : Value → Except TreeError (List Node)
  | .obj entries => ofEntries entries
  | v => .error (.notMapping v)

/-! ### Finding an element -/

mutual
/-- Changes the first element with a tag below some nodes, an element coming
before what is inside it. -/
def alterFirst? (tag : String) (f : Mapping → List Node → Node) :
    List Node → Option (List Node)
  | [] => none
  | node :: rest =>
    match alterFirstIn? tag f node with
    | some node => some (node :: rest)
    | none => (alterFirst? tag f rest).map (node :: ·)

/-- Changes the first element with a tag in a node. -/
def alterFirstIn? (tag : String) (f : Mapping → List Node → Node) : Node → Option Node
  | .element t attributes children =>
    if t = tag then some (f attributes children)
    else (alterFirst? tag f children).map (.element t attributes)
  | .doctype children => (alterFirst? tag f children).map .doctype
  | _ => none
end

mutual
/-- The attributes and the children of the first element with a tag below some
nodes. -/
def findFirst? (tag : String) : List Node → Option (Mapping × List Node)
  | [] => none
  | node :: rest => (findFirstIn? tag node).or (findFirst? tag rest)

/-- The attributes and the children of the first element with a tag in a
node. -/
def findFirstIn? (tag : String) : Node → Option (Mapping × List Node)
  | .element t attributes children =>
    if t = tag then some (attributes, children) else findFirst? tag children
  | .doctype children => findFirst? tag children
  | _ => none
end

/-! ### Templates -/

mutual
/-- The names of the templates below some nodes, in order. -/
def templateNames : List Node → List String
  | [] => []
  | node :: rest => templateNamesIn node ++ templateNames rest

/-- The names of the templates in a node. -/
def templateNamesIn : Node → List String
  | .doctype children => templateNames children
  | .element _ _ children => templateNames children
  | .template name => [name]
  | .text _ | .style _ => []
end

end Node

end PageTree
