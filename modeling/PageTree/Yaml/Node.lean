/-
The tree of a YAML document.

A document is one node: an alias, a scalar, or a collection of nodes in block
or flow style. Where the text leaves a node out, an empty plain scalar stands.

* `Yaml.Node`: trees, whose anchors and aliases are names of any type;
* `Yaml.Grammar`: nodes from tokens;
* `Yaml.document?`: the node of a text that holds exactly one document.
-/
import PageTree.Yaml.Token

namespace PageTree

namespace Yaml

/-- What stands before a node: its anchor and its tag. -/
structure Properties (α : Type) where
  anchor : Option α
  tag : Option (List Char)

/-- A node of a document. -/
inductive Node (α : Type) where
  | alias (name : α)
  | scalar (properties : Properties α) (text : List Char) (plain : Bool)
  | sequence (properties : Properties α) (items : List (Node α))
  | mapping (properties : Properties α) (entries : List (Node α × Node α))

/-- A node that was left out. -/
def Node.empty {α : Type} : Node α := .scalar ⟨none, none⟩ [] true

/-! ### Tags -/

/-- The expansions of tag handles. -/
abbrev Handles := List (List Char × List Char)

/-- The handles that need no directive. -/
def defaultHandles : Handles :=
  [(['!'], ['!']), (['!', '!'], "tag:yaml.org,2002:".toList)]

/-- A tag with its handle expanded, unless the handle is unknown. -/
def expandTag? (handles : Handles) (name : TagName) : Option (List Char) :=
  if name.handle = [] then some name.suffix
  else (handles.lookup name.handle).map (· ++ name.suffix)

/-! ### Grammar -/

/-- A result with the tokens that follow. -/
abbrev Read (β : Type) := Option (β × List Token)

/-- The anchor and the tag at the front of some tokens, in either order. -/
def properties? (handles : Handles) (tokens : List Token) :
    Read (Properties (List Char)) :=
  match tokens with
  | .anchor a :: .tag t :: rest | .tag t :: .anchor a :: rest =>
    (expandTag? handles t).map fun tag => (⟨some a, some tag⟩, rest)
  | .anchor a :: rest => some (⟨some a, none⟩, rest)
  | .tag t :: rest => (expandTag? handles t).map fun tag => (⟨none, some tag⟩, rest)
  | rest => some (⟨none, none⟩, rest)

/-- Whether the next token is one of some. -/
def nextIn (tokens : List Token) (some : List Token) : Bool :=
  tokens.head?.any (· ∈ some)

namespace Grammar

mutual
/-- A node; `block` allows block style, and `hanging` a sequence without an
indentation of its own. A lone exclamation mark before a scalar is no tag. -/
def node? (handles : Handles) (block hanging : Bool) :
    Nat → List Token → Read (Node (List Char))
  | 0, _ => none
  | _ + 1, .alias name :: rest => some (.alias name, rest)
  | bound + 1, tokens =>
    match properties? handles tokens with
    | none => none
    | some (properties, rest) =>
      match rest with
      | .blockEntry :: _ =>
        if hanging then
          (hangingItems? handles bound rest).map fun (items, rest) =>
            (.sequence properties items, rest)
        else if properties.anchor.isSome || properties.tag.isSome then
          some (.scalar properties [] true, rest)
        else none
      | .scalar text plain :: rest =>
        let tag := properties.tag.filter (· ≠ ['!'])
        some (.scalar { properties with tag := tag } text plain, rest)
      | .flowSequenceStart :: rest =>
        (flowItems? handles true bound rest).map fun (items, rest) =>
          (.sequence properties items, rest)
      | .flowMappingStart :: rest =>
        (flowEntries? handles true bound rest).map fun (entries, rest) =>
          (.mapping properties entries, rest)
      | .blockSequenceStart :: inner =>
        if block then
          (blockItems? handles bound inner).map fun (items, rest) =>
            (.sequence properties items, rest)
        else if properties.anchor.isSome || properties.tag.isSome then
          some (.scalar properties [] true, rest)
        else none
      | .blockMappingStart :: inner =>
        if block then
          (blockEntries? handles bound inner).map fun (entries, rest) =>
            (.mapping properties entries, rest)
        else if properties.anchor.isSome || properties.tag.isSome then
          some (.scalar properties [] true, rest)
        else none
      | rest =>
        if properties.anchor.isSome || properties.tag.isSome then
          some (.scalar properties [] true, rest)
        else none

/-- A node, or the empty one before one of some tokens. -/
def nodeBefore? (handles : Handles) (block hanging : Bool) (ends : List Token) :
    Nat → List Token → Read (Node (List Char))
  | 0, _ => none
  | bound + 1, tokens =>
    if nextIn tokens ends then some (.empty, tokens)
    else node? handles block hanging bound tokens

/-- The items of a block sequence, up to and past its end. -/
def blockItems? (handles : Handles) : Nat → List Token → Read (List (Node (List Char)))
  | 0, _ => none
  | bound + 1, .blockEntry :: rest =>
    match nodeBefore? handles true false [.blockEntry, .blockEnd] bound rest with
    | none => none
    | some (item, rest) =>
      (blockItems? handles bound rest).map fun (items, rest) => (item :: items, rest)
  | _ + 1, .blockEnd :: rest => some ([], rest)
  | _ + 1, _ => none

/-- The items of a sequence that hangs in a mapping without being indented. -/
def hangingItems? (handles : Handles) : Nat → List Token → Read (List (Node (List Char)))
  | 0, _ => none
  | bound + 1, .blockEntry :: rest =>
    match nodeBefore? handles true false [.blockEntry, .key, .value, .blockEnd] bound rest with
    | none => none
    | some (item, rest) =>
      (hangingItems? handles bound rest).map fun (items, rest) => (item :: items, rest)
  | _ + 1, rest => some ([], rest)

/-- The entries of a block mapping, up to and past its end. -/
def blockEntries? (handles : Handles) :
    Nat → List Token → Read (List (Node (List Char) × Node (List Char)))
  | 0, _ => none
  | bound + 1, .key :: rest =>
    match nodeBefore? handles true true [.key, .value, .blockEnd] bound rest with
    | none => none
    | some (key, rest) =>
      match blockValue? handles bound rest with
      | none => none
      | some (value, rest) =>
        (blockEntries? handles bound rest).map fun (entries, rest) =>
          ((key, value) :: entries, rest)
  | _ + 1, .blockEnd :: rest => some ([], rest)
  | _ + 1, _ => none

/-- The value of an entry of a block mapping. -/
def blockValue? (handles : Handles) : Nat → List Token → Read (Node (List Char))
  | 0, _ => none
  | bound + 1, .value :: rest =>
    nodeBefore? handles true true [.key, .value, .blockEnd] bound rest
  | _ + 1, rest => some (.empty, rest)

/-- The items of a sequence in flow style, up to and past its end. -/
def flowItems? (handles : Handles) (first : Bool) :
    Nat → List Token → Read (List (Node (List Char)))
  | 0, _ => none
  | _ + 1, .flowSequenceEnd :: rest => some ([], rest)
  | bound + 1, tokens =>
    match (if first then some tokens else comma? tokens) with
    | none => none
    | some (.flowSequenceEnd :: rest) => some ([], rest)
    | some tokens =>
      match flowItem? handles bound tokens with
      | none => none
      | some (item, rest) =>
        (flowItems? handles false bound rest).map fun (items, rest) => (item :: items, rest)

/-- An item of a sequence in flow style; a key makes it a mapping of one
entry. -/
def flowItem? (handles : Handles) : Nat → List Token → Read (Node (List Char))
  | 0, _ => none
  | bound + 1, .key :: rest =>
    let keyResult : Read (Node (List Char)) :=
      if nextIn rest [.value, .flowEntry, .flowSequenceEnd] then some (.empty, rest.drop 1)
      else node? handles false false bound rest
    match keyResult with
    | none => none
    | some (key, rest) =>
      (flowValue? handles [.flowEntry, .flowSequenceEnd] bound rest).map fun (value, rest) =>
        (.mapping ⟨none, none⟩ [(key, value)], rest)
  | bound + 1, tokens => node? handles false false bound tokens

/-- The value of an entry in flow style. -/
def flowValue? (handles : Handles) (ends : List Token) :
    Nat → List Token → Read (Node (List Char))
  | 0, _ => none
  | bound + 1, .value :: rest => nodeBefore? handles false false ends bound rest
  | _ + 1, rest => some (.empty, rest)

/-- The entries of a mapping in flow style, up to and past its end. -/
def flowEntries? (handles : Handles) (first : Bool) :
    Nat → List Token → Read (List (Node (List Char) × Node (List Char)))
  | 0, _ => none
  | _ + 1, .flowMappingEnd :: rest => some ([], rest)
  | bound + 1, tokens =>
    match (if first then some tokens else comma? tokens) with
    | none => none
    | some (.flowMappingEnd :: rest) => some ([], rest)
    | some tokens =>
      match flowEntry? handles bound tokens with
      | none => none
      | some (entry, rest) =>
        (flowEntries? handles false bound rest).map fun (entries, rest) =>
          (entry :: entries, rest)

/-- An entry of a mapping in flow style; a node alone is a key without value. -/
def flowEntry? (handles : Handles) :
    Nat → List Token → Read (Node (List Char) × Node (List Char))
  | 0, _ => none
  | bound + 1, .key :: rest =>
    match nodeBefore? handles false false [.value, .flowEntry, .flowMappingEnd] bound rest with
    | none => none
    | some (key, rest) =>
      (flowValue? handles [.flowEntry, .flowMappingEnd] bound rest).map fun (value, rest) =>
        ((key, value), rest)
  | bound + 1, tokens =>
    (node? handles false false bound tokens).map fun (key, rest) => ((key, .empty), rest)

/-- Past a comma. -/
def comma? : List Token → Option (List Token)
  | .flowEntry :: rest => some rest
  | _ => none
end

end Grammar

/-! ### Documents -/

/-- The directives at the front of some tokens: the handles they declare and
whether there are any. -/
def directives? : Bool → Handles → List Token → Read Handles
  | seen, handles, .version major minor :: rest =>
    if seen ∨ major ≠ 1 ∨ (minor ≠ 1 ∧ minor ≠ 2) then none
    else directives? true handles rest
  | seen, handles, .tagDirective handle expansion :: rest =>
    if (handles.lookup handle).isSome then none
    else directives? seen (handles ++ [(handle, expansion)]) rest
  | _, handles, rest => some (handles, rest)

/-- The node of a stream of tokens that holds at most one document; nothing
inside when it holds none. -/
def ofTokens? (tokens : List Token) : Option (Option (Node (List Char))) :=
  match tokens with
  | [.streamEnd] => some none
  | tokens =>
    match directives? false [] tokens with
    | none => none
    | some (declared, rest) =>
      let handles := declared ++ defaultHandles
      let bound := 4 * tokens.length + 8
      let content : Read (Node (List Char)) :=
        match rest with
        | .documentStart :: rest =>
          match rest with
          | .version .. :: _ | .tagDirective .. :: _ | .documentStart :: _ | .documentEnd :: _
          | .streamEnd :: _ => some (.empty, rest)
          | rest => Grammar.node? handles true false bound rest
        | rest =>
          if rest.length = tokens.length then Grammar.node? handles true false bound rest
          else none
      match content with
      | none => none
      | some (node, rest) =>
        if rest.dropWhile (· = .documentEnd) = [.streamEnd] then some (some node) else none

/-- The node of a text that holds at most one document. -/
def document? (text : List Char) : Option (Option (Node (List Char))) :=
  (tokens? text).bind ofTokens?

end Yaml

end PageTree
