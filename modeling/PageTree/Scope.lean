/-
What a token in a page stands for.

A path that starts with `env.` is looked up in the configuration. Any other
one is looked up in the data of the node where the token stands: for an element
its attributes under its tag, for a text the text itself. The value's text is
trimmed; a token that stands for nothing is left out of a text.

* `Scope.lookup?`: a path in the data of a node;
* `Scope.resolve?`: the text of a token;
* `Scope.interpolate`: a text with all its tokens replaced.
-/
import PageTree.Config.Store
import PageTree.Text.Blank
import PageTree.Node

namespace PageTree

/-- The data of a node. -/
inductive Scope where
  /-- None. -/
  | empty
  /-- Any value. -/
  | value (v : Value)
  /-- A text. -/
  | text (content : String)
  /-- An element. -/
  | element (tag : String) (attributes : Mapping)

namespace Scope

/-- The start of the paths that lead into the configuration. -/
def envPrefix : String := "env."

/-- The text at a path in the data of a node. -/
def lookup? (scope : Scope) (path : List String) : Option String :=
  match scope with
  | .empty => none
  | .value v => (v.lookup? path).map Value.text
  | .text content => if path = [Node.textKey] then some content else none
  | .element tag attributes =>
    match path with
    | [] => none
    | first :: rest =>
      if first ≠ tag then none
      else if rest = [] then some (Json.print (.obj attributes))
      else (Mapping.lookup? attributes rest).map Value.text

/-- Whether a path leads into the configuration. -/
def isEnvPath (path : String) : Bool := envPrefix.toList.isPrefixOf path.toList

/-- The text that a path stands for. -/
def resolve? (config : Store) (scope : Scope) (path : String) : Option String :=
  (if isEnvPath path then (config.get? path).map Value.text
    else scope.lookup? (KeyPath.split path)).map Text.trim

/-- A text with its tokens replaced by what they stand for. -/
def interpolate (config : Store) (scope : Scope) (text : String) : String :=
  Placeholder.substitute (fun t => (resolve? config scope t.key).getD "") text

end Scope

end PageTree
