/-
Templates: other trees, by name.

A template source gives the text of a template. Templates in a folder are found
under their name below it, with the extension `json` when the name has none; a
name that is absolute or leads to a parent folder names nothing.

* `Templates`, `Templates.ofList`, `Templates.ofFolder`;
* `Template.path?`: the file of a template below a folder;
* `Template.nodes`: the nodes of a template's text.
-/
import PageTree.Config.Source
import PageTree.Node

namespace PageTree

/-- A template source: the text of the template with a name. -/
abbrev Templates := String → Option String

namespace Template

/-- The extension of names that have none. -/
def defaultExtension : String := "json"

/-- Whether a component of a name stays in the folder. -/
def staysInside : FilePath.Component → Bool
  | .name _ | .current => true
  | .root | .parent => false

/-- The file of a template below a folder. -/
def path? (name root : String) : Option String :=
  if name = "" ∨ !(FilePath.components name).all staysInside then none
  else
    let path := FilePath.join root name
    if (FilePath.extension? name).isSome then some path
    else some (FilePath.withExtension path defaultExtension)

/-- What is wrong with the text of a template. -/
inductive Failure where
  /-- It is no mapping in its format. -/
  | config (e : ConfigError)
  /-- It is no tree. -/
  | tree (e : TreeError)

/-- The message of a failure. -/
def Failure.message : Failure → String
  | .config e => e.message
  | .tree e => e.message

/-- The nodes of a template with a name and a text. The name tells the format;
one that tells none means JSON. -/
def nodes (name source : String) : Except Failure (List Node) :=
  match Source.parse source ((Format.ofPath? name).getD .json) name with
  | .error e => .error (.config e)
  | .ok m =>
    match Node.ofValue (.obj m) with
    | .error e => .error (.tree e)
    | .ok nodes => .ok nodes

end Template

namespace Templates

/-- A source without templates. -/
def none : Templates := fun _ => Option.none

/-- A source of the templates in a list; of two with one name the later one
counts. -/
def ofList (templates : List (String × String)) : Templates :=
  fun name => templates.reverse.lookup name

/-- A source of the templates in a folder. -/
def ofFolder (files : Files) (root : String) : Templates :=
  fun name => (Template.path? name root).bind fun path => (files path).toOption

end Templates

end PageTree
