/-
File paths, as texts with slashes.

A path is a list of components: the root, the current folder at its start, the
parent folder, and names. Empty parts, and dots that are not at the start, are
no components. A name has an extension when a dot stands in it that is not its
first character: what follows the last dot.

* `FilePath.components`;
* `FilePath.fileName?`, `FilePath.extension?`;
* `FilePath.join`, `FilePath.withExtension`.
-/
namespace PageTree

namespace FilePath

/-! ### Components -/

/-- A component of a path. -/
inductive Component where
  | root
  | current
  | parent
  | name (text : List Char)
deriving DecidableEq

/-- The parts of a text between the slashes in it. -/
def splitSlashes : List Char → List (List Char)
  | [] => [[]]
  | c :: rest =>
    if c = '/' then [] :: splitSlashes rest
    else
      match splitSlashes rest with
      | [] => [[c]]
      | part :: parts => (c :: part) :: parts

/-- Parts with slashes between them. -/
def joinParts : List (List Char) → List Char
  | [] => []
  | [part] => part
  | part :: next :: rest => part ++ '/' :: joinParts (next :: rest)

/-- Parts that name no component, unless one stands at the start. -/
def isSkipped (part : List Char) : Bool := part = [] || part = ['.']

/-- The component of a part that is not skipped. -/
def componentOf (part : List Char) : Component :=
  if part = ['.', '.'] then .parent else .name part

/-- The components of some parts that are not at the start of a path. -/
def laterComponents (parts : List (List Char)) : List Component :=
  (parts.filter (!isSkipped ·)).map componentOf

/-- The components of a path. -/
def componentsOf (path : List Char) : List Component :=
  match path, splitSlashes path with
  | [], _ => []
  | '/' :: _, parts => .root :: laterComponents parts
  | _, ['.'] :: parts => .current :: laterComponents parts
  | _, parts => laterComponents parts

/-- The components of a path. -/
def components (path : String) : List Component := componentsOf path.toList

/-! ### File names -/

/-- The parts of a path up to its last component. -/
def partsToName (path : List Char) : List (List Char) :=
  ((splitSlashes path).reverse.dropWhile isSkipped).reverse

/-- The last component of a path, if it is a name. -/
def nameOf? (path : List Char) : Option (List Char) :=
  (partsToName path).getLast?.filter (· ≠ ['.', '.'])

/-- The stem and the extension of a name. -/
def splitExtension (name : List Char) : List Char × Option (List Char) :=
  let after := (name.reverse.takeWhile (· ≠ '.')).reverse
  match name.reverse.dropWhile (· ≠ '.') with
  | _ :: before => if before = [] then (name, none) else (before.reverse, some after)
  | [] => (name, none)

/-- The last component of a path, if it is a name. -/
def fileName? (path : String) : Option String := (nameOf? path.toList).map String.ofList

/-- The extension of a path. -/
def extensionOf? (path : List Char) : Option (List Char) :=
  (nameOf? path).bind fun name => (splitExtension name).2

/-- The extension of a path. -/
def extension? (path : String) : Option String := (extensionOf? path.toList).map String.ofList

/-! ### Making paths -/

/-- A relative path below another path. -/
def joinChars (base path : List Char) : List Char :=
  if path.head? = some '/' then path
  else if base.getLast?.all (· = '/') then base ++ path
  else base ++ '/' :: path

/-- A path below another path; an absolute one stays itself. -/
def join (base path : String) : String := String.ofList (joinChars base.toList path.toList)

/-- A path whose name has another extension; what follows the name is cut off.
A path without a name stays itself. -/
def withExtensionChars (path ext : List Char) : List Char :=
  match nameOf? path with
  | none => path
  | some name =>
    joinParts ((partsToName path).dropLast ++ [(splitExtension name).1 ++ '.' :: ext])

/-- A path whose name has another extension. -/
def withExtension (path ext : String) : String :=
  String.ofList (withExtensionChars path.toList ext.toList)

end FilePath

end PageTree
