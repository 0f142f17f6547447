/-
Configuration from texts and files.

The format of a file is told by the extension of its name, in any case of
letters. Whatever the format, the top level must be a mapping; an empty
document is an empty mapping.

* `Format.ofPath?`;
* `Source.parse`, `Source.ofFile`: mappings from texts and from files;
* `Store.loadText?`, `Store.loadFile?`: the same, loaded into a store whose
  lock is looked at first;
* `ConfigError`: what can go wrong, with its message.
-/
import PageTree.Config.Store
import PageTree.Files
import PageTree.Json.Reader
import PageTree.Yaml.Reader
import PageTree.Toml.Reader

namespace PageTree

/-! ### Formats -/

/-- The formats of configuration. -/
inductive Format where
  | json
  | yaml
  | toml
deriving DecidableEq

namespace Format

/-- The name of a format. -/
def name : Format → String
  | .json => "json"
  | .yaml => "yaml"
  | .toml => "toml"

/-- The format of an extension, in any case of letters. -/
def ofExtension? (ext : List Char) : Option Format :=
  let lower := ext.map Char.toLower
  if lower = "json".toList then some .json
  else if lower = "yaml".toList ∨ lower = "yml".toList then some .yaml
  else if lower = "toml".toList then some .toml
  else none

/-- The format of a file, by its extension. -/
def ofPath? (path : String) : Option Format :=
  (FilePath.extensionOf? path.toList).bind ofExtension?

/-- The value that a text writes in a format. -/
def read? : Format → String → Option Value
  | .json, text => Json.read? text
  | .yaml, text => Yaml.read? text
  | .toml, text => Toml.read? text

end Format

/-! ### Errors -/

/-- The kinds of values that are no mapping. -/
inductive OtherKind where
  | boolean
  | number
  | string
  | sequence
deriving DecidableEq

/-- A kind of values, in words. -/
def OtherKind.text : OtherKind → String
  | .boolean => "a boolean"
  | .number => "a number"
  | .string => "a string"
  | .sequence => "a sequence"

/-- What is wrong with a text. -/
inductive Malformed where
  /-- It does not keep to its format. -/
  | syntaxOf (format : Format)
  /-- Its top level is not a mapping. -/
  | topLevel (found : OtherKind)
deriving DecidableEq

/-- What is wrong with a text, in words. -/
def Malformed.text : Malformed → String
  | .syntaxOf format => "not a " ++ format.name ++ " document"
  | .topLevel found => "top-level value must be a mapping, found " ++ found.text

/-- Errors of the configuration. -/
inductive ConfigError where
  /-- The store is locked. -/
  | locked (e : Locked)
  /-- A text could not be understood. -/
  | parse (source : String) (reason : Malformed)
  /-- The name of a file tells no format. -/
  | unsupported (path : String)
  /-- A file could not be read. -/
  | unreadable (path : String) (reason : ReadFailure)
deriving DecidableEq

/-- The message of an error. -/
def ConfigError.message : ConfigError → String
  | .locked e => e.message
  | .parse source reason =>
    "Failed to parse configuration from " ++ source ++ ": " ++ reason.text
  | .unsupported path => "Unsupported configuration format: " ++ path
  | .unreadable path reason =>
    "Failed to read configuration file " ++ path ++ ": " ++ reason.message

/-- Whether an error comes from a text or a file, not from the lock. -/
def ConfigError.isSourceError : ConfigError → Bool
  | .locked _ => false
  | _ => true

/-! ### Reading -/

namespace Source

/-- The mapping that a text writes. -/
def parse (text : String) (format : Format) (name : String) : Except ConfigError Mapping :=
  match format.read? text with
  | none => .error (.parse name (.syntaxOf format))
  | some (.obj m) => .ok m
  | some .null => .ok []
  | some (.bool _) => .error (.parse name (.topLevel .boolean))
  | some (.num _) => .error (.parse name (.topLevel .number))
  | some (.str _) => .error (.parse name (.topLevel .string))
  | some (.arr _) => .error (.parse name (.topLevel .sequence))

/-- The mapping that a file holds. -/
def ofFile (files : Files) (path : String) : Except ConfigError Mapping :=
  match Format.ofPath? path with
  | none => .error (.unsupported path)
  | some format =>
    match files path with
    | .error reason => .error (.unreadable path reason)
    | .ok text => parse text format path

end Source

/-! ### Loading -/

namespace Store

/-- A store after a result of reading is loaded into it; the lock comes
first. -/
def loadSource? (s : Store) (data : Except ConfigError Mapping) : Except ConfigError Store :=
  if s.mutable then data.bind fun m => (s.load? m).mapError .locked
  else .error (.locked ⟨.load⟩)

/-- A store after a text is loaded into it. -/
def loadText? (s : Store) (text : String) (format : Format) (name : String) :
    Except ConfigError Store :=
  s.loadSource? (Source.parse text format name)

/-- A store after a file is loaded into it. -/
def loadFile? (s : Store) (files : Files) (path : String) : Except ConfigError Store :=
  s.loadSource? (Source.ofFile files path)

end Store

end PageTree
