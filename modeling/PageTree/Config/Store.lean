/-
The configuration store.

A store is a mapping that is read and written along dot paths, and that can be
locked. A locked store refuses every change.

* `Store.get?`, `Store.set?`, `Store.remove?`: single values;
* `Store.compile?`: the tokens in the store's own strings, replaced by the
  values they name. Strings are taken in tree order, each against the store as
  it stands then, and a token that names nothing stays;
* `Store.load?`: a mapping merged into the store, which is then compiled.
-/
import PageTree.Config.Merge
import PageTree.Placeholder
import PageTree.Json.Printer

namespace PageTree

/-- The settings, and whether they may be changed. -/
structure Store where
  settings : Mapping
  mutable : Bool
deriving DecidableEq

/-- The changes that a lock refuses. -/
inductive Change where
  | set
  | remove
  | compile
  | load
deriving DecidableEq

/-- What a change does, in words. -/
def Change.text : Change → String
  | .set => "set"
  | .remove => "remove"
  | .compile => "compile macros"
  | .load => "load configuration"

/-- A change refused because the store is locked. -/
structure Locked where
  change : Change
deriving DecidableEq

/-- The message of a refused change. -/
def Locked.message (e : Locked) : String := "Configuration is locked: cannot " ++ e.change.text

/-! ### Places of strings -/

/-- A step from a container to a child. -/
inductive Step where
  | key (k : String)
  | index (i : Nat)
deriving DecidableEq

namespace Value

/-- The value after some steps. -/
def at? (v : Value) (place : List Step) : Option Value :=
  match place, v with
  | [], v => some v
  | .key k :: rest, .obj m => (Mapping.find? m k).bind (at? · rest)
  | .index i :: rest, .arr items => (items[i]?).bind (at? · rest)
  | _ :: _, _ => none

/-- Puts a value after some steps, if they lead somewhere. -/
def put (v : Value) (place : List Step) (new : Value) : Value :=
  match place, v with
  | [], _ => new
  | .key k :: rest, .obj m =>
    match Mapping.find? m k with
    | some w => .obj (Mapping.insert m k (put w rest new))
    | none => v
  | .index i :: rest, .arr items => .arr (items.modify i fun w => put w rest new)
  | _ :: _, v => v

mutual
/-- The places of the strings below a value that may hold a token, in tree
order. -/
def stringPlaces : Value → List (List Step)
  | .str s => if Placeholder.hasOpening s.toList then [[]] else []
  | .arr items => itemPlaces 0 items
  | .obj entries => entryPlaces entries
  | _ => []

/-- The places below the items of a sequence, the first of which has an
index. -/
def itemPlaces (i : Nat) : List Value → List (List Step)
  | [] => []
  | v :: rest => (stringPlaces v).map (.index i :: ·) ++ itemPlaces (i + 1) rest

/-- The places below the entries of a mapping. -/
def entryPlaces : List (String × Value) → List (List Step)
  | [] => []
  | (k, v) :: rest => (stringPlaces v).map (.key k :: ·) ++ entryPlaces rest
end

end Value

namespace Store

/-- The empty store. -/
def empty : Store := ⟨[], true⟩

/-! ### Reading -/

/-- The value at a dot path. -/
def get? (s : Store) (path : String) : Option Value :=
  Mapping.lookup? s.settings (KeyPath.split path)

/-- The value at a dot path, or another one. -/
def getD (s : Store) (path : String) (default : Value) : Value := (s.get? path).getD default

/-- The string at a dot path. -/
def getText? (s : Store) (path : String) : Option String := (s.get? path).bind Value.asText?

/-- The boolean at a dot path. -/
def getBool? (s : Store) (path : String) : Option Bool := (s.get? path).bind Value.asBool?

/-- Whether a dot path exists. -/
def has (s : Store) (path : String) : Bool := (s.get? path).isSome

/-! ### Locking -/

/-- A store that may not be changed. -/
def lock (s : Store) : Store := { s with mutable := false }

/-- A store that may be changed. -/
def unlock (s : Store) : Store := { s with mutable := true }

/-- The result of a change that a lock refuses. -/
def guarded {α : Type} (s : Store) (change : Change) (result : α) : Except Locked α :=
  if s.mutable then .ok result else .error ⟨change⟩

/-! ### Single values -/

/-- Puts a value at a path below some settings. -/
def assign (m : Mapping) (path : List String) (v : Value) : Mapping :=
  match path with
  | [] => m
  | first :: rest => Mapping.alter m first fun w => w.assign rest v

/-- A store with a value at a dot path; mappings on the way are made where
there are none. -/
def set? (s : Store) (path : String) (v : Value) : Except Locked Store :=
  s.guarded .set { s with settings := assign s.settings (KeyPath.split path) v }

/-- Takes a child away from a container, if it has it: the child, and the
container without it. -/
def takeChild? (v : Value) (component : String) : Option (Value × Value) :=
  match v with
  | .obj m => (Mapping.find? m component).map (·, .obj (Mapping.erase m component))
  | .arr items =>
    (KeyPath.index? component items.length).bind fun i =>
      (items[i]?).map (·, .arr (items.eraseIdx i))
  | _ => none

/-- Takes the value at a path away from a container, if it is there: the
value, and the container without it. -/
def take? (v : Value) (path : List String) : Option (Value × Value) :=
  match path with
  | [] => none
  | [component] => takeChild? v component
  | component :: next :: rest =>
    match v.child? component with
    | none => none
    | some w =>
      (take? w (next :: rest)).map fun (removed, w) =>
        (removed, v.alterChild component fun _ => w)

/-- A store without the value at a dot path, and that value if it was there. -/
def remove? (s : Store) (path : String) : Except Locked (Option Value × Store) :=
  s.guarded .remove <|
    match take? (.obj s.settings) (KeyPath.split path) with
    | some (removed, .obj m) => (some removed, { s with settings := m })
    | _ => (none, s)

/-! ### Tokens -/

/-- A string with its tokens replaced by the values they name; a token that
names nothing stays. -/
def compileText (m : Mapping) (text : String) : String :=
  Placeholder.substitute (fun t =>
    match Mapping.lookup? m (KeyPath.split t.key) with
    | some v => v.text
    | none => t.rawText) text

/-- Compiles the string at a place against the settings as they are. -/
def compileAt (m : Mapping) (place : List Step) : Mapping :=
  match Value.at? (.obj m) place with
  | some (.str s) =>
    ((Value.put (.obj m) place (.str (compileText m s))).asMapping?).getD m
  | _ => m

/-- Compiles every string of some settings, in tree order. -/
def compileAll (m : Mapping) : Mapping :=
  (Value.stringPlaces (.obj m)).foldl compileAt m

/-- A store with the tokens in its strings replaced. -/
def compile? (s : Store) : Except Locked Store :=
  s.guarded .compile { s with settings := compileAll s.settings }

/-! ### Loading -/

/-- A store with a mapping merged into it, keys with dots being paths, and
compiled. -/
def load? (s : Store) (data : Mapping) : Except Locked Store :=
  s.guarded .load
    { s with settings := compileAll (Mapping.merge s.settings (Mapping.expand data)) }

end Store

end PageTree
