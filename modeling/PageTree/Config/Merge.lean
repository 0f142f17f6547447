/-
Merging mappings, and keys that are paths.

* `Mapping.merge`: one mapping laid over another. Where both hold a mapping
  these are merged in turn; any other value replaces what was there, sequences
  included;
* `Mapping.expand`: keys with dots at the top level of a mapping turned into
  nested mappings, which are merged with each other. Keys further down keep
  their dots.
-/
import PageTree.KeyPath

namespace PageTree

mutual
/-- What becomes of a value, if there is one, when another is laid over it. -/
def Value.overlay (under : Option Value) : Value → Value
  | .obj upper =>
    match under with
    | some (.obj m) => .obj (Mapping.mergeEntries m upper)
    | _ => .obj upper
  | v => v

/-- Lays entries over a mapping, one after the other. -/
def Mapping.mergeEntries (m : Mapping) : List (String × Value) → Mapping
  | [] => m
  | (k, v) :: rest =>
    Mapping.mergeEntries (Mapping.insert m k (Value.overlay (Mapping.find? m k) v)) rest
end

/-- Lays a mapping over another one. -/
def Mapping.merge (m upper : Mapping) : Mapping := Mapping.mergeEntries m upper

/-- An entry as a mapping, a key with dots being a path. -/
def Mapping.ofPath (key : String) (v : Value) : Mapping :=
  match KeyPath.split key with
  | [_] => [(key, v)]
  | path => ((Value.null.assign path v).asMapping?).getD []

/-- A mapping with the keys at its top level expanded. -/
def Mapping.expand (m : Mapping) : Mapping :=
  m.foldl (fun expanded e => Mapping.merge expanded (Mapping.ofPath e.1 e.2)) []

end PageTree
