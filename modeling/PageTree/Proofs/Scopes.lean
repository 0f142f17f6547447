/-
The data of a node as one value.

A token in an element reads the attributes under the tag, and one in a text reads the
text, without a value being put together for it. Whatever the path is, it is read as
if this had been done: a path is never empty, its first component is compared as a
whole, and what comes after it leads into the attributes as into any mapping, while
nothing is inside a text.

* `Scope.data`: the data of a node as a value;
* `Scope.lookup?_data`: a path in the data of a node;
* `Scope.resolve?_data`: **one rule** for all nodes.
-/
import PageTree.Proofs.Assigning
import PageTree.Scope

namespace PageTree

/-- Below a mapping with one entry, a path leads through this entry or nowhere. -/
lemma Value.lookup?_entry (key first : String) (v : Value) (rest : List String) :
    (Value.obj [(key, v)]).lookup? (first :: rest) =
      if key = first then v.lookup? rest else none := by
  rw [Value.lookup?, Value.child?, Mapping.find?]
  split_ifs <;> rfl

/-- Nothing is inside a string. -/
lemma Value.lookup?_str (s first : String) (rest : List String) :
    (Value.str s).lookup? (first :: rest) = none := rfl

namespace Scope

/-- The data of a node as a value: no entries where there is none, a text under the tag
of texts, and the attributes of an element under its tag. -/
def data : Scope → Value
  | .empty => .obj []
  | .value v => v
  | .text content => .obj [(Node.textKey, .str content)]
  | .element tag attributes => .obj [(tag, .obj attributes)]

/-- A path in a text is the tag of texts alone. -/
lemma lookup?_text (content first : String) (rest : List String) :
    (Scope.text content).lookup? (first :: rest) =
      (Scope.value (Scope.text content).data).lookup? (first :: rest) := by
  rw [lookup?, lookup?, data, Value.lookup?_entry]
  cases rest with
  | nil =>
    by_cases hfirst : first = Node.textKey
    · rw [if_pos (by rw [hfirst]), if_pos hfirst.symm]
      rfl
    · rw [if_neg (by simpa using hfirst), if_neg (Ne.symm hfirst)]
      rfl
  | cons second rest =>
    rw [if_neg (by simp), Value.lookup?_str, ite_self]
    rfl

/-- A path in an element is its tag, which stands for all attributes, or leads from its
tag into them. -/
lemma lookup?_element (tag : String) (attributes : Mapping) (first : String)
    (rest : List String) :
    (Scope.element tag attributes).lookup? (first :: rest) =
      (Scope.value (Scope.element tag attributes).data).lookup? (first :: rest) := by
  rw [lookup?, lookup?, data, Value.lookup?_entry]
  by_cases hfirst : first = tag
  · rw [if_neg (not_not.mpr hfirst), if_pos hfirst.symm]
    cases rest with
    | nil => rfl
    | cons second rest => rw [if_neg (by simp), Store.lookup?_obj (by simp)]
  · rw [if_pos hfirst, if_neg (Ne.symm hfirst)]
    rfl

/-- A path in the data of a node leads where it leads in the data as a value. -/
lemma lookup?_data (scope : Scope) {path : List String} (h : path ≠ []) :
    scope.lookup? path = (Scope.value scope.data).lookup? path := by
  obtain ⟨first, rest, rfl⟩ := List.exists_cons_of_ne_nil h
  cases scope with
  | empty => rfl
  | value v => rfl
  | text content => exact lookup?_text content first rest
  | element tag attributes => exact lookup?_element tag attributes first rest

/-- **One rule** for all nodes: under every configuration, a token stands for the same
text, or for none, in the data of a node and in this data as a value; and so do texts
with tokens. -/
theorem resolve?_data (config : Store) (scope : Scope) :
    (∀ path, scope.resolve? config path = (Scope.value scope.data).resolve? config path) ∧
      ∀ text, scope.interpolate config text =
        (Scope.value scope.data).interpolate config text := by
  have hresolve : ∀ path,
      scope.resolve? config path = (Scope.value scope.data).resolve? config path := by
    intro path
    rw [resolve?, resolve?, lookup?_data scope (KeyPath.split_ne_nil path)]
  refine ⟨hresolve, fun text => ?_⟩
  rw [interpolate, interpolate]
  congr 1
  funext t
  rw [hresolve]

/-- A tag with a dot in it is the first component of no path. -/
example : (Scope.element "a.b" [("url", .str "/x")]).resolve? .empty "a.b.url" = none := by
  decide +kernel

end Scope

end PageTree
