/-
References deep in a document.

The levels that are counted when a document is expanded are steps, into an item or an entry,
and not references that were followed. So how far below the top level a reference stands
decides by itself whether it is followed, even if no other reference is on the way to it. In
page content every element takes three steps, and a reference inside the third element down
stays as it is.

* `Collections.PassesReference`: places that are reached through a reference;
* `Collections.at?_expandTo_of_leads`: **chains of references**;
* `Collections.select_reference_within`: **references in selected documents**, by how deep
  they stand;
* `Collections.not_select_reference`: a reference that stands too deep.
-/
import Mathlib.Data.List.Infix
import PageTree.Proofs.Expanding
import PageTree.Proofs.Selecting

namespace PageTree

/-! ### References on the way -/

lemma Value.asMapping?_eq_some_iff {v : Value} {m : Mapping} :
    v.asMapping? = some m ↔ v = .obj m := by
  cases v <;> simp [asMapping?]

namespace Collections

open Value

variable {c : Collections} {document m target : Mapping} {place : List Step}

/-- Whether a place in a document is reached through a reference, be it to a document that
exists or not. The document itself is no reference. -/
def PassesReference (document : Mapping) (place : List Step) : Prop :=
  ∃ before, before <+: place ∧ before ≠ [] ∧ before ≠ place ∧
    ∃ n, (Value.obj document).at? before = some (.obj n) ∧ reference? n ≠ none

instance (document : Mapping) (place : List Step) : Decidable (PassesReference document place) :=
  decidable_of_iff (∃ before ∈ place.inits, before ≠ [] ∧ before ≠ place ∧
      ∃ n ∈ ((Value.obj document).at? before).bind Value.asMapping?, reference? n ≠ none) <| by
    simp only [PassesReference, List.mem_inits, Option.mem_def, Option.bind_eq_some_iff,
      Value.asMapping?_eq_some_iff, exists_eq_right]

lemma BelowReference.passesReference (h : c.BelowReference document place) :
    PassesReference document place := by
  obtain ⟨before, hpre, hne, hlt, n, target, hn, htarget⟩ := h
  exact ⟨before, hpre, hne, hlt, n, hn, fun href => by simp [target?, href] at htarget⟩

/-- A reference that stands in a document at a place below no other reference becomes its
document, expanded as far as levels are left, or stays if there are none. -/
lemma at?_expandTo_reference (hplace : place ≠ [])
    (hm : (Value.obj document).at? place = some (.obj m)) (htarget : c.target? m = some target)
    (h : ¬ c.BelowReference document place) (levels : ℕ) :
    (Value.obj (c.expandTo levels document)).at? place =
      some (.obj (if place.length ≤ levels then c.expandTo (levels - place.length) target
        else m)) := by
  rw [at?_expandTo hplace h levels, hm, Option.map_some]
  split_ifs with hdepth
  · have hlevels : levels + 1 - place.length - 1 = levels - place.length := by omega
    rw [expandValue_of_target (by omega) htarget, hlevels]
  · rw [Nat.sub_eq_zero_of_le (Nat.succ_le_of_lt (not_le.mp hdepth)), expandValue_zero]

/-! ### Chains of references -/

/-- Whether a chain of references leads from a document to a last one. Each reference stands
in the document before at a place below no other one, and the places are put together. -/
inductive Leads (c : Collections) : Mapping → List Step → Mapping → Prop
  | here {document : Mapping} : Leads c document [] document
  | follow {document m target last : Mapping} {place rest : List Step} (hplace : place ≠ [])
    (hm : (Value.obj document).at? place = some (.obj m)) (htarget : c.target? m = some target)
    (h : ¬ c.BelowReference document place) (hrest : Leads c target rest last) :
    Leads c document (place ++ rest) last

/-- **A chain of references** is followed to its last document as long as all its steps
together are no more than the levels, of however many references it is. -/
theorem at?_expandTo_of_leads {last : Mapping} {levels : ℕ} (h : c.Leads document place last)
    (hlevels : place.length ≤ levels) :
    (Value.obj (c.expandTo levels document)).at? place =
      some (.obj (c.expandTo (levels - place.length) last)) := by
  induction h generalizing levels with
  | here => rfl
  | @follow document m target last place rest hplace hm htarget hbelow _ ih =>
    rw [List.length_append] at hlevels ⊢
    have hfirst : place.length ≤ levels := by omega
    have hrest : rest.length ≤ levels - place.length := by omega
    rw [at?_append, at?_expandTo_reference hplace hm htarget hbelow, if_pos hfirst,
      Option.bind_some, ih hrest, Nat.sub_add_eq]

/-! ### Selections -/

/-- **References in selected documents**: a selection with expansion returns the documents
that it takes, expanded. A reference that stands below the top level of one of them, at a
place below no other reference that names a document, is in the result replaced by the
document that it names if the place is at most `maxDepth` steps down; this document is itself
expanded as far as the steps that are left. If the place is farther down, the reference stays
as it is. -/
theorem select_reference_within (c : Collections) (collection : String) (filter : Mapping)
    {options : SelectOptions} (hexpand : options.expandReferences = true) (multiple : Bool) :
    let taken := c.chosen collection filter options multiple
    c.select collection filter options multiple = taken.map c.expand ∧
      ∀ document ∈ taken, ∀ place m target, place ≠ [] →
        (Value.obj document).at? place = some (.obj m) → c.target? m = some target →
          ¬ c.BelowReference document place →
            (Value.obj (c.expand document)).at? place =
              some (.obj (if place.length ≤ maxDepth then
                c.expandTo (maxDepth - place.length) target else m)) := by
  intro taken
  refine ⟨?_, fun document _ place m target hplace hm htarget h => ?_⟩
  · rw [select_eq_chosen, if_pos hexpand]
  · exact at?_expandTo_reference hplace hm htarget h maxDepth

/-- A page that names its author in a list, who belongs to a team. -/
theorem select_reference_within_author :
    let reference (collection id : String) : Value :=
      .obj [("collection", .str collection), ("_id", .obj [("$oid", .str id)])]
    let team : Mapping := [("_id", .str "core"), ("name", .str "Core")]
    let author : Mapping := [("_id", .str "ada"), ("team", reference "teams" "core")]
    let page : Mapping := [("route", .str "/about"), ("authors", .arr [reference "people" "ada"])]
    let c : Collections := ⟨[("people", author), ("teams", team), ("pages", page)]⟩
    let options : SelectOptions := {}
    let taken := c.chosen "pages" [] options true
    let place : List Step := [.key "authors", .index 0]
    let expanded := c.expandTo (maxDepth - place.length) author
    (options.expandReferences = true ∧ page ∈ taken ∧ ¬ c.BelowReference page place) ∧
      c.select "pages" [] options true = taken.map c.expand ∧
      (Value.obj (c.expand page)).at? place = some (.obj expanded) ∧
      expanded = [("_id", .str "ada"), ("team", .obj team)] := by
  intro reference team author page c options taken place expanded
  have hexpand : options.expandReferences = true := rfl
  have hmem : page ∈ taken := by decide +kernel
  have hplace : ¬ c.BelowReference page place :=
    fun h => absurd h.passesReference (by decide +kernel)
  obtain ⟨hselect, hat⟩ := select_reference_within c "pages" [] hexpand true
  have hauthor := hat page hmem place _ author (by decide) rfl (by decide +kernel) hplace
  exact ⟨⟨hexpand, hmem, hplace⟩, hselect, hauthor, by decide +kernel⟩

/-- **A reference that stands too deep**: in the third element down in the content of a page,
a reference is not replaced by the document that it names, however far expanded, though no
other reference is on the way to it. -/
theorem not_select_reference :
    ¬ ∀ (c : Collections) (collection : String) (filter : Mapping) (options : SelectOptions)
      (multiple : Bool), options.expandReferences = true →
        ∀ document ∈ c.chosen collection filter options multiple, ∀ place m target,
          place ≠ [] → (Value.obj document).at? place = some (.obj m) →
            c.target? m = some target → ¬ PassesReference document place →
              ∃ returned ∈ c.select collection filter options multiple, ∃ levels,
                (Value.obj returned).at? place = some (.obj (c.expandTo levels target)) := by
  intro h
  let element (name : String) (children : List Value) : Value :=
    .obj [(name, .obj [("children", .arr children)])]
  let reference : Mapping :=
    [("collection", .str "snippets"), ("_id", .obj [("$oid", .str "greeting")])]
  let snippet : Mapping := [("_id", .str "greeting"), ("p", .str "Hello")]
  let page : Mapping := [("route", .str "/"),
    ("content", element "html" [element "body" [element "div" [.obj reference]]])]
  let c : Collections := ⟨[("pages", page), ("snippets", snippet)]⟩
  obtain ⟨returned, hreturned, levels, hat⟩ := h c "pages" [] {} true rfl page (by decide +kernel)
    [.key "content", .key "html", .key "children", .index 0, .key "body", .key "children",
      .index 0, .key "div", .key "children", .index 0]
    reference snippet (by decide) rfl (by decide +kernel) (by decide +kernel)
  have hselect : c.select "pages" [] {} true = [page] := by decide +kernel
  rw [hselect, List.mem_singleton] at hreturned
  subst hreturned
  -- the reference is still there, and has other keys than the document
  have hsame : reference = c.expandTo levels snippet := Value.obj.inj (Option.some.inj hat)
  have hkeys := congrArg Mapping.keys hsame
  rw [keys_expandTo] at hkeys
  revert hkeys
  decide

end Collections

end PageTree
