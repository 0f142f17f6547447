/-
Documents without a value.

Under a sort key every document that has a value is on the one side of every document that
lacks it, whatever the values are. So sorting by one key keeps the two kinds apart, though
the order within the kind that has values need not be transitive. In ascending order the
documents that lack the value come last. A descending key turns the comparison around as a
whole, so they come first.

* `SortKey.Lacks`: documents without a value under a key;
* `SortKey.compareBy_of_lacks`: a document with a value and one without;
* `SortKey.pairwise_place_of_apart`, `SortKey.pairwise_sort_of_apart`: sorting documents of
  two kinds;
* `SortKey.LackingLast`, `SortKey.LackingFirst`: where the documents without a value are;
* `Collections.select_lackingLast_iff`: **documents without a value** in a selection;
* `Collections.not_lackingLast_select`: a descending key.
-/
import PageTree.Proofs.Selecting

namespace PageTree

namespace SortKey

variable {key : SortKey} {keys : List SortKey} {document a b : Mapping}

/-! ### Comparison -/

/-- Whether a document has no value under a sort key. -/
def Lacks (key : SortKey) (document : Mapping) : Prop :=
  Mapping.lookup? document (KeyPath.split key.field) = none

instance (key : SortKey) (document : Mapping) : Decidable (key.Lacks document) :=
  inferInstanceAs (Decidable (_ = none))

/-- A document with a value comes before one without, and behind it if the key is
descending. -/
lemma compareBy_of_lacks (ha : ¬ key.Lacks a) (hb : key.Lacks b) :
    key.compareBy a b = direct key.order .lt := by
  obtain ⟨v, hv⟩ := Option.ne_none_iff_exists'.mp ha
  have hlookup : Mapping.lookup? b (KeyPath.split key.field) = none := hb
  rw [compareBy, hv, hlookup]
  cases v <;> rfl

lemma compareAll_singleton (key : SortKey) (a b : Mapping) :
    compareAll [key] a b = key.compareBy a b := by
  rw [compareAll, compareAll, Ordering.then_eq]

/-! ### Documents of two kinds -/

section Apart

variable {late : Mapping → Prop} (h : ∀ a b, ¬ late a → late b → compareAll keys a b = .lt)

include h

/-- **One step**: if all documents of one kind come before all of the other one, putting
one more document into place keeps the kinds apart. -/
lemma pairwise_place_of_apart {sorted : List Mapping}
    (hsorted : sorted.Pairwise fun b a => late a → late b) (document : Mapping) :
    (place keys document sorted).Pairwise fun b a => late a → late b := by
  induction sorted with
  | nil => exact List.pairwise_singleton _ _
  | cons last before ih =>
    obtain ⟨hlast, hbefore⟩ := List.pairwise_cons.mp hsorted
    rw [place]
    split
    · next hlt =>
      refine List.pairwise_cons.mpr ⟨fun a ha hlate => ?_, ih hbefore⟩
      rcases List.mem_cons.mp ((perm_place keys document before).mem_iff.mp ha) with rfl | ha
      · -- otherwise the document would come after the last one
        by_contra hearly
        have hgt := compareAll_swap keys last a
        rw [h last a hearly hlate, hlt] at hgt
        cases hgt
      · exact hlast a ha hlate
    · next hge =>
      have hdocument : late last → late document := fun hlate =>
        by_contra fun hearly => hge (h document last hearly hlate)
      refine List.pairwise_cons.mpr ⟨fun a ha hlate => hdocument ?_, hsorted⟩
      rcases List.mem_cons.mp ha with rfl | ha
      · exact hlate
      · exact hlast a ha hlate

/-- **Sorting** keeps the two kinds apart. -/
theorem pairwise_sort_of_apart (documents : List Mapping) :
    (sort keys documents).Pairwise fun a b => late a → late b := by
  induction documents using List.reverseRecOn with
  | nil => exact .nil
  | append_singleton documents document ih =>
    rw [sort_concat, List.pairwise_reverse]
    exact pairwise_place_of_apart h (List.pairwise_reverse.mpr ih) document

end Apart

/-! ### Documents without a value -/

/-- Whether no document that lacks the value comes before one that has it. -/
def LackingLast (key : SortKey) (documents : List Mapping) : Prop :=
  documents.Pairwise fun a b => key.Lacks a → key.Lacks b

/-- Whether no document that has the value comes before one that lacks it. -/
def LackingFirst (key : SortKey) (documents : List Mapping) : Prop :=
  documents.Pairwise fun a b => key.Lacks b → key.Lacks a

instance (key : SortKey) (documents : List Mapping) : Decidable (key.LackingLast documents) :=
  inferInstanceAs (Decidable (List.Pairwise _ _))

/-- Documents that lack the value are last if they come in ascending order. -/
lemma lackingLast_sort (hkey : key.order = .ascending) (documents : List Mapping) :
    key.LackingLast (sort [key] documents) := by
  have hapart : ∀ a b, ¬ key.Lacks a → key.Lacks b → compareAll [key] a b = .lt := by
    intro a b ha hb
    rw [compareAll_singleton, compareBy_of_lacks ha hb, hkey, direct]
  exact pairwise_sort_of_apart hapart documents

/-- Documents that lack the value are first if they come in descending order. -/
lemma lackingFirst_sort (hkey : key.order = .descending) (documents : List Mapping) :
    key.LackingFirst (sort [key] documents) := by
  have hapart : ∀ a b, ¬ ¬ key.Lacks a → ¬ key.Lacks b → compareAll [key] a b = .lt := by
    intro a b ha hb
    rw [compareAll_singleton, compareBy_swap, compareBy_of_lacks hb (not_not.mp ha), hkey]
    rfl
  exact (pairwise_sort_of_apart hapart documents).imp
    fun hlate hb => by_contra fun ha => hlate ha hb

/-- Documents that lack the value are both first and last only if all of them lack it, or
none does. -/
lemma forall_lacks_or (documents : List Mapping) (hfirst : key.LackingFirst documents)
    (hlast : key.LackingLast documents) :
    (∀ a ∈ documents, key.Lacks a) ∨ ∀ a ∈ documents, ¬ key.Lacks a := by
  cases documents with
  | nil => exact .inl fun _ ha => absurd ha List.not_mem_nil
  | cons a rest =>
    have hfirst := (List.pairwise_cons.mp hfirst).1
    have hlast := (List.pairwise_cons.mp hlast).1
    by_cases ha : key.Lacks a
    · exact .inl (List.forall_mem_cons.mpr ⟨ha, fun b hb => hlast b hb ha⟩)
    · exact .inr (List.forall_mem_cons.mpr ⟨ha, fun b hb hlacks => ha (hfirst b hb hlacks)⟩)

end SortKey

/-! ### Selections -/

namespace Collections

open SortKey

/-- A selection takes the documents in order, up to its limit. -/
lemma chosen_sublist (c : Collections) (collection : String) (filter : Mapping)
    (options : SelectOptions) (multiple : Bool) :
    (c.chosen collection filter options multiple).Sublist
      (SortKey.sort options.sort (c.matching collection filter)) := by
  have hprefix := (isLongestPrefix_cut options multiple
    (SortKey.sort options.sort (c.matching collection filter))).1
  exact hprefix.sublist

/-- **Documents without a value** under the one sort key of a selection: in ascending order
they are the last of the documents that it takes, and in descending order the first. So no
document that lacks the value comes before one that has it, if and only if the order is
ascending, or all documents lack the value, or none does. -/
theorem select_lackingLast_iff (c : Collections) (collection : String) (filter : Mapping)
    {options : SelectOptions} {key : SortKey} (hsort : options.sort = [key]) (multiple : Bool) :
    let taken := c.chosen collection filter options multiple
    c.select collection filter options multiple =
        (if options.expandReferences then taken.map c.expand else taken) ∧
      (key.order = .ascending → key.LackingLast taken) ∧
      (key.order = .descending → key.LackingFirst taken) ∧
      (key.LackingLast taken ↔
        key.order = .ascending ∨ (∀ a ∈ taken, key.Lacks a) ∨ ∀ a ∈ taken, ¬ key.Lacks a) := by
  intro taken
  have hsublist : taken.Sublist _ := c.chosen_sublist collection filter options multiple
  rw [hsort] at hsublist
  have hlast (hkey : key.order = .ascending) : key.LackingLast taken :=
    (lackingLast_sort hkey _).sublist hsublist
  have hfirst (hkey : key.order = .descending) : key.LackingFirst taken :=
    (lackingFirst_sort hkey _).sublist hsublist
  refine ⟨c.select_eq_chosen collection filter options multiple, hlast, hfirst, fun h => ?_, ?_⟩
  · cases hkey : key.order with
    | ascending => exact .inl rfl
    | descending => exact .inr (forall_lacks_or _ (hfirst hkey) h)
  · rintro (hkey | hall | hnone)
    · exact hlast hkey
    · exact List.pairwise_of_forall_mem_list fun _ _ b hb _ => hall b hb
    · exact List.pairwise_of_forall_mem_list fun a ha _ _ hlacks => absurd hlacks (hnone a ha)

/-- Posts with numbers and a text as their ranks, which stand in no order, and one post
without a rank, of which a descending key takes three. -/
theorem select_lackingLast_iff_ranked :
    let post (name : String) (rank : Mapping) : Mapping :=
      [("name", .str name), ("meta", .obj rank)]
    let rank (i : Int) (h : FitsWord i) : Value := .num (.integer i h)
    let c : Collections := ⟨[("posts", post "a" [("rank", rank 10 (by decide))]),
      ("posts", post "b" []), ("posts", post "c" [("rank", .str "5")]),
      ("posts", post "d" [("rank", rank 9 (by decide))])]⟩
    let key : SortKey := ⟨"meta.rank", .descending⟩
    let options : SelectOptions := { limit := some 3, sort := [key] }
    let taken := c.chosen "posts" [] options true
    options.sort = [key] ∧
      c.select "posts" [] options true =
        (if options.expandReferences then taken.map c.expand else taken) ∧
      key.LackingFirst taken ∧
      (key.LackingLast taken ↔
        key.order = .ascending ∨ (∀ a ∈ taken, key.Lacks a) ∨ ∀ a ∈ taken, ¬ key.Lacks a) := by
  intro post rank c key options taken
  have hsort : options.sort = [key] := rfl
  obtain ⟨hselect, -, hfirst, hiff⟩ := select_lackingLast_iff c "posts" [] hsort true
  exact ⟨hsort, hselect, hfirst rfl, hiff⟩

/-- **A descending key** puts a document that lacks its value in front of one that has it. -/
theorem not_lackingLast_select :
    ¬ ∀ (c : Collections) (collection : String) (filter : Mapping) (options : SelectOptions)
      (key : SortKey) (multiple : Bool), options.sort = [key] →
        key.LackingLast (c.select collection filter options multiple) := by
  intro h
  have hposts := h ⟨[("posts", [("title", .str "Draft")]),
    ("posts", [("title", .str "News"), ("rank", .num (.integer 1 (by decide)))])]⟩ "posts" []
    { sort := [⟨"rank", .descending⟩] } ⟨"rank", .descending⟩ true rfl
  revert hposts
  decide +kernel

end Collections

end PageTree
