/-
What a selection returns.

Sorting puts the documents one by one into place, each one behind those that it is
not before. So documents are neither lost nor doubled, whatever the comparison does;
and where the comparison is transitive, the documents are in order, and those that
compare equal keep the order in which they came in. The limit then cuts the list off,
and a single document is the first one of the list.

* `SortKey.perm_sort`, `SortKey.pairwise_sort`, `SortKey.filter_sort`: sorting;
* `SortKey.IsSorting`: documents in the order of some keys;
* `Collections.Filled`: collections, by what was put into them;
* `Collections.Matches`: the documents that match a filter;
* `Collections.chosen`: the documents that a selection takes;
* `Collections.select_exact`: **what a selection returns**.
-/
import Mathlib.Data.List.Induction
import Mathlib.Logic.Function.Basic
import PageTree.Collections.Select
import PageTree.Proofs.DocumentOrder
import PageTree.Proofs.ShownTexts

namespace PageTree

/-! ### Sorting -/

namespace SortKey

open Std

variable {keys : List SortKey} {documents : List Mapping} {document : Mapping}

/-- One more document is put into place. -/
lemma sort_concat (keys : List SortKey) (documents : List Mapping) (document : Mapping) :
    sort keys (documents ++ [document]) =
      (place keys document (sort keys documents).reverse).reverse := by
  simp [sort]

lemma perm_place (keys : List SortKey) (document : Mapping) (sorted : List Mapping) :
    (place keys document sorted).Perm (document :: sorted) := by
  induction sorted with
  | nil => exact .refl _
  | cons last before ih =>
    rw [place]
    split
    · exact (ih.cons last).trans (.swap document last before)
    · exact .refl _

/-- Sorting neither loses nor doubles a document. -/
theorem perm_sort (keys : List SortKey) (documents : List Mapping) :
    (sort keys documents).Perm documents := by
  induction documents using List.reverseRecOn with
  | nil => exact .refl _
  | append_singleton documents document ih =>
    rw [sort_concat]
    have hplace := perm_place keys document (sort keys documents).reverse
    have hrest := ((List.reverse_perm _).trans ih).cons document
    exact (List.reverse_perm _).trans
      (hplace.trans (hrest.trans (List.perm_append_singleton document documents).symm))

lemma mem_sort_iff {a : Mapping} : a ∈ sort keys documents ↔ a ∈ documents :=
  (perm_sort keys documents).mem_iff

/-- Without keys documents stay where they are. -/
lemma sort_nil_keys (documents : List Mapping) : sort [] documents = documents := by
  induction documents using List.reverseRecOn with
  | nil => rfl
  | append_singleton documents document ih =>
    have hplace : ∀ sorted, place [] document sorted = document :: sorted := by
      intro sorted
      cases sorted <;> simp [place, compareAll]
    rw [sort_concat, ih, hplace, List.reverse_cons, List.reverse_reverse]

/-- Whether two documents compare equal. -/
def ties (keys : List SortKey) (a b : Mapping) : Bool := compareAll keys a b = .eq

section Transitive

variable {cmp : Mapping → Mapping → Ordering} [TransCmp cmp] {all sorted : List Mapping}

/-- **One step** in a transitive order: the documents stay in order. -/
lemma pairwise_place (hcmp : ∀ a ∈ all, ∀ b ∈ all, compareAll keys a b = cmp a b)
    (hdocument : document ∈ all) (hall : ∀ a ∈ sorted, a ∈ all)
    (hsorted : sorted.Pairwise fun b a => (cmp a b).isLE) :
    (place keys document sorted).Pairwise fun b a => (cmp a b).isLE := by
  induction sorted with
  | nil => exact List.pairwise_singleton _ _
  | cons last before ih =>
    rw [List.forall_mem_cons] at hall
    obtain ⟨hlast, hbefore⟩ := List.pairwise_cons.mp hsorted
    rw [place, hcmp document hdocument last hall.1]
    split
    · next hlt =>
      refine List.pairwise_cons.mpr ⟨fun a ha => ?_, ih hall.2 hbefore⟩
      rcases List.mem_cons.mp ((perm_place keys document before).mem_iff.mp ha) with rfl | ha
      · simp [hlt]
      · exact hlast a ha
    · next hge =>
      have hle : (cmp last document).isLE := by
        have hswap : cmp last document = (cmp document last).swap := OrientedCmp.eq_swap
        rw [hswap]
        revert hge
        cases cmp document last <;> simp
      refine List.pairwise_cons.mpr ⟨fun a ha => ?_, hsorted⟩
      rcases List.mem_cons.mp ha with rfl | ha
      · exact hle
      · exact TransCmp.isLE_trans (hlast a ha) hle

/-- **One step** in a transitive order: of the documents that compare equal to one, the
new document is the last. -/
lemma filter_place (hcmp : ∀ a ∈ all, ∀ b ∈ all, compareAll keys a b = cmp a b)
    (hdocument : document ∈ all) (hall : ∀ a ∈ sorted, a ∈ all) {a : Mapping} (ha : a ∈ all) :
    (place keys document sorted).filter (ties keys a) =
      [document].filter (ties keys a) ++ sorted.filter (ties keys a) := by
  induction sorted with
  | nil => rw [place, List.filter_nil, List.append_nil]
  | cons last before ih =>
    rw [List.forall_mem_cons] at hall
    rw [place]
    split
    · next hlt =>
      rw [List.filter_cons, ih hall.2]
      by_cases hties : ties keys a document = true
      · -- what is passed over comes after the document
        have hlast : ties keys a last = false := by
          rw [hcmp document hdocument last hall.1] at hlt
          simp only [ties, hcmp a ha document hdocument, decide_eq_true_eq] at hties
          simp [ties, hcmp a ha last hall.1, TransCmp.lt_of_eq_of_lt hties hlt]
        simp [hlast]
      · simp [hties, List.filter_cons]
    · rw [← List.filter_append]
      rfl

/-- **Sorting** in a transitive order puts documents in order. -/
theorem pairwise_sort (hcmp : ∀ a ∈ all, ∀ b ∈ all, compareAll keys a b = cmp a b)
    (hall : ∀ a ∈ documents, a ∈ all) :
    (sort keys documents).Pairwise fun a b => (cmp a b).isLE := by
  induction documents using List.reverseRecOn with
  | nil => exact .nil
  | append_singleton documents document ih =>
    rw [List.forall_mem_append, List.forall_mem_singleton] at hall
    have hsorted : ∀ a ∈ (sort keys documents).reverse, a ∈ all := fun a ha =>
      hall.1 a (mem_sort_iff.mp (List.mem_reverse.mp ha))
    rw [sort_concat, List.pairwise_reverse]
    exact pairwise_place hcmp hall.2 hsorted (List.pairwise_reverse.mpr (ih hall.1))

/-- **Sorting** in a transitive order leaves documents that compare equal as they
were. -/
theorem filter_sort (hcmp : ∀ a ∈ all, ∀ b ∈ all, compareAll keys a b = cmp a b)
    (hall : ∀ a ∈ documents, a ∈ all) {a : Mapping} (ha : a ∈ all) :
    (sort keys documents).filter (ties keys a) = documents.filter (ties keys a) := by
  induction documents using List.reverseRecOn with
  | nil => rfl
  | append_singleton documents document ih =>
    rw [List.forall_mem_append, List.forall_mem_singleton] at hall
    have hsorted : ∀ a ∈ (sort keys documents).reverse, a ∈ all := fun a ha =>
      hall.1 a (mem_sort_iff.mp (List.mem_reverse.mp ha))
    rw [sort_concat, List.filter_reverse, filter_place hcmp hall.2 hsorted ha, List.reverse_append,
      List.filter_reverse, List.reverse_reverse, ih hall.1, ← List.filter_reverse,
      List.reverse_singleton, ← List.filter_append]

end Transitive

/-- Documents in the order of some keys: they are the ones that there were; without
keys they stay where they are; and if their values under each key are compared in one
way, no document is before one that it comes after, and documents that compare equal
keep the order in which they came in. -/
structure IsSorting (keys : List SortKey) (documents sorted : List Mapping) : Prop where
  perm : sorted.Perm documents
  eq_of_nil : keys = [] → sorted = documents
  pairwise : (∀ key ∈ keys, Comparable (key.values documents)) →
    sorted.Pairwise fun a b => compareAll keys a b ≠ .gt
  stable : (∀ key ∈ keys, Comparable (key.values documents)) →
    ∀ a ∈ documents, sorted.filter (ties keys a) = documents.filter (ties keys a)

/-- Sorting gives the documents in the order of the keys. -/
theorem isSorting_sort (keys : List SortKey) (documents : List Mapping) :
    IsSorting keys documents (sort keys documents) where
  perm := perm_sort keys documents
  eq_of_nil := fun hkeys => hkeys ▸ sort_nil_keys documents
  pairwise := fun hkeys => by
    obtain ⟨cmp, _, hcmp⟩ := exists_transCmp hkeys
    refine (pairwise_sort hcmp fun _ h => h).imp_of_mem fun ha hb hle => ?_
    rw [hcmp _ (mem_sort_iff.mp ha) _ (mem_sort_iff.mp hb)]
    exact Ordering.isLE_iff_ne_gt.mp hle
  stable := fun hkeys a ha => by
    obtain ⟨cmp, _, hcmp⟩ := exists_transCmp hkeys
    exact filter_sort hcmp (fun _ h => h) ha

end SortKey

/-! ### What was put into collections -/

/-- The documents that a value lists: the mappings in a sequence. -/
def Value.mappings : Value → List Mapping
  | .arr items => items.filterMap Value.asMapping?
  | _ => []

namespace Collections

/-- The documents that some data list under the name of a collection. -/
def listed (data : Mapping) (collection : String) : List Mapping :=
  (data.filter (·.1 = collection)).flatMap fun e => e.2.mappings

/-- Collections, by what was put into each of them, in order: collections of data, and
documents that came in one by one. -/
inductive Filled : (String → List Mapping) → Collections → Prop
  | empty : Filled (fun _ => []) empty
  | ofMapping {data : Mapping} {c : Collections} (h : ofMapping data = .ok c) :
    Filled (listed data) c
  | insert {held : String → List Mapping} {c : Collections} (h : Filled held c)
    (collection : String) (document : Mapping) :
    Filled (Function.update held collection (held collection ++ [document]))
      (c.insert collection document)

/-- The documents of a value are the mappings in it. -/
lemma eq_of_documentsOf {collection : String} {v : Value} {documents : List Mapping}
    (h : documentsOf collection v = .ok documents) : documents = v.mappings := by
  cases v with
  | arr items =>
    rw [documentsOf] at h
    rw [Value.mappings]
    induction items generalizing documents with
    | nil => exact (Except.ok.inj h).symm
    | cons item items ih =>
      rw [List.mapM_cons] at h
      obtain ⟨document, hitem, h⟩ := exists_of_bind_eq_ok h
      obtain ⟨rest, hrest, h⟩ := exists_of_bind_eq_ok h
      cases item with
      | obj m =>
        obtain rfl := Except.ok.inj hitem
        obtain rfl := Except.ok.inj h
        rw [ih hrest]
        rfl
      | _ => cases hitem
  | _ => cases h

/-- Collections of data hold the documents that the data list. -/
lemma documents_of_ofMapping {data : Mapping} {c : Collections} (h : ofMapping data = .ok c)
    (collection : String) : c.documents collection = listed data collection := by
  obtain ⟨parts, hparts, heq⟩ := exists_of_bind_eq_ok h
  obtain rfl := Except.ok.inj heq
  rw [documents]
  clear h heq
  induction data generalizing parts with
  | nil =>
    obtain rfl := Except.ok.inj hparts
    rfl
  | cons entry data ih =>
    rw [List.mapM_cons] at hparts
    obtain ⟨part, hpart, hparts⟩ := exists_of_bind_eq_ok hparts
    obtain ⟨rest, hrest, hparts⟩ := exists_of_bind_eq_ok hparts
    obtain ⟨documents, hdocuments, hpart⟩ := exists_of_bind_eq_ok hpart
    obtain rfl := Except.ok.inj hparts
    obtain rfl := Except.ok.inj hpart
    have hnames : ∀ l : List Mapping,
        ((l.map (entry.1, ·)).filter (·.1 = collection)).map Prod.snd =
          if entry.1 = collection then l else [] := by
      intro l
      by_cases hname : entry.1 = collection <;> simp [List.filter_map, Function.comp_def, hname]
    rw [List.flatten_cons, List.filter_append, List.map_append, hnames, ih rest hrest,
      eq_of_documentsOf hdocuments]
    by_cases hname : entry.1 = collection <;> simp [listed, hname]

/-- **A whole run**: collections hold what was put into them. -/
theorem Filled.documents_eq {held : String → List Mapping} {c : Collections} (h : Filled held c)
    (collection : String) : c.documents collection = held collection := by
  induction h with
  | empty => exact documents_empty collection
  | ofMapping h => exact documents_of_ofMapping h collection
  | @insert held c _ name document ih =>
    rw [documents_insert, ih]
    by_cases hname : name = collection
    · subst hname
      simp
    · rw [if_neg hname, Function.update_of_ne (Ne.symm hname)]

/-! ### Filters and limits -/

/-- Whether a document has at every path of a filter the value that the filter has for
it. -/
def Matches (filter document : Mapping) : Prop :=
  ∀ e ∈ filter, ∃ v, Mapping.lookup? document (KeyPath.split e.1) = some v ∧ v.same e.2 = true

lemma isMatch_iff {filter document : Mapping} :
    isMatch filter document = true ↔ Matches filter document := by
  rw [isMatch, List.all_eq_true]
  refine forall₂_congr fun e _ => ?_
  cases hlookup : Mapping.lookup? document (KeyPath.split e.1) <;> simp [hlookup]

instance (filter document : Mapping) : Decidable (Matches filter document) :=
  decidable_of_iff _ isMatch_iff

/-- Whether a list is the longest part at the front of another one that a condition
admits. -/
def IsLongestPrefix {α : Type} (admits : List α → Prop) (l front : List α) : Prop :=
  front <+: l ∧ admits front ∧ ∀ other, other <+: l → admits other → other <+: front

end Collections

/-- Whether a selection may have some documents: no more than the limit if many are
selected, and otherwise no more than one. -/
def SelectOptions.Admits (options : SelectOptions) (multiple : Bool) (l : List Mapping) : Prop :=
  if multiple then ∀ n, options.limit = some n → l.length ≤ n else l.length ≤ 1

namespace Collections

/-- Cutting a list off leaves as much of it as can stay. -/
lemma isLongestPrefix_cut (options : SelectOptions) (multiple : Bool) (l : List Mapping) :
    IsLongestPrefix (options.Admits multiple) l (cut (options.bound? multiple) l) := by
  have hadmits : ∀ front, options.Admits multiple front ↔
      ∀ n, options.bound? multiple = some n → front.length ≤ n := by
    intro front
    cases multiple <;> simp [SelectOptions.Admits, SelectOptions.bound?]
  simp only [IsLongestPrefix, hadmits]
  cases options.bound? multiple with
  | none => exact ⟨List.prefix_refl l, by simp, fun other h _ => h⟩
  | some n =>
    refine ⟨List.take_prefix n l, ?_, fun other h hle => ?_⟩
    · intro m hm
      exact Option.some.inj hm ▸ List.length_take_le n l
    · exact List.prefix_take_iff.mpr ⟨h, hle n rfl⟩

/-- The documents that a selection takes, as they are stored. -/
def chosen (c : Collections) (collection : String) (filter : Mapping) (options : SelectOptions)
    (multiple : Bool) : List Mapping :=
  c.select collection filter { options with expandReferences := false } multiple

/-- A selection returns the documents that it takes, or their expansions. -/
lemma select_eq_chosen (c : Collections) (collection : String) (filter : Mapping)
    (options : SelectOptions) (multiple : Bool) :
    c.select collection filter options multiple =
      if options.expandReferences then (c.chosen collection filter options multiple).map c.expand
      else c.chosen collection filter options multiple := rfl

/-- **What a selection returns**, references being left as they are: the longest part
at the front of the documents in order that its limit admits, the documents being those
that were put into the collection and match the filter. A single document is the first
one of all that would be returned without a limit. -/
theorem select_exact {held : String → List Mapping} {c : Collections} (h : Filled held c)
    (collection : String) (filter : Mapping) (options : SelectOptions)
    (hexpand : options.expandReferences = false) :
    ∃ found, SortKey.IsSorting options.sort ((held collection).filter (Matches filter ·)) found ∧
      (∀ multiple, IsLongestPrefix (options.Admits multiple) found
        (c.select collection filter options multiple)) ∧
      c.select collection filter options false =
        (c.select collection filter { options with limit := none } true).head?.toList := by
  have hmatching : c.matching collection filter =
      (held collection).filter (Matches filter ·) := by
    rw [matching, h.documents_eq]
    exact List.filter_congr fun document _ =>
      Bool.eq_iff_iff.mpr (isMatch_iff.trans decide_eq_true_iff.symm)
  have hselect : ∀ limit multiple,
      c.select collection filter { options with limit := limit } multiple =
        cut ({ options with limit := limit }.bound? multiple)
          (SortKey.sort options.sort (c.matching collection filter)) := by
    intro limit multiple
    simp [select, hexpand]
  rw [← hmatching]
  refine ⟨_, SortKey.isSorting_sort _ _, fun multiple => ?_, ?_⟩
  · rw [hselect options.limit]
    exact isLongestPrefix_cut options multiple _
  · rw [hselect options.limit, hselect none]
    cases SortKey.sort options.sort (c.matching collection filter) <;> rfl

/-- Posts of which two have one rank and one has none, and a fourth that comes in later;
the one with the highest rank does not match. -/
theorem select_exact_posts :
    let post (name : String) (shown : Bool) (rank : Mapping) : Mapping :=
      [("name", .str name), ("meta", .obj (("shown", .bool shown) :: rank))]
    let rank (i : Int) (h : FitsWord i) : Mapping := [("rank", .num (.integer i h))]
    let a := post "a" true (rank 9 (by decide))
    let b := post "b" true []
    let c := post "c" false (rank 11 (by decide))
    let d := post "d" true (rank 9 (by decide))
    let data : Mapping := [("news", .arr [.obj a, .obj b, .obj c]), ("pages", .arr [])]
    let held := Function.update (listed data) "news" (listed data "news" ++ [d])
    let store := (⟨[("news", a), ("news", b), ("news", c)]⟩ : Collections).insert "news" d
    let filter : Mapping := [("meta.shown", .bool true)]
    let options : SelectOptions := ⟨some 2, [⟨"meta.rank", .descending⟩], false⟩
    (Filled held store ∧ options.expandReferences = false ∧
        ∀ key ∈ options.sort,
          SortKey.Comparable (key.values ((held "news").filter (Matches filter ·)))) ∧
      ∃ found, SortKey.IsSorting options.sort ((held "news").filter (Matches filter ·)) found ∧
        (∀ multiple, IsLongestPrefix (options.Admits multiple) found
          (store.select "news" filter options multiple)) ∧
        store.select "news" filter options false =
          (store.select "news" filter { options with limit := none } true).head?.toList := by
  intro post rank a b c d data held store filter options
  have hfilled : Filled held store := .insert (.ofMapping rfl) "news" d
  exact ⟨⟨hfilled, rfl, by decide +kernel⟩, select_exact hfilled "news" filter options rfl⟩

end Collections

end PageTree
