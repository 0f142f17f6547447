/-
Characters of texts, whatever the texts are.

* `Text.pair_infix_cons_iff`, `Text.triple_infix_cons_iff`,
  `Text.pair_infix_append_iff`: characters that stand side by side;
* `Text.trimEnds_append_cons`, `Text.trimEnds_append`, `Text.trimEnds_eq_self`: the ends
  that are taken off a text.
-/
import Mathlib.Data.List.DropRight
import Mathlib.Data.List.Infix
import PageTree.Text.Blank

namespace PageTree

namespace Text

variable {a b c d : Char} {as bs cs : List Char} {p : Char → Bool}

/-! ### Side by side -/

/-- A pair of characters in a text is at its front or further on. -/
lemma pair_infix_cons_iff :
    [a, b] <:+: c :: cs ↔ (c = a ∧ cs.head? = some b) ∨ [a, b] <:+: cs := by
  rw [List.infix_cons_iff, List.cons_prefix_cons, List.singleton_prefix_iff_head?_eq_some,
    eq_comm]

/-- So are three of them. -/
lemma triple_infix_cons_iff :
    [a, b, d] <:+: c :: cs ↔ (c = a ∧ [b, d] <+: cs) ∨ [a, b, d] <:+: cs := by
  rw [List.infix_cons_iff, List.cons_prefix_cons, eq_comm]

/-- A pair of characters in two texts put together is in one of them, unless its second
one starts the second text. -/
lemma pair_infix_append_iff (h : bs.head? ≠ some b) :
    [a, b] <:+: as ++ bs ↔ [a, b] <:+: as ∨ [a, b] <:+: bs := by
  induction as with
  | nil => simp
  | cons c as ih =>
    have hhead : (as ++ bs).head? = some b ↔ as.head? = some b := by
      cases as with
      | nil => simp [h]
      | cons d as => rfl
    rw [List.cons_append, pair_infix_cons_iff, pair_infix_cons_iff, ih, hhead, or_assoc]

/-! ### The ends of a text -/

/-- What is taken off the end of a text stands behind any character that is not. -/
lemma rdropWhile_append_cons (hc : p c = false) (as bs : List Char) :
    (as ++ c :: bs).rdropWhile p = as ++ c :: bs.rdropWhile p := by
  induction bs using List.reverseRecOn with
  | nil => rw [List.rdropWhile_concat_neg _ _ _ (by simp [hc]), List.rdropWhile_nil]
  | append_singleton bs d ih =>
    have hassoc : as ++ c :: (bs ++ [d]) = (as ++ c :: bs) ++ [d] := by simp
    rw [hassoc, List.rdropWhile_concat, List.rdropWhile_concat, ih]
    split <;> simp

/-- A text from which only the ends around a character can be taken off. -/
lemma trimEnds_append_cons (has : ∀ b ∈ as, p b = true) (hc : p c = false) (bs : List Char) :
    trimEnds p (as ++ c :: bs) = c :: bs.rdropWhile p := by
  have hfront : (as ++ c :: bs).dropWhile p = c :: bs := by
    rw [List.dropWhile_append_of_pos has, List.dropWhile_cons_of_neg (by simp [hc])]
  rw [trimEnds, hfront]
  exact rdropWhile_append_cons hc [] bs

/-- Characters that are taken off, around a text. -/
lemma trimEnds_append (has : ∀ a ∈ as, p a = true) (hbs : ∀ b ∈ bs, p b = true) :
    trimEnds p (as ++ cs ++ bs) = trimEnds p cs := by
  rw [trimEnds, List.append_assoc, List.dropWhile_append_of_pos has, List.dropWhile_append]
  split
  · next hnil =>
    rw [trimEnds, List.isEmpty_iff.mp hnil, List.dropWhile_eq_nil_iff.mpr hbs]
  · rw [List.reverse_append,
      List.dropWhile_append_of_pos fun b hb => hbs b (List.mem_reverse.mp hb)]
    rfl

/-- Nothing is taken off a text that neither starts nor ends with such a character. -/
lemma trimEnds_eq_self (h : ∀ c, cs.head? = some c → p c = false)
    (h' : ∀ c, cs.getLast? = some c → p c = false) : trimEnds p cs = cs := by
  have hfront : ∀ {l : List Char}, (∀ c, l.head? = some c → p c = false) → l.dropWhile p = l := by
    intro l hl
    cases l with
    | nil => rfl
    | cons c l => exact List.dropWhile_cons_of_neg (by simp [hl c rfl])
  rw [trimEnds, hfront h, hfront (by simpa using h'), List.reverse_reverse]

/-- Nothing comes in where something is taken off. -/
lemma mem_of_mem_trimEnds (h : c ∈ trimEnds p cs) : c ∈ cs := by
  have hfront := (List.dropWhile_sublist p).subset (List.mem_reverse.mp h)
  exact (List.dropWhile_sublist p).subset (List.mem_reverse.mp hfront)

end Text

end PageTree
