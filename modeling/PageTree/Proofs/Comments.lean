/-
The ends of comments.

The text of a comment is written between its marks with a blank between two hyphens and with
closing angle brackets escaped. So the only closing angle bracket of a comment is its last
character, and nothing before it can end the comment where angle brackets are needed for this.
But hyphens are taken in pairs from the left, and no blank comes between two pairs or behind
the last one: three hyphens in the text leave two of them side by side, and nothing else does.

* `Html.pair_infix_spaceHyphens_iff`: two hyphens side by side after pairs are spaced;
* `Html.comment_ends`: **the end of a comment**;
* `Html.not_comment_ends`: two hyphens left inside a comment.
-/
import Mathlib.Tactic.Common
import PageTree.Html
import PageTree.Proofs.Characters

namespace PageTree

namespace Html

open Text (pair_infix_cons_iff triple_infix_cons_iff)

/-! ### Hyphens side by side -/

lemma spaceHyphens_cons {c : Char} {rest : List Char}
    (h : ∀ later, c = '-' → rest = '-' :: later → False) :
    spaceHyphens (c :: rest) = c :: spaceHyphens rest := by
  rw [spaceHyphens]
  exact h

/-- Hyphens are spaced behind the first character. -/
lemma head?_spaceHyphens (cs : List Char) : (spaceHyphens cs).head? = cs.head? := by
  cases cs using spaceHyphens.induct with
  | case1 rest => rfl
  | case2 c rest hsingle => rw [spaceHyphens_cons hsingle, List.head?_cons, List.head?_cons]
  | case3 => rfl

/-- A closing angle bracket is escaped without hyphens. -/
lemma head?_flatMap_commentChar (cs : List Char) :
    (cs.flatMap commentChar).head? = some '-' ↔ cs.head? = some '-' := by
  cases cs with
  | nil => rfl
  | cons c cs =>
    rw [List.flatMap_cons, commentChar]
    split_ifs with hc
    · simp [hc]
    · rfl

/-- Escaping closing angle brackets moves no hyphens together. -/
lemma pair_infix_flatMap_commentChar_iff (cs : List Char) :
    ['-', '-'] <:+: cs.flatMap commentChar ↔ ['-', '-'] <:+: cs := by
  induction cs with
  | nil => rfl
  | cons c cs ih =>
    rw [List.flatMap_cons, pair_infix_cons_iff, ← ih, ← head?_flatMap_commentChar, commentChar]
    split_ifs with hc
    · simp [pair_infix_cons_iff, hc]
    · exact pair_infix_cons_iff

/-- **Hyphens taken in pairs** are left side by side where a third one follows a pair. -/
lemma pair_infix_spaceHyphens_iff (cs : List Char) :
    ['-', '-'] <:+: spaceHyphens cs ↔ ['-', '-', '-'] <:+: cs := by
  induction cs using spaceHyphens.induct with
  | case1 rest ih =>
    have hspaced : ['-', '-'] <:+: '-' :: ' ' :: '-' :: spaceHyphens rest ↔
        rest.head? = some '-' ∨ ['-', '-'] <:+: spaceHyphens rest := by
      simp [pair_infix_cons_iff, head?_spaceHyphens]
    have hhead : ['-', '-'] <+: rest → rest.head? = some '-' := by
      rintro ⟨later, rfl⟩
      rfl
    have hpairs : ['-', '-', '-'] <:+: '-' :: '-' :: rest ↔
        rest.head? = some '-' ∨ ['-', '-', '-'] <:+: rest := by
      rw [triple_infix_cons_iff, triple_infix_cons_iff, List.cons_prefix_cons,
        List.singleton_prefix_iff_head?_eq_some]
      simp only [true_and, ← or_assoc, or_iff_left_of_imp hhead]
    rw [spaceHyphens, hspaced, hpairs, ih]
  | case2 c rest hsingle ih =>
    have hne : ¬ (c = '-' ∧ rest.head? = some '-') := by
      rintro ⟨rfl, hhead⟩
      obtain ⟨later, rfl⟩ := List.head?_eq_some_iff.mp hhead
      exact hsingle later rfl rfl
    have hne' : ¬ (c = '-' ∧ ['-', '-'] <+: rest) := by
      rintro ⟨rfl, later, rfl⟩
      exact hne ⟨rfl, rfl⟩
    rw [spaceHyphens_cons hsingle, pair_infix_cons_iff, triple_infix_cons_iff,
      head?_spaceHyphens, ih, or_iff_right hne, or_iff_right hne']
  | case3 => simp [spaceHyphens]

/-! ### Comments -/

/-- Nothing but blanks comes between hyphens. -/
lemma filter_flatMap_spaceHyphens (cs : List Char) :
    ((spaceHyphens cs).flatMap commentChar).filter (· ≠ ' ') =
      (cs.flatMap commentChar).filter (· ≠ ' ') := by
  induction cs using spaceHyphens.induct with
  | case1 rest ih =>
    rw [spaceHyphens]
    simp only [List.flatMap_cons, List.filter_append, ih]
    rfl
  | case2 c rest hsingle ih =>
    rw [spaceHyphens_cons hsingle]
    simp only [List.flatMap_cons, List.filter_append, ih]
  | case3 => rfl

lemma angle_notMem_flatMap_commentChar (cs : List Char) : '>' ∉ cs.flatMap commentChar := by
  intro h
  obtain ⟨c, -, hc⟩ := List.mem_flatMap.mp h
  rw [commentChar] at hc
  split_ifs at hc with hangle
  · exact absurd hc (by decide)
  · exact hangle (List.mem_singleton.mp hc).symm

/-- **The end of a comment**: between the marks of a comment, and the blanks next to them, its
text stands with closing angle brackets escaped and with some blanks more. So the only closing
angle bracket of the comment is its last character. Two hyphens stand side by side between the
marks if and only if three of them do in the text. -/
theorem comment_ends (s : String) :
    ∃ inside, comment s = "<!-- " ++ inside ++ " -->" ∧
      inside.toList.filter (· ≠ ' ') = (s.toList.flatMap commentChar).filter (· ≠ ' ') ∧
      '>' ∉ inside.toList ∧ '>' ∉ (comment s).toList.dropLast ∧
      ("--".toList <:+: inside.toList ↔ "---".toList <:+: s.toList) := by
  let body := (spaceHyphens s.toList).flatMap commentChar
  have hbody : (String.ofList body).toList = body := String.toList_ofList
  have hangle : '>' ∉ body := angle_notMem_flatMap_commentChar _
  have htext : (comment s).toList = "<!-- ".toList ++ body ++ " --".toList ++ ['>'] := by
    simp [comment, body]
  refine ⟨String.ofList body, rfl, ?_⟩
  rw [htext, List.dropLast_concat, hbody]
  refine ⟨filter_flatMap_spaceHyphens s.toList, hangle, ?_, ?_⟩
  · simp only [List.mem_append, not_or]
    exact ⟨⟨by decide, hangle⟩, by decide⟩
  · exact (pair_infix_flatMap_commentChar_iff _).trans (pair_infix_spaceHyphens_iff _)

/-- Three hyphens in the tag of an element that is not known: two of them are left side by side
in the comment. -/
theorem not_comment_ends :
    comment "unknown tag: x---y" = "<!-- unknown tag: x- --y -->" ∧
      ¬ ∃ inside, comment "unknown tag: x---y" = "<!-- " ++ inside ++ " -->" ∧
        '>' ∉ inside.toList ∧ ¬ "--".toList <:+: inside.toList := by
  have hcomment : comment "unknown tag: x---y" = "<!-- unknown tag: x- --y -->" := by decide
  refine ⟨hcomment, ?_⟩
  rintro ⟨inside, hinside, -, hpair⟩
  have hmarks : "<!-- unknown tag: x- --y -->" =
      "<!-- " ++ "unknown tag: x- --y" ++ " -->" := rfl
  rw [hcomment, hmarks, String.append_left_inj, String.append_right_inj] at hinside
  rw [← hinside] at hpair
  exact hpair ⟨"unknown tag: x- ".toList, "y".toList, rfl⟩

end Html

end PageTree
