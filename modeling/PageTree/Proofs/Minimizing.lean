/-
Texts with their blanks minimized.

Two passes and the trimming of the ends come to one pass that decides on a run of blanks
when it comes to the next character. A pass over single spaces sees the character before
a space as the last one it has written, and the one after it ahead of it, and these two
are what the runs of blanks separate; the spaces that no such character follows are at
the end, and those that none precedes at the start, where they are trimmed.

So a run of blanks between two characters becomes one space or nothing, and which of the
two depends on these two characters alone. What is before a character that is no blank
and what is after it are minimized on their own, and the text is known by its other
characters and by whether blanks separate them.

* `solid`: the characters of a text that are no blanks;
* `minimizeFrom`, `minimizeChars_eq`: **one pass**, to which the two passes come;
* `minimizeFrom_append_cons`: the text before a character and the text after it;
* `Consecutive`: two of them that follow each other, with the blanks between them;
* `Respaced`: texts that differ in their runs of blanks alone;
* `minimize_normal_form`: **the normal form**.
-/
import Mathlib.Data.List.Infix
import Mathlib.Tactic.Common
import PageTree.Cleanup
import PageTree.Proofs.Characters

namespace PageTree

namespace Cleanup

open Text (isAsciiBlank)

variable {as bs blanks cs : List Char} {c d : Char} {last : Option Char} {blank : Bool}

/-! ### Characters and blanks -/

/-- Whether a text is nothing but blanks. -/
def IsBlankRun (cs : List Char) : Prop := ∀ c ∈ cs, isAsciiBlank c = true

/-- The characters of a text that are no blanks, in order. -/
def solid (cs : List Char) : List Char := cs.filter (!isAsciiBlank ·)

lemma solid_append (as bs : List Char) : solid (as ++ bs) = solid as ++ solid bs :=
  List.filter_append as bs

lemma solid_cons (h : isAsciiBlank c = false) (cs : List Char) : solid (c :: cs) = c :: solid cs :=
  List.filter_cons_of_pos (by simp [h])

lemma solid_cons_of_blank (h : isAsciiBlank c = true) (cs : List Char) :
    solid (c :: cs) = solid cs :=
  List.filter_cons_of_neg (by simp [h])

lemma solid_eq_nil_iff : solid cs = [] ↔ IsBlankRun cs := by
  simp [solid, IsBlankRun]

/-! ### One pass -/

/-- What a run of blanks leaves in front of the next character that is no blank: a space,
unless this is dropped or no character is before it. -/
def before (last : Option Char) (blank : Bool) (c : Char) : List Char :=
  if blank ∧ last ≠ none ∧ isDropped last (some c) = false then [' '] else []

/-- The text of some characters with their blanks minimized; `last` is the last
character before them that is no blank, and `blank` tells whether blanks came
after it. -/
def minimizeFrom (last : Option Char) (blank : Bool) : List Char → List Char
  | [] => []
  | c :: rest =>
    if isAsciiBlank c then minimizeFrom last true rest
    else before last blank c ++ c :: minimizeFrom (some c) false rest

/-- Nothing is left at the start of a text. -/
lemma before_none (blank : Bool) (c : Char) : before none blank c = [] := if_neg (by simp)

lemma isBlankRun_before (last : Option Char) (blank : Bool) (c : Char) :
    IsBlankRun (before last blank c) := by
  rw [before]
  split <;> simp [IsBlankRun, isAsciiBlank]

lemma minimizeFrom_blank (h : isAsciiBlank c = true) (cs : List Char) :
    minimizeFrom last blank (c :: cs) = minimizeFrom last true cs :=
  if_pos h

lemma minimizeFrom_cons (h : isAsciiBlank c = false) (cs : List Char) :
    minimizeFrom last blank (c :: cs) =
      before last blank c ++ c :: minimizeFrom (some c) false cs :=
  if_neg (by simp [h])

/-! ### Two passes -/

/-- The space that a run of blanks has left in front of the text ahead, if there was
one. -/
def pending (blank : Bool) : List Char := if blank then [' '] else []

lemma isBlankRun_pending (blank : Bool) : IsBlankRun (pending blank) := by
  cases blank <;> simp [pending, IsBlankRun, isAsciiBlank]

/-- A blank only leaves a space pending. -/
lemma pending_collapse_blank (h : isAsciiBlank c = true) (blank : Bool) (cs : List Char) :
    pending blank ++ collapse blank (c :: cs) = pending true ++ collapse true cs := by
  cases blank <;> simp [pending, collapse, h]

lemma collapse_cons (h : isAsciiBlank c = false) (blank : Bool) (cs : List Char) :
    collapse blank (c :: cs) = c :: collapse false cs := by
  simp [collapse, h]

/-- What the second pass writes for some characters; `last` is the last one that it has
written before. -/
def kept (last : Option Char) : List Char → List Char
  | [] => []
  | c :: rest =>
    if c = ' ' ∧ isDropped last rest.head? then kept last rest else c :: kept (some c) rest

/-- The second pass looks back at the last character alone. -/
lemma dropSpaces_eq (written cs : List Char) :
    dropSpaces written cs = written.reverse ++ kept written.head? cs := by
  induction cs generalizing written with
  | nil => simp [dropSpaces, kept]
  | cons c cs ih =>
    rw [dropSpaces, kept]
    split
    · exact ih written
    · rw [ih, List.reverse_cons, List.append_assoc]
      rfl

lemma kept_cons (h : isAsciiBlank c = false) (last : Option Char) (cs : List Char) :
    kept last (c :: cs) = c :: kept (some c) cs := by
  have hne : c ≠ ' ' := by
    rintro rfl
    exact absurd h (by decide)
  rw [kept, if_neg (by simp [hne])]

/-- A pending space and the next character, behind the last one that was written. -/
lemma kept_pending_cons (hd : isAsciiBlank d = false) (c : Char) (blank : Bool) (cs : List Char) :
    kept (some c) (pending blank ++ d :: cs) =
      before (some c) blank d ++ d :: kept (some d) cs := by
  cases blank with
  | false => exact kept_cons hd _ _
  | true =>
    rw [pending, if_pos rfl, List.singleton_append, kept, List.head?_cons, before]
    cases hdropped : isDropped (some c) (some d) with
    | true =>
      rw [if_pos ⟨rfl, rfl⟩, if_neg (by simp), kept_cons hd]
      rfl
    | false =>
      rw [if_neg (by simp), if_pos (by simp), kept_cons hd]
      rfl

/-- At the start of a text, a pending space may stay; it is blank. -/
lemma exists_kept_pending_cons (hd : isAsciiBlank d = false) (blank : Bool) (cs : List Char) :
    ∃ blanks, IsBlankRun blanks ∧
      kept none (pending blank ++ d :: cs) = blanks ++ d :: kept (some d) cs := by
  cases blank with
  | false => exact ⟨[], by simp [IsBlankRun], kept_cons hd _ _⟩
  | true =>
    rw [pending, if_pos rfl, List.singleton_append, kept]
    split
    · exact ⟨[], by simp [IsBlankRun], kept_cons hd _ _⟩
    · exact ⟨[' '], isBlankRun_pending true, by rw [kept_cons hd]; rfl⟩

/-- **Behind a character**, the two passes and the trimming of the end come to one
pass. -/
lemma rdropWhile_kept (c : Char) (blank : Bool) (cs : List Char) :
    (kept (some c) (pending blank ++ collapse blank cs)).rdropWhile isAsciiBlank =
      minimizeFrom (some c) blank cs := by
  induction cs generalizing c blank with
  | nil =>
    -- a space that no character follows is kept by the second pass, and trimmed
    cases blank <;> rfl
  | cons d cs ih =>
    cases hd : isAsciiBlank d with
    | true => rw [pending_collapse_blank hd, ih, minimizeFrom_blank hd]
    | false =>
      have hrest : (kept (some d) (collapse false cs)).rdropWhile isAsciiBlank =
          minimizeFrom (some d) false cs := ih d false
      rw [collapse_cons hd, kept_pending_cons hd, Text.rdropWhile_append_cons hd, hrest,
        minimizeFrom_cons hd]

/-- **At the start of a text**, the two passes and the trimming of both ends come to one
pass. -/
lemma trimEnds_kept (blank : Bool) (cs : List Char) :
    Text.trimEnds isAsciiBlank (kept none (pending blank ++ collapse blank cs)) =
      minimizeFrom none blank cs := by
  induction cs generalizing blank with
  | nil => cases blank <;> rfl
  | cons d cs ih =>
    cases hd : isAsciiBlank d with
    | true => rw [pending_collapse_blank hd, ih, minimizeFrom_blank hd]
    | false =>
      obtain ⟨blanks, hblanks, hkept⟩ := exists_kept_pending_cons hd blank (collapse false cs)
      have hrest : (kept (some d) (collapse false cs)).rdropWhile isAsciiBlank =
          minimizeFrom (some d) false cs := rdropWhile_kept d false cs
      rw [collapse_cons hd, hkept, Text.trimEnds_append_cons hblanks hd, hrest,
        minimizeFrom_cons hd, before_none, List.nil_append]

/-- **Two passes come to one**: blanks are collapsed, spaces are dropped and the ends are
trimmed as if each run of blanks was decided on at the next character. -/
theorem minimizeChars_eq (cs : List Char) : minimizeChars cs = minimizeFrom none false cs := by
  rw [minimizeChars, dropSpaces_eq]
  exact trimEnds_kept false cs

/-! ### One character at a time -/

/-- **What is before a character and what is after it** are minimized on their own. -/
theorem minimizeFrom_append_cons (h : isAsciiBlank c = false) (as bs : List Char) :
    minimizeFrom last blank (as ++ c :: bs) =
      minimizeFrom last blank (as ++ [c]) ++ minimizeFrom (some c) false bs := by
  induction as generalizing last blank with
  | nil => simp [minimizeFrom_cons h, minimizeFrom]
  | cons a as ih =>
    rw [List.cons_append, List.cons_append]
    cases ha : isAsciiBlank a with
    | true => rw [minimizeFrom_blank ha, minimizeFrom_blank ha, ih]
    | false =>
      rw [minimizeFrom_cons ha, minimizeFrom_cons ha, ih, List.append_assoc, List.cons_append]

/-- Only blanks are left out or changed. -/
lemma solid_minimizeFrom (last : Option Char) (blank : Bool) (cs : List Char) :
    solid (minimizeFrom last blank cs) = solid cs := by
  induction cs generalizing last blank with
  | nil => rfl
  | cons c cs ih =>
    cases hc : isAsciiBlank c with
    | true => rw [minimizeFrom_blank hc, ih, solid_cons_of_blank hc]
    | false =>
      rw [minimizeFrom_cons hc, solid_append, solid_eq_nil_iff.mpr (isBlankRun_before _ _ _),
        solid_cons hc, solid_cons hc, ih]
      rfl

/-- A character that is no blank stays at the end. -/
lemma exists_minimizeFrom_concat (h : isAsciiBlank c = false) (last : Option Char) (blank : Bool)
    (as : List Char) :
    ∃ as', minimizeFrom last blank (as ++ [c]) = as' ++ [c] ∧ solid as' = solid as := by
  have hend : ∃ as', minimizeFrom last blank (as ++ [c]) = as' ++ [c] := by
    induction as generalizing last blank with
    | nil => exact ⟨before last blank c, by rw [List.nil_append, minimizeFrom_cons h]; rfl⟩
    | cons a as ih =>
      rw [List.cons_append]
      cases ha : isAsciiBlank a with
      | true =>
        rw [minimizeFrom_blank ha]
        exact ih last true
      | false =>
        obtain ⟨as', has⟩ := ih (some a) false
        exact ⟨before last blank a ++ a :: as', by rw [minimizeFrom_cons ha, has]; simp⟩
  obtain ⟨as', has⟩ := hend
  have hsolid := congrArg solid has
  rw [solid_minimizeFrom, solid_append, solid_append] at hsolid
  exact ⟨as', has, (List.append_cancel_right hsolid).symm⟩

/-- A run of blanks in front of a character that is no blank. -/
lemma minimizeFrom_blanks (hblanks : IsBlankRun blanks) (cs : List Char) :
    minimizeFrom last blank (blanks ++ cs) = minimizeFrom last (blank || !blanks.isEmpty) cs := by
  induction blanks generalizing blank with
  | nil => simp
  | cons b blanks ih =>
    rw [IsBlankRun, List.forall_mem_cons] at hblanks
    rw [List.cons_append, minimizeFrom_blank hblanks.1, ih hblanks.2]
    simp

/-! ### The normal form -/

/-- What is left between two characters that stand with some blanks between them: a
space if there are blanks, but none before a closing angle bracket, nor between two
angle brackets that point at each other. -/
def spacing (c : Char) (blanks : List Char) (d : Char) : List Char :=
  if blanks ≠ [] ∧ d ≠ '>' ∧ ¬ (c = '>' ∧ d = '<') then [' '] else []

/-- Whether two characters that are no blanks follow each other in a text, with some
blanks between them and a number of characters before them that are no blanks. -/
def Consecutive (cs : List Char) (n : ℕ) (c : Char) (blanks : List Char) (d : Char) : Prop :=
  ∃ front rest, cs = front ++ c :: (blanks ++ d :: rest) ∧ (solid front).length = n ∧
    isAsciiBlank c = false ∧ IsBlankRun blanks ∧ isAsciiBlank d = false

lemma before_some (c d : Char) (blanks : List Char) :
    before (some c) (!blanks.isEmpty) d = spacing c blanks d := by
  have hdropped : isDropped (some c) (some d) = false ↔ d ≠ '>' ∧ ¬ (c = '>' ∧ d = '<') := by
    simp [isDropped, not_and, imp_not_comm]
  rw [before, spacing]
  exact if_congr (by simp [hdropped]) rfl rfl

/-- Two characters that follow each other do so in the minimized text. -/
lemma Consecutive.minimizeChars {n : ℕ} (h : Consecutive cs n c blanks d) :
    Consecutive (minimizeChars cs) n c (spacing c blanks d) d := by
  obtain ⟨front, rest, rfl, hn, hc, hblanks, hd⟩ := h
  obtain ⟨front', hfront, hsolid⟩ := exists_minimizeFrom_concat hc none false front
  refine ⟨front', minimizeFrom (some d) false rest, ?_, hsolid ▸ hn, hc, ?_, hd⟩
  · rw [minimizeChars_eq, minimizeFrom_append_cons hc, hfront, minimizeFrom_blanks hblanks,
      minimizeFrom_cons hd, Bool.false_or, before_some]
    simp
  · rw [← before_some]
    exact isBlankRun_before _ _ _

/-- Texts that differ in the kind and the length of their runs of blanks alone. -/
inductive Respaced : List Char → List Char → Prop
  | nil : Respaced [] []
  | cons (c : Char) {as bs : List Char} (h : Respaced as bs) : Respaced (c :: as) (c :: bs)
  | blanks {v w : List Char} (hv : IsBlankRun v) (hw : IsBlankRun w) (hv' : v ≠ []) (hw' : w ≠ [])
    {as bs : List Char} (h : Respaced as bs) : Respaced (v ++ as) (w ++ bs)

/-- Texts that differ in their runs of blanks are minimized to one text. -/
lemma Respaced.minimizeFrom_eq (h : Respaced as bs) (last : Option Char) (blank : Bool) :
    minimizeFrom last blank as = minimizeFrom last blank bs := by
  induction h generalizing last blank with
  | nil => rfl
  | cons c _ ih =>
    cases hc : isAsciiBlank c with
    | true => rw [minimizeFrom_blank hc, minimizeFrom_blank hc, ih]
    | false => rw [minimizeFrom_cons hc, minimizeFrom_cons hc, ih]
  | blanks hv hw hv' hw' _ ih =>
    rw [minimizeFrom_blanks hv, minimizeFrom_blanks hw, List.isEmpty_eq_false_iff.mpr hv',
      List.isEmpty_eq_false_iff.mpr hw', ih]

/-- A minimized text stays as it is. -/
lemma minimizeFrom_minimizeFrom (last : Option Char) (blank : Bool) (cs : List Char) :
    minimizeFrom last false (minimizeFrom last blank cs) = minimizeFrom last blank cs := by
  induction cs generalizing last blank with
  | nil => rfl
  | cons c cs ih =>
    cases hc : isAsciiBlank c with
    | true => rw [minimizeFrom_blank hc, ih]
    | false =>
      have hbefore : before last (!(before last blank c).isEmpty) c = before last blank c := by
        by_cases h : blank ∧ last ≠ none ∧ isDropped last (some c) = false
        · rw [before, before, if_pos h, if_pos ⟨rfl, h.2⟩]
        · rw [before, before, if_neg h, if_neg (by simp)]
      rw [minimizeFrom_cons hc, minimizeFrom_blanks (isBlankRun_before _ _ _), minimizeFrom_cons hc,
        ih, Bool.false_or, hbefore]

/-- A minimized text starts with no blank. -/
lemma ne_blank_of_head?_minimizeFrom (h : (minimizeFrom none blank cs).head? = some c) :
    isAsciiBlank c = false := by
  induction cs generalizing blank with
  | nil => simp [minimizeFrom] at h
  | cons d cs ih =>
    cases hd : isAsciiBlank d with
    | true =>
      rw [minimizeFrom_blank hd] at h
      exact ih h
    | false =>
      rw [minimizeFrom_cons hd, before_none] at h
      obtain rfl := Option.some.inj h
      exact hd

/-- A minimized text ends with no blank. -/
lemma ne_blank_of_getLast?_minimizeFrom (h : (minimizeFrom last blank cs).getLast? = some c) :
    isAsciiBlank c = false := by
  induction cs generalizing last blank with
  | nil => simp [minimizeFrom] at h
  | cons d cs ih =>
    cases hd : isAsciiBlank d with
    | true =>
      rw [minimizeFrom_blank hd] at h
      exact ih h
    | false =>
      rw [minimizeFrom_cons hd, List.getLast?_append_cons, List.getLast?_cons] at h
      cases hend : (minimizeFrom (some d) false cs).getLast? with
      | none =>
        rw [hend] at h
        obtain rfl := Option.some.inj h
        exact hd
      | some e =>
        rw [hend] at h
        obtain rfl := Option.some.inj h
        exact ih hend

/-- **The normal form** of a text: all its characters that are no blanks, in order, with
a space between two that follow each other where there are blanks and no angle bracket
makes them superfluous, and no blank at either end. So a minimized text stays as it is,
and texts that differ in their runs of blanks alone are minimized to one text. -/
theorem minimize_normal_form (html : String) :
    solid (minimize html).toList = solid html.toList ∧
      (∀ n c blanks d, Consecutive html.toList n c blanks d →
        Consecutive (minimize html).toList n c (spacing c blanks d) d) ∧
      (∀ c, (minimize html).toList.head? = some c ∨ (minimize html).toList.getLast? = some c →
        isAsciiBlank c = false) ∧
      minimize (minimize html) = minimize html ∧
      ∀ other : String, Respaced html.toList other.toList → minimize other = minimize html := by
  simp only [minimize, String.toList_ofList]
  refine ⟨?_, fun n c blanks d h => h.minimizeChars, ?_, ?_, ?_⟩
  · rw [minimizeChars_eq, solid_minimizeFrom]
  · rw [minimizeChars_eq]
    rintro c (h | h)
    · exact ne_blank_of_head?_minimizeFrom h
    · exact ne_blank_of_getLast?_minimizeFrom h
  · rw [minimizeChars_eq, minimizeChars_eq, minimizeFrom_minimizeFrom]
  · intro other h
    rw [minimizeChars_eq, minimizeChars_eq, h.minimizeFrom_eq none false]

/-- Blanks before an angle bracket, between two of them, after one, and at the ends. -/
example : minimize " <b>a</b > \n <i> b</i>\t" = "<b>a</b><i> b</i>" := by decide +kernel

end Cleanup

end PageTree
