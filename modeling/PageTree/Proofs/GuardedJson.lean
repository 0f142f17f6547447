/-
Guarded JSON.

In the JSON of a script a slash after `<` and a percent sign after an opening brace
are written as escapes. Outside of strings neither pair is JSON, with the escape or
without it, and in a string the escape stands for the character. So each part of the
reader finds in a guarded text what it finds in the text itself, and leaves the
guarded rest.

* `LinkedData.not_pair_infix_guard`: **neither pair** is left in a guarded text;
* `Json.GuardBlind`: readers that do not see the difference, with `bind`, `map` and
  `of_head`;
* `Json.guardBlind_readString`, `Json.guardBlind_readNumber`,
  `Json.guardBlind_readToken`: the parts of the reader;
* `Json.tokens?_guard`: **guarded text** has the tokens of the text itself.
-/
import Mathlib.Data.Nat.Init
import Mathlib.Tactic.Common
import PageTree.Json.Reader
import PageTree.LinkedData
import PageTree.Proofs.Replacing

namespace PageTree

open LinkedData

variable {cs rest : List Char} {c : Char} {α β : Type}

/-! ### Guarded text -/

namespace LinkedData

/-- What comes after a character that starts none of the guarded pairs is guarded on its
own. -/
lemma guard_cons (h : c ≠ '<' ∧ c ≠ '\x7b') (cs : List Char) :
    guard (c :: cs) = c :: guard cs := by
  rw [guard]
  · exact fun _ hc => absurd hc h.1
  · exact fun _ hc => absurd hc h.2

/-- A character starts one of the guarded pairs, or what comes after it is guarded on its
own. -/
lemma guard_cons_or (c : Char) (cs : List Char) :
    guard (c :: cs) = c :: guard cs ∨ (∃ cs', c = '<' ∧ cs = '/' :: cs') ∨
      ∃ cs', c = '\x7b' ∧ cs = '%' :: cs' := by
  rw [guard.eq_def]
  split
  · next cs' heq =>
    cases heq
    exact .inr (.inl ⟨cs', rfl, rfl⟩)
  · next cs' heq =>
    cases heq
    exact .inr (.inr ⟨cs', rfl, rfl⟩)
  · next heq =>
    cases heq
    exact .inl rfl
  · next heq => cases heq

/-- The first character stays. -/
lemma exists_guard_cons (c : Char) (cs : List Char) : ∃ rest, guard (c :: cs) = c :: rest := by
  rcases guard_cons_or c cs with h | ⟨cs', rfl, rfl⟩ | ⟨cs', rfl, rfl⟩
  · exact ⟨_, h⟩
  · exact ⟨_, rfl⟩
  · exact ⟨_, rfl⟩

lemma head?_guard (cs : List Char) : (guard cs).head? = cs.head? := by
  cases cs with
  | nil => rfl
  | cons c cs =>
    obtain ⟨rest, h⟩ := exists_guard_cons c cs
    rw [h, List.head?_cons, List.head?_cons]

lemma guard_eq_cons_iff (h : c ≠ '<' ∧ c ≠ '\x7b') :
    guard cs = c :: rest ↔ ∃ cs', cs = c :: cs' ∧ guard cs' = rest := by
  constructor
  · intro heq
    cases cs with
    | nil => cases heq
    | cons d cs =>
      obtain ⟨tail, htail⟩ := exists_guard_cons d cs
      obtain rfl : d = c := by
        rw [htail] at heq
        exact (List.cons.inj heq).1
      rw [guard_cons h] at heq
      exact ⟨cs, rfl, (List.cons.inj heq).2⟩
  · rintro ⟨cs', rfl, rfl⟩
    exact guard_cons h cs'

/-- The characters at the front of a guarded text, up to one that starts a guarded
pair. -/
lemma span_guard {p : Char → Bool} (h : p '<' = false) (h' : p '\x7b' = false)
    (cs : List Char) :
    (guard cs).takeWhile p = cs.takeWhile p ∧
      (guard cs).dropWhile p = guard (cs.dropWhile p) := by
  induction cs with
  | nil => exact ⟨rfl, rfl⟩
  | cons c cs ih =>
    by_cases hc : p c = true
    · have hne : c ≠ '<' := fun heq => by simp [heq, h] at hc
      have hne' : c ≠ '\x7b' := fun heq => by simp [heq, h'] at hc
      simp [guard_cons ⟨hne, hne'⟩, hc, ih]
    · obtain ⟨rest, hrest⟩ := exists_guard_cons c cs
      simp [hrest, hc]

/-- **Neither pair** is left in a guarded text. -/
theorem not_pair_infix_guard (cs : List Char) :
    ¬ ['<', '/'] <:+: guard cs ∧ ¬ ['\x7b', '%'] <:+: guard cs := by
  fun_induction guard cs with
  | case1 cs ih | case2 cs ih =>
    simp only [Text.pair_infix_cons_iff]
    simpa using ih
  | case3 c cs hslash hpercent ih =>
    simp only [Text.pair_infix_cons_iff, head?_guard, List.head?_eq_some_iff, not_or,
      not_and, not_exists]
    exact ⟨⟨fun hc rest => hslash rest hc, ih.1⟩, fun hc rest => hpercent rest hc, ih.2⟩
  | case4 => simp

end LinkedData

namespace Json

/-! ### Readers -/

/-- Whether a reader takes characters off the front of a text, and finds the same in a
guarded text, with the rest of it guarded. -/
structure GuardBlind (read : List Char → Option (α × List Char)) : Prop where
  guard_eq : ∀ cs, read (guard cs) = (read cs).map (Prod.map id guard)
  length_le : ∀ {cs a rest}, read cs = some (a, rest) → rest.length ≤ cs.length

namespace GuardBlind

variable {read : List Char → Option (α × List Char)} {next : α → List Char → Option (β × List Char)}

lemma bind (h : GuardBlind read) (hnext : ∀ a, GuardBlind (next a)) :
    GuardBlind fun cs => (read cs).bind fun p => next p.1 p.2 where
  guard_eq cs := by
    rw [h.guard_eq]
    cases read cs with
    | none => rfl
    | some p => exact (hnext p.1).guard_eq p.2
  length_le := by
    intro cs b rest heq
    obtain ⟨⟨a, between⟩, hread, heq⟩ := Option.bind_eq_some_iff.mp heq
    exact Nat.le_trans ((hnext a).length_le heq) (h.length_le hread)

/-- A result that does not look at the text. -/
lemma const (b : Option β) : GuardBlind fun cs => b.map (·, cs) where
  guard_eq cs := by cases b <;> rfl
  length_le := by
    intro cs b' rest heq
    obtain ⟨b, rfl, heq⟩ := Option.map_eq_some_iff.mp heq
    cases heq
    exact Nat.le_refl _

/-- A reader that looks at the first character: it goes on after some characters, and does
one and the same thing at all the others. -/
lemma of_head {other : List Char → Option (α × List Char)} (heads : List Char)
    (hheads : '<' ∉ heads ∧ '\x7b' ∉ heads)
    (hread : ∀ c ∈ heads, GuardBlind fun cs => read (c :: cs))
    (hother : ∀ cs, (∀ c ∈ heads, cs.head? ≠ some c) → read cs = other cs)
    (h : GuardBlind other) : GuardBlind read := by
  have hcases : ∀ cs, (∃ c ∈ heads, ∃ cs', cs = c :: cs') ∨ ∀ c ∈ heads, cs.head? ≠ some c := by
    intro cs
    rw [or_iff_not_imp_right]
    intro hhead
    push Not at hhead
    obtain ⟨c, hc, hhead⟩ := hhead
    exact ⟨c, hc, List.head?_eq_some_iff.mp hhead⟩
  constructor
  · intro cs
    rcases hcases cs with ⟨c, hc, cs, rfl⟩ | hhead
    · rw [guard_cons ⟨fun heq => hheads.1 (heq ▸ hc), fun heq => hheads.2 (heq ▸ hc)⟩]
      exact (hread c hc).guard_eq cs
    · rw [hother cs hhead, hother (guard cs) (by rwa [head?_guard]), h.guard_eq]
  · intro cs a rest heq
    rcases hcases cs with ⟨c, hc, cs, rfl⟩ | hhead
    · exact Nat.le_succ_of_le ((hread c hc).length_le heq)
    · rw [hother cs hhead] at heq
      exact h.length_le heq

/-- A result is changed. -/
lemma map (h : GuardBlind read) (f : α → β) :
    GuardBlind fun cs => (read cs).map fun p => (f p.1, p.2) where
  guard_eq cs := by
    rw [h.guard_eq, Option.map_map, Option.map_map]
    rfl
  length_le := by
    intro cs b rest heq
    obtain ⟨⟨a, rest⟩, hread, heq⟩ := Option.map_eq_some_iff.mp heq
    cases heq
    exact h.length_le hread

/-- No result. -/
lemma none : GuardBlind fun _ => (Option.none : Option (α × List Char)) where
  guard_eq _ := rfl
  length_le h := by cases h

end GuardBlind

/-! ### Strings -/

/-- Four hexadecimal digits at the front of a text. -/
def readHex : List Char → Option (ℕ × List Char)
  | a :: b :: c :: d :: rest => (hex4? a b c d).map (·, rest)
  | _ => none

/-- The other half of a surrogate pair at the front of a text. -/
def readLow : List Char → Option (ℕ × List Char)
  | '\\' :: 'u' :: rest => readHex rest
  | _ => none

/-- A string goes on after a `\u` with four digits, or with two halves of a pair. -/
lemma readString_unicode (cs : List Char) :
    readString ('\\' :: 'u' :: cs) =
      (readHex cs).bind fun p =>
        if p.1 < 0xD800 ∨ 0xDFFF < p.1 then
          (readString p.2).map fun s => (Char.ofNat p.1 :: s.1, s.2)
        else if 0xDC00 ≤ p.1 then none
        else
          (readLow p.2).bind fun q =>
            if q.1 < 0xDC00 ∨ 0xDFFF < q.1 then none
            else (readString q.2).map fun s => (joinSurrogates p.1 q.1 :: s.1, s.2) := by
  match cs with
  | [] | [_] | [_, _] | [_, _, _] => simp [readString, readHex, unescape?]
  | a :: b :: c :: d :: rest =>
    rw [readString]
    cases hhex : hex4? a b c d with
    | none => simp [readHex, hhex]
    | some high =>
      simp only [readHex, hhex, Option.map_some, Option.bind_some]
      split_ifs
      · rfl
      · rfl
      · split
        · next e f g h rest =>
          rw [readLow, readHex]
          cases hex4? e f g h <;> rfl
        · next hlow =>
          have hnone : readLow rest = none := by
            rw [readLow.eq_def]
            split
            · next r =>
              rw [readHex.eq_def]
              split
              · exact absurd rfl (hlow _ _ _ _ _)
              · rfl
            · rfl
          rw [hnone]
          rfl

lemma ne_of_hex4? {a b c d : Char} {n : ℕ} (h : hex4? a b c d = some n) :
    ∀ x ∈ [a, b, c, d], x ≠ '<' ∧ x ≠ '\x7b' := by
  rw [hex4?, Digits.numberIn?] at h
  split_ifs at h with hdigits
  intro x hx
  have hdigit := List.all_eq_true.mp hdigits.2 x hx
  constructor
  · rintro rfl
    exact absurd hdigit (by decide)
  · rintro rfl
    exact absurd hdigit (by decide)

lemma readHex_eq_some_iff {n : ℕ} :
    readHex cs = some (n, rest) ↔
      ∃ a b c d, cs = a :: b :: c :: d :: rest ∧ hex4? a b c d = some n := by
  rw [readHex.eq_def]
  split
  · next a b c d rest' =>
    constructor
    · intro h
      obtain ⟨n', hhex, heq⟩ := Option.map_eq_some_iff.mp h
      cases heq
      exact ⟨a, b, c, d, rfl, hhex⟩
    · rintro ⟨a', b', c', d', heq, hhex⟩
      cases heq
      rw [hhex]
      rfl
  · next hshort =>
    constructor
    · intro h
      cases h
    · rintro ⟨a, b, c, d, rfl, -⟩
      exact absurd rfl (hshort a b c d rest)

lemma guardBlind_readHex : GuardBlind readHex where
  guard_eq cs := by
    refine Option.ext fun ⟨n, rest⟩ => ?_
    rw [readHex_eq_some_iff, Option.map_eq_some_iff]
    constructor
    · rintro ⟨a, b, c, d, heq, hhex⟩
      have hne := ne_of_hex4? hhex
      simp only [List.forall_mem_cons] at hne
      obtain ⟨ha, hb, hc, hd, -⟩ := hne
      obtain ⟨_, rfl, hafter⟩ := (guard_eq_cons_iff ha).mp heq
      obtain ⟨_, rfl, hafter'⟩ := (guard_eq_cons_iff hb).mp hafter
      obtain ⟨_, rfl, hafter''⟩ := (guard_eq_cons_iff hc).mp hafter'
      obtain ⟨cs, rfl, rfl⟩ := (guard_eq_cons_iff hd).mp hafter''
      exact ⟨(n, cs), readHex_eq_some_iff.mpr ⟨a, b, c, d, rfl, hhex⟩, rfl⟩
    · rintro ⟨⟨n', rest'⟩, hread, heq⟩
      cases heq
      obtain ⟨a, b, c, d, rfl, hhex⟩ := readHex_eq_some_iff.mp hread
      have hne := ne_of_hex4? hhex
      simp only [List.forall_mem_cons] at hne
      obtain ⟨ha, hb, hc, hd, -⟩ := hne
      refine ⟨a, b, c, d, ?_, hhex⟩
      rw [guard_cons ha, guard_cons hb, guard_cons hc, guard_cons hd]
  length_le h := by
    obtain ⟨a, b, c, d, rfl, -⟩ := readHex_eq_some_iff.mp h
    simp
    omega

lemma guardBlind_readLow : GuardBlind readLow := by
  refine .of_head ['\\'] (by decide) (fun c hc => ?_) (fun cs h => ?_) .none
  · obtain rfl := List.mem_singleton.mp hc
    refine .of_head ['u'] (by decide) (fun c hc => ?_) (fun cs h => ?_) .none
    · obtain rfl := List.mem_singleton.mp hc
      exact guardBlind_readHex
    · rw [readLow]
      rintro rest heq
      cases heq
      exact h 'u' (by decide) rfl
  · rw [readLow]
    rintro rest rfl
    exact h '\\' (by decide) rfl

lemma readString_escape (h : c ≠ 'u') (cs : List Char) :
    readString ('\\' :: c :: cs) =
      (unescape? c).bind fun d => (readString cs).map fun s => (d :: s.1, s.2) := by
  rw [readString]
  · cases unescape? c <;> rfl
  · intro a b c' d rest heq
    exact absurd heq h

lemma readString_plain (h : c ≠ '"') (h' : c ≠ '\\') (cs : List Char) :
    readString (c :: cs) =
      if c.toNat < 0x20 then none else (readString cs).map fun s => (c :: s.1, s.2) := by
  rw [readString]
  · exact h
  · intro a b c' d rest heq
    exact absurd heq h'
  · intro d rest heq
    exact absurd heq h'

/-- What comes after a string whose characters are changed. -/
lemma exists_of_map_eq_some {s : List Char} {read : Option (List Char × List Char)}
    {f : List Char × List Char → List Char × List Char} (h : read.map f = some (s, rest))
    (hf : ∀ p, (f p).2 = p.2) : ∃ s', read = some (s', rest) := by
  obtain ⟨p, hread, heq⟩ := Option.map_eq_some_iff.mp h
  obtain rfl : p.2 = rest := by rw [← hf p, heq]
  exact ⟨p.1, hread⟩

/-- An escape in a guarded string, if the strings after it are found. -/
lemma readString_guard_escape
    (hrest : ∀ {rest : List Char}, rest.length ≤ cs.length →
      readString (guard rest) = (readString rest).map (Prod.map id guard)) :
    readString ('\\' :: guard (c :: cs)) =
      (readString ('\\' :: c :: cs)).map (Prod.map id guard) := by
  by_cases hu : c = 'u'
  · rw [hu, guard_cons (by decide), readString_unicode, readString_unicode,
      guardBlind_readHex.guard_eq]
    cases hhex : readHex cs with
    | none => rfl
    | some p =>
      have hp : p.2.length ≤ cs.length := guardBlind_readHex.length_le hhex
      simp only [Option.map_some, Option.bind_some, Prod.map_fst, Prod.map_snd, id]
      split_ifs
      · rw [hrest hp]
        cases readString p.2 <;> rfl
      · rfl
      · rw [guardBlind_readLow.guard_eq]
        cases hlow : readLow p.2 with
        | none => rfl
        | some q =>
          have hq : q.2.length ≤ p.2.length := guardBlind_readLow.length_le hlow
          simp only [Option.map_some, Option.bind_some, Prod.map_fst, Prod.map_snd, id]
          split_ifs
          · rfl
          · rw [hrest (Nat.le_trans hq hp)]
            cases readString q.2 <;> rfl
  · rw [readString_escape hu]
    cases hescape : unescape? c with
    | none =>
      obtain ⟨rest, h⟩ := exists_guard_cons c cs
      rw [h, readString_escape hu, hescape]
      rfl
    | some d =>
      have hne : c ≠ '<' ∧ c ≠ '\x7b' := by
        constructor
        · rintro rfl
          cases hescape
        · rintro rfl
          cases hescape
      rw [guard_cons hne, readString_escape hu, hescape, hrest (Nat.le_refl _)]
      cases readString cs <;> rfl

lemma guardBlind_readString : GuardBlind readString where
  guard_eq cs := by
    induction hn : cs.length using Nat.strong_induction_on generalizing cs with
    | _ n ih =>
      have hrest : ∀ {rest : List Char}, rest.length < n →
          readString (guard rest) = (readString rest).map (Prod.map id guard) :=
        fun hlt => ih _ hlt _ rfl
      cases cs with
      | nil => rfl
      | cons c cs =>
        rw [List.length_cons] at hn
        by_cases hquote : c = '"'
        · rw [hquote, guard_cons (by decide), readString, readString]
          rfl
        by_cases hback : c = '\\'
        · rw [hback, guard_cons (by decide)]
          cases cs with
          | nil => rfl
          | cons d cs =>
            rw [List.length_cons] at hn
            exact readString_guard_escape (fun hlt => hrest (by omega))
        rcases guard_cons_or c cs with h | ⟨cs', rfl, rfl⟩ | ⟨cs', rfl, rfl⟩
        · rw [h, readString_plain hquote hback, readString_plain hquote hback, hrest (by omega)]
          split_ifs
          · rfl
          · cases readString cs <;> rfl
        · rw [List.length_cons] at hn
          rw [LinkedData.guard, readString_plain hquote hback, readString_escape (by decide),
            readString_plain hquote hback, readString_plain (by decide) (by decide),
            hrest (by omega)]
          cases readString cs' <;> rfl
        · rw [List.length_cons] at hn
          have hpercent : readString ('\\' :: 'u' :: '0' :: '0' :: '2' :: '5' :: guard cs') =
              (readString (guard cs')).map fun s => ('%' :: s.1, s.2) := by
            rw [readString_unicode]
            rfl
          rw [LinkedData.guard, readString_plain hquote hback, hpercent,
            readString_plain hquote hback, readString_plain (by decide) (by decide),
            hrest (by omega)]
          cases readString cs' <;> rfl
  length_le := by
    intro cs s rest h
    fun_induction readString cs generalizing s rest with
    | case1 | case3 | case5 | case6 | case7 | case9 | case10 | case12 => cases h
    | case2 rest =>
      cases h
      simp
    | case4 _ _ _ _ _ _ _ _ ih | case8 _ _ _ _ _ _ _ _ _ _ _ _ _ _ _ _ ih
    | case11 _ _ _ _ _ ih | case13 _ _ _ _ _ _ ih =>
      obtain ⟨s', hread⟩ := exists_of_map_eq_some h fun _ => rfl
      have hle := ih hread
      simp only [List.length_cons]
      omega

/-! ### Numbers -/

/-- The digits at the front of a text, of which there must be one. -/
def readDigits (cs : List Char) : Option (List Char × List Char) :=
  if (Digits.span cs).1 = [] then none else some (Digits.span cs)

lemma guardBlind_readDigits : GuardBlind readDigits where
  guard_eq cs := by
    obtain ⟨htake, hdrop⟩ := span_guard (p := Char.isDigit) (by decide) (by decide) cs
    by_cases hdigits : cs.takeWhile Char.isDigit = []
    · simp [readDigits, Digits.span, htake, hdigits]
    · simp [readDigits, Digits.span, htake, hdrop, hdigits]
  length_le := by
    intro cs ds rest h
    rw [readDigits] at h
    split_ifs at h
    cases h
    exact (List.dropWhile_sublist _).length_le

/-- The digits of a number before its fraction. -/
def readWhole : List Char → Option (List Char × List Char)
  | '0' :: rest => some (['0'], rest)
  | cs => readDigits cs

/-- The sign of an exponent. -/
def readSign : List Char → Option (Bool × List Char)
  | '-' :: rest => some (true, rest)
  | '+' :: rest => some (false, rest)
  | rest => some (false, rest)

lemma readWhole_of_ne (h : cs.head? ≠ some '0') : readWhole cs = readDigits cs := by
  rw [readWhole]
  rintro rest rfl
  exact h rfl

lemma readNumber_eq (negative : Bool) (cs : List Char) :
    readNumber negative cs =
      (readWhole cs).bind fun p => (readFraction p.2).bind fun q =>
        (readExponent q.2).bind fun e => (literal? negative p.1 q.1 e.1).map (·, e.2) := by
  simp only [Option.map_eq_bind]
  by_cases h : cs.head? = some '0'
  · obtain ⟨rest, rfl⟩ := List.head?_eq_some_iff.mp h
    rfl
  · rw [readWhole_of_ne h, readNumber]
    · by_cases hdigits : (Digits.span cs).1 = []
      · simp [readDigits, hdigits]
      · simp only [readDigits, hdigits, if_false]
        rfl
    · rintro rest rfl
      exact h rfl

lemma readFraction_dot (cs : List Char) :
    readFraction ('.' :: cs) = (readDigits cs).map fun p => (some p.1, p.2) := by
  by_cases hdigits : (Digits.span cs).1 = []
  · simp [readFraction, readDigits, hdigits]
  · simp [readFraction, readDigits, hdigits]

lemma readExponent_cons (h : c = 'e' ∨ c = 'E') (cs : List Char) :
    readExponent (c :: cs) =
      (readSign cs).bind fun p => (readDigits p.2).map fun q =>
        (some (if p.1 then -(Digits.number q.1 : Int) else Digits.number q.1), q.2) := by
  have hdigits : ∀ (negative : Bool) (rest : List Char),
      (if (Digits.span rest).1 = [] then none
        else some (some (if negative then -(Digits.number (Digits.span rest).1 : Int)
          else Digits.number (Digits.span rest).1), (Digits.span rest).2)) =
      (readDigits rest).map fun q =>
        (some (if negative then -(Digits.number q.1 : Int) else Digits.number q.1), q.2) := by
    intro negative rest
    by_cases hnil : (Digits.span rest).1 = []
    · simp [readDigits, hnil]
    · simp [readDigits, hnil]
  rw [readExponent.eq_def]
  simp only [if_pos h]
  split
  · exact hdigits true _
  · exact hdigits false _
  · next hminus hplus =>
    have hsign : readSign cs = some (false, cs) := by rw [readSign] <;> assumption
    rw [hsign]
    exact hdigits false cs

lemma guardBlind_readWhole : GuardBlind readWhole := by
  refine .of_head ['0'] (by decide) (fun c hc => ?_) (fun cs h => ?_) guardBlind_readDigits
  · obtain rfl := List.mem_singleton.mp hc
    exact .const (some ['0'])
  · exact readWhole_of_ne (h '0' (by decide))

lemma guardBlind_readSign : GuardBlind readSign := by
  refine .of_head ['-', '+'] (by decide) (fun c hc => ?_) (fun cs h => ?_) (.const (some false))
  · simp only [List.mem_cons, List.not_mem_nil, or_false] at hc
    rcases hc with rfl | rfl
    · exact .const (some true)
    · exact .const (some false)
  · simp only [List.forall_mem_cons] at h
    rw [readSign]
    · rfl
    · rintro rest rfl
      exact h.1 rfl
    · rintro rest rfl
      exact h.2.1 rfl

lemma guardBlind_readFraction : GuardBlind readFraction := by
  refine .of_head ['.'] (by decide) (fun c hc => ?_) (fun cs h => ?_) (.const (some none))
  · obtain rfl := List.mem_singleton.mp hc
    simp only [readFraction_dot]
    exact guardBlind_readDigits.map some
  · rw [readFraction]
    · rfl
    · rintro rest rfl
      exact h '.' (by decide) rfl

lemma guardBlind_readExponent : GuardBlind readExponent := by
  refine .of_head ['e', 'E'] (by decide) (fun c hc => ?_) (fun cs h => ?_) (.const (some none))
  · simp only [List.mem_cons, List.not_mem_nil, or_false] at hc
    simp only [readExponent_cons hc]
    exact guardBlind_readSign.bind fun negative => guardBlind_readDigits.map fun ds =>
      some (if negative then -(Digits.number ds : Int) else Digits.number ds)
  · cases cs with
    | nil => rfl
    | cons c cs =>
      simp only [List.forall_mem_cons, List.head?_cons, ne_eq, Option.some.injEq] at h
      simp [readExponent, h]

lemma guardBlind_readNumber (negative : Bool) : GuardBlind (readNumber negative) := by
  rw [show readNumber negative = _ from funext (readNumber_eq negative)]
  exact guardBlind_readWhole.bind fun whole => guardBlind_readFraction.bind fun fraction =>
    guardBlind_readExponent.bind fun exponent => .const _

lemma length_readWhole_lt {ds : List Char} (h : readWhole cs = some (ds, rest)) :
    rest.length < cs.length := by
  rw [readWhole.eq_def] at h
  split at h
  · cases h
    exact Nat.lt_succ_self _
  · rw [readDigits] at h
    split_ifs at h with hdigits
    cases h
    have hlen := congrArg List.length
      (List.takeWhile_append_dropWhile (p := Char.isDigit) (l := cs))
    have hpos := List.length_pos_iff.mpr hdigits
    simp only [Digits.span, List.length_append] at hlen hpos ⊢
    omega

/-- A number has a digit. -/
lemma length_readNumber_lt {negative : Bool} {n : Number}
    (h : readNumber negative cs = some (n, rest)) : rest.length < cs.length := by
  rw [readNumber_eq] at h
  obtain ⟨p, hwhole, h⟩ := Option.bind_eq_some_iff.mp h
  obtain ⟨q, hfraction, h⟩ := Option.bind_eq_some_iff.mp h
  obtain ⟨e, hexponent, h⟩ := Option.bind_eq_some_iff.mp h
  obtain ⟨_, -, heq⟩ := Option.map_eq_some_iff.mp h
  cases heq
  have hlt := length_readWhole_lt hwhole
  have hle := guardBlind_readFraction.length_le hfraction
  have hle' := guardBlind_readExponent.length_le hexponent
  omega

/-- No number starts with anything but a digit. -/
lemma readNumber_eq_none (h : c.isDigit = false) (negative : Bool) (cs : List Char) :
    readNumber negative (c :: cs) = none := by
  have hhead : (c :: cs).head? ≠ some '0' := by
    rintro heq
    cases heq
    exact absurd h (by decide)
  rw [readNumber_eq, readWhole_of_ne hhead, readDigits, Digits.span,
    List.takeWhile_cons_of_neg (by simp [h]), if_pos rfl]
  rfl

/-! ### Tokens -/

/-- The rest of a word at the front of a text, which is a token. -/
def readWord (t : Token) : List Char → List Char → Option (Token × List Char)
  | [], cs => some (t, cs)
  | _ :: _, [] => none
  | c :: word, d :: cs => if d = c then readWord t word cs else none

lemma guardBlind_readWord (t : Token) {word : List Char} (h : '<' ∉ word ∧ '\x7b' ∉ word) :
    GuardBlind (readWord t word) := by
  induction word with
  | nil => exact .const (some t)
  | cons c word ih =>
    refine .of_head [c] (by simp_all) (fun d hd => ?_) (fun cs hhead => ?_) .none
    · obtain rfl := List.mem_singleton.mp hd
      simp only [readWord, if_true]
      exact ih (by simp_all)
    · cases cs with
      | nil => rfl
      | cons d cs =>
        rw [readWord, if_neg]
        rintro rfl
        exact hhead d (by simp) rfl

lemma eq_of_readWord {t t' : Token} {word : List Char}
    (h : readWord t word cs = some (t', rest)) : t' = t ∧ cs = word ++ rest := by
  fun_induction readWord t word cs with
  | case1 => simp_all
  | case2 | case4 => cases h
  | case3 word c cs ih =>
    obtain ⟨rfl, rfl⟩ := ih h
    exact ⟨rfl, rfl⟩

/-- The tokens of a single character. -/
def punctuation : List (Char × Token) :=
  [('[', .openArray), (']', .closeArray), ('\x7d', .closeObject), (',', .comma), (':', .colon)]

/-- The words that are tokens, with their first letters. -/
def words : List (Char × List Char × Token) :=
  [('n', ['u', 'l', 'l'], .null), ('t', ['r', 'u', 'e'], .bool true),
    ('f', ['a', 'l', 's', 'e'], .bool false)]

lemma readToken_word {w : Char × List Char × Token} (hw : w ∈ words) (cs : List Char) :
    readToken (w.1 :: cs) = readWord w.2.2 w.2.1 cs := by
  have hletter : w.1.isDigit = false := by
    revert w
    decide
  have hnumber := readNumber_eq_none hletter false cs
  simp only [words, List.mem_cons, List.not_mem_nil, or_false] at hw
  cases hword : readWord w.2.2 w.2.1 cs with
  | some p =>
    obtain ⟨t, rest⟩ := p
    obtain ⟨rfl, rfl⟩ := eq_of_readWord hword
    rcases hw with rfl | rfl | rfl <;> rfl
  | none =>
    rw [readToken.eq_def]
    rcases hw with rfl | rfl | rfl
    · split <;> simp_all [readWord]
    · split <;> simp_all [readWord]
    · split <;> simp_all [readWord]

lemma readToken_number (h : c ∉ ['[', ']', '\x7b', '\x7d', ',', ':', 'n', 't', 'f', '"', '-'])
    (cs : List Char) :
    readToken (c :: cs) = (readNumber false (c :: cs)).map fun p => (.num p.1, p.2) := by
  rw [readToken.eq_def]
  split <;> simp_all

/-- No token starts with a character that is no punctuation, no letter, no quote and no part of
a number. -/
lemma readToken_eq_none (hdigit : c.isDigit = false)
    (h : c ∉ ['[', ']', '\x7b', '\x7d', ',', ':', 'n', 't', 'f', '"', '-']) (cs : List Char) :
    readToken (c :: cs) = none := by
  rw [readToken_number h, readNumber_eq_none hdigit]
  rfl

/-- The token after a character that starts no guarded pair. -/
lemma guardBlind_readToken (h : c ≠ '<' ∧ c ≠ '\x7b') :
    GuardBlind fun cs => readToken (c :: cs) := by
  by_cases hpunct : ∃ p ∈ punctuation, p.1 = c
  · obtain ⟨p, hp, rfl⟩ := hpunct
    have hread : ∀ cs, readToken (p.1 :: cs) = some (p.2, cs) := by
      intro cs
      revert p
      simp [punctuation, readToken]
    simp only [hread]
    exact .const (some p.2)
  by_cases hword : ∃ w ∈ words, w.1 = c
  · obtain ⟨w, hw, rfl⟩ := hword
    simp only [readToken_word hw]
    refine guardBlind_readWord _ ?_
    revert w
    decide
  by_cases hquote : c = '"'
  · rw [hquote]
    exact guardBlind_readString.map fun s => Token.str (String.ofList s)
  by_cases hminus : c = '-'
  · rw [hminus]
    exact (guardBlind_readNumber true).map Token.num
  have hread : ∀ cs, readToken (c :: cs) =
      (readNumber false (c :: cs)).map fun p => (Token.num p.1, p.2) :=
    fun cs => readToken_number (by simp_all [punctuation, words, eq_comm]) cs
  constructor
  · intro cs
    rw [hread, hread, ← guard_cons h, ((guardBlind_readNumber false).map Token.num).guard_eq]
  · intro cs t rest heq
    rw [hread] at heq
    obtain ⟨p, hnumber, heq⟩ := Option.map_eq_some_iff.mp heq
    cases heq
    exact Nat.le_of_lt_succ (length_readNumber_lt hnumber)

/-- A token has a character. -/
lemma length_readToken_lt {t : Token} (h : readToken (c :: cs) = some (t, rest)) :
    rest.length < (c :: cs).length := by
  by_cases hangle : c = '<'
  · rw [hangle, readToken_eq_none (by decide) (by decide)] at h
    cases h
  by_cases hbrace : c = '\x7b'
  · rw [hbrace] at h
    cases h
    exact Nat.lt_succ_self _
  · exact Nat.lt_succ_of_le ((guardBlind_readToken ⟨hangle, hbrace⟩).length_le h)

/-! ### Texts -/

/-- A bound on the tokens that a text cannot reach does not matter. -/
lemma tokensWithin_congr {m n : ℕ} (hm : cs.length < m) (hn : cs.length < n) :
    tokensWithin m cs = tokensWithin n cs := by
  induction m generalizing n cs with
  | zero => exact absurd hm (Nat.not_lt_zero _)
  | succ m ih =>
    obtain ⟨n, rfl⟩ := Nat.exists_eq_add_one.mpr (Nat.zero_lt_of_lt hn)
    rw [tokensWithin, tokensWithin]
    have hblank := (List.dropWhile_sublist isBlank (l := cs)).length_le
    cases hdrop : cs.dropWhile isBlank with
    | nil => rfl
    | cons c rest =>
      simp only
      cases htoken : readToken (c :: rest) with
      | none => rfl
      | some p =>
        have hlt := length_readToken_lt htoken
        rw [hdrop] at hblank
        simp only
        rw [ih (n := n) (by omega) (by omega)]

lemma tokensWithin_eq_none (hblank : isBlank c = false) (h : readToken (c :: cs) = none)
    (bound : ℕ) : tokensWithin bound (c :: cs) = none := by
  cases bound with
  | zero => rfl
  | succ bound =>
    rw [tokensWithin, List.dropWhile_cons_of_neg (by simp [hblank])]
    simp only [h]

/-- The tokens of a guarded text. -/
lemma tokensWithin_guard (bound : ℕ) (cs : List Char) :
    tokensWithin bound (guard cs) = tokensWithin bound cs := by
  induction bound generalizing cs with
  | zero => rfl
  | succ bound ih =>
    rw [tokensWithin, tokensWithin, (span_guard (by decide) (by decide) cs).2]
    cases cs.dropWhile isBlank with
    | nil => rfl
    | cons c cs =>
      rcases guard_cons_or c cs with hguard | ⟨cs', rfl, rfl⟩ | ⟨cs', rfl, rfl⟩
      · by_cases hangle : c = '<'
        · rw [hguard, hangle]
          simp only [readToken_eq_none (c := '<') (by decide) (by decide)]
        by_cases hbrace : c = '\x7b'
        · rw [hguard, hbrace]
          simp only [readToken, ih]
        · rw [hguard]
          simp only [(guardBlind_readToken ⟨hangle, hbrace⟩).guard_eq cs]
          cases readToken (c :: cs) with
          | none => rfl
          | some p => simp only [Option.map_some, Prod.map_fst, Prod.map_snd, id, ih]
      · simp only [LinkedData.guard, readToken_eq_none (c := '<') (by decide) (by decide)]
      · -- what comes after the brace starts no token, guarded or not
        have hnone : ∀ {d rest}, d = '%' ∨ d = '\\' →
            tokensWithin bound (d :: rest) = none := by
          rintro d rest (rfl | rfl)
          · exact tokensWithin_eq_none (by decide) (readToken_eq_none (by decide) (by decide) rest)
              bound
          · exact tokensWithin_eq_none (by decide) (readToken_eq_none (by decide) (by decide) rest)
              bound
        simp only [LinkedData.guard, readToken, hnone (.inl rfl), hnone (.inr rfl)]

/-- **Guarded text** has the tokens of the text itself. -/
theorem tokens?_guard (cs : List Char) :
    tokens? (String.ofList (guard cs)) = tokens? (String.ofList cs) := by
  have hle : cs.length ≤ (guard cs).length := by
    fun_induction guard cs with
    | case4 => exact Nat.le_refl _
    | case1 cs ih | case2 cs ih | case3 c cs _ _ ih =>
      simp only [List.length_cons]
      omega
  rw [tokens?, tokens?, String.toList_ofList, String.toList_ofList, tokensWithin_guard]
  exact tokensWithin_congr (by omega) (by omega)

end Json

end PageTree
