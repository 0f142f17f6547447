/-
The text of a number.

The text of an integer is its digits after a sign, that of a floating-point number its
shortest decimal, in one of four notations. Each of them is a literal of JSON: a whole
part that does not start with a zero, unless it is one, then perhaps a fraction and an
exponent. The reader takes a literal off the front of a text and finds the number in it.

* `Digits.IsDigits`, `Digits.number_toDigits`: digits and what they write;
* `Json.Literal`: the parts of a literal, with `Json.readNumber_literal`;
* `Double.Decimal.exists_writtenAs`: every decimal is written as a literal;
* `Json.readToken_text`: **the text of a number** is read as the number.
-/
import Mathlib.Data.Nat.Init
import Mathlib.Tactic.Common
import PageTree.Json.Printer
import PageTree.Proofs.GuardedJson
import PageTree.Proofs.ShortestDecimals

namespace PageTree

/-! ### Digits -/

namespace Digits

variable {ds rest : List Char}

/-- Whether some characters are digits, and there is one. -/
def IsDigits (ds : List Char) : Prop := ds ≠ [] ∧ ∀ c ∈ ds, c.isDigit = true

/-- The digits at the front of a text, up to something else. -/
lemma span_append (hds : ∀ c ∈ ds, c.isDigit = true)
    (hrest : ∀ c, rest.head? = some c → c.isDigit = false) : span (ds ++ rest) = (ds, rest) := by
  have htake : rest.takeWhile Char.isDigit = [] := by
    cases rest with
    | nil => rfl
    | cons c rest => exact List.takeWhile_cons_of_neg (by simp [hrest c rfl])
  have hdrop : rest.dropWhile Char.isDigit = rest := by
    cases rest with
    | nil => rfl
    | cons c rest => exact List.dropWhile_cons_of_neg (by simp [hrest c rfl])
  rw [span, List.takeWhile_append_of_pos hds, List.dropWhile_append_of_pos hds, htake, hdrop,
    List.append_nil]

lemma IsDigits.take {k : ℕ} (h : IsDigits ds) (hk : 0 < k) :
    IsDigits (ds.take k) ∧ (ds.take k).head? = ds.head? := by
  obtain ⟨k, rfl⟩ := Nat.exists_eq_add_one.mpr hk
  obtain ⟨c, ds, rfl⟩ := List.exists_cons_of_ne_nil h.1
  exact ⟨⟨List.cons_ne_nil _ _, fun c hc => h.2 c (List.mem_of_mem_take hc)⟩, rfl⟩

lemma IsDigits.drop {k : ℕ} (h : IsDigits ds) (hk : k < ds.length) : IsDigits (ds.drop k) :=
  ⟨List.ne_nil_of_length_pos (by rw [List.length_drop]; omega),
    fun c hc => h.2 c (List.mem_of_mem_drop hc)⟩

/-- The number that some digits write. -/
lemma numberFrom_eq_ofDigitChars (hds : ∀ c ∈ ds, c.isDigit = true) (start : ℕ) :
    numberFrom 10 start ds = Nat.ofDigitChars 10 ds start := by
  induction ds generalizing start with
  | nil => rfl
  | cons c ds ih =>
    rw [List.forall_mem_cons] at hds
    have hvalue : (value? c).getD 0 = c.toNat - '0'.toNat := by
      have hc := hds.1
      rw [Char.isDigit, Bool.and_eq_true, decide_eq_true_eq, decide_eq_true_eq] at hc
      have hrange : '0' ≤ c ∧ c ≤ '9' := hc
      rw [value?, if_pos hrange]
      rfl
    rw [Nat.ofDigitChars_cons, ← ih hds.2, ← hvalue]
    rfl

lemma isDigits_toDigits (n : ℕ) : IsDigits (Nat.toDigits 10 n) :=
  ⟨Nat.toDigits_ne_nil, fun _ hc => Nat.isDigit_of_mem_toDigits (by decide) (by decide) hc⟩

lemma isDigits_zero : IsDigits ['0'] :=
  ⟨List.cons_ne_nil _ _, List.forall_mem_singleton.mpr rfl⟩

lemma isDigit_replicate_zero (n : ℕ) : ∀ c ∈ List.replicate n '0', c.isDigit = true :=
  fun c hc => by rw [List.eq_of_mem_replicate hc]; decide

@[simp] lemma number_toDigits (n : ℕ) : number (Nat.toDigits 10 n) = n := by
  rw [number, numberFrom_eq_ofDigitChars (isDigits_toDigits n).2, Nat.ofDigitChars_ten_toDigits]

/-- Zeros at the end. -/
lemma number_append_zeros (n k : ℕ) :
    number (Nat.toDigits 10 n ++ List.replicate k '0') = n * 10 ^ k := by
  rw [number, numberFrom, List.foldl_append]
  change numberFrom 10 (number (Nat.toDigits 10 n)) (List.replicate k '0') = _
  rw [number_toDigits, numberFrom_eq_ofDigitChars (isDigit_replicate_zero k),
    Nat.ofDigitChars_replicate_zero, Nat.mul_comm]

/-- Zeros at the front. -/
lemma number_zeros_append (n k : ℕ) :
    number (List.replicate k '0' ++ Nat.toDigits 10 n) = n := by
  rw [number, numberFrom, List.foldl_append]
  change numberFrom 10 (numberFrom 10 0 (List.replicate k '0')) _ = _
  rw [numberFrom_eq_ofDigitChars (isDigit_replicate_zero k), Nat.ofDigitChars_replicate_zero,
    Nat.mul_zero]
  exact number_toDigits n

/-- No number but zero starts with a zero. -/
lemma head?_toDigits_ne {n : ℕ} (h : n ≠ 0) : (Nat.toDigits 10 n).head? ≠ some '0' := by
  have hdigit : ∀ d < 10, d ≠ 0 → Nat.digitChar d ≠ '0' := by decide
  induction n using Nat.strong_induction_on with
  | _ n ih =>
    rw [Nat.toDigits_eq_if (by decide)]
    split_ifs with hlt
    · rw [List.head?_cons, ne_eq, Option.some.injEq]
      exact hdigit n hlt h
    · rw [List.head?_append_of_ne_nil _ Nat.toDigits_ne_nil]
      exact ih (n / 10) (by omega) (by omega)

end Digits

namespace Json

open Digits

variable {rest : List Char}

/-! ### Numbers -/

/-- The parts of a number literal without its sign. -/
structure Literal where
  whole : List Char
  fraction : Option (List Char)
  exponent : Option ℤ
  isDigits_whole : IsDigits whole
  whole_eq_zero : whole.head? = some '0' → whole = ['0']
  isDigits_fraction : ∀ ds ∈ fraction, IsDigits ds

namespace Literal

/-- The fraction of a literal as it is written. -/
def fractionChars : Option (List Char) → List Char
  | none => []
  | some ds => '.' :: ds

/-- The exponent of a literal as it is written. -/
def exponentChars : Option ℤ → List Char
  | none => []
  | some e => 'e' :: (if e < 0 then '-' else '+') :: Nat.toDigits 10 e.natAbs

/-- The characters of a literal. -/
def chars (l : Literal) : List Char :=
  l.whole ++ (fractionChars l.fraction ++ exponentChars l.exponent)

/-- The number of a literal. -/
def number? (l : Literal) (negative : Bool) : Option Number :=
  literal? negative l.whole l.fraction l.exponent

end Literal

/-- Whether no number goes on with a text. -/
def Stops (rest : List Char) : Prop :=
  ∀ c, rest.head? = some c → c.isDigit = false ∧ c ∉ ['.', 'e', 'E']

lemma readDigits_append {ds : List Char} (hds : IsDigits ds)
    (hrest : ∀ c, rest.head? = some c → c.isDigit = false) :
    readDigits (ds ++ rest) = some (ds, rest) := by
  rw [readDigits, span_append hds.2 hrest, if_neg hds.1]

namespace Literal

/-- An exponent, or what comes after the literal, does not go on with digits. -/
lemma head?_exponentChars (exponent : Option ℤ) (h : Stops rest) :
    ∀ c, (exponentChars exponent ++ rest).head? = some c → c.isDigit = false ∧ c ≠ '.' := by
  intro c hc
  cases exponent with
  | none =>
    have hstop := h c hc
    exact ⟨hstop.1, fun heq => hstop.2 (by simp [heq])⟩
  | some e =>
    obtain rfl := Option.some.inj hc
    decide

lemma head?_fractionChars (fraction : Option (List Char)) (exponent : Option ℤ) (h : Stops rest) :
    ∀ c, (fractionChars fraction ++ (exponentChars exponent ++ rest)).head? = some c →
      c.isDigit = false := by
  intro c hc
  cases fraction with
  | none => exact (head?_exponentChars exponent h c hc).1
  | some ds =>
    obtain rfl := Option.some.inj hc
    decide

end Literal

open Literal

lemma readExponent_literal (exponent : Option ℤ) (h : Stops rest) :
    readExponent (exponentChars exponent ++ rest) = some (exponent, rest) := by
  cases exponent with
  | none =>
    cases rest with
    | nil => rfl
    | cons c rest =>
      have hc := (h c rfl).2
      simp only [List.mem_cons, List.not_mem_nil, or_false, not_or] at hc
      simp [exponentChars, readExponent, hc]
  | some e =>
    have hdigits : readDigits (Nat.toDigits 10 e.natAbs ++ rest) =
        some (Nat.toDigits 10 e.natAbs, rest) :=
      readDigits_append (isDigits_toDigits _) fun c hc => (h c hc).1
    rw [exponentChars, List.cons_append, List.cons_append, readExponent_cons (.inl rfl)]
    split_ifs with hneg
    · simp only [readSign, Option.bind_some, hdigits, Option.map_some, number_toDigits, if_true]
      rw [Int.ofNat_natAbs_of_nonpos (by omega), Int.neg_neg]
    · simp only [readSign, Option.bind_some, hdigits, Option.map_some, number_toDigits,
        Bool.false_eq_true, if_false]
      rw [Int.natAbs_of_nonneg (by omega)]

lemma readFraction_literal (l : Literal) (h : Stops rest) :
    readFraction (fractionChars l.fraction ++ (exponentChars l.exponent ++ rest)) =
      some (l.fraction, exponentChars l.exponent ++ rest) := by
  have hhead := head?_exponentChars l.exponent h
  cases hfraction : l.fraction with
  | none =>
    rw [fractionChars, List.nil_append, readFraction]
    rintro rest' heq
    exact (hhead '.' (by rw [heq]; rfl)).2 rfl
  | some ds =>
    rw [fractionChars, List.cons_append, readFraction_dot,
      readDigits_append (l.isDigits_fraction ds hfraction) fun c hc => (hhead c hc).1]
    rfl

lemma readWhole_literal (l : Literal) (h : Stops rest) :
    readWhole (l.whole ++ (fractionChars l.fraction ++ (exponentChars l.exponent ++ rest))) =
      some (l.whole, fractionChars l.fraction ++ (exponentChars l.exponent ++ rest)) := by
  by_cases hzero : l.whole.head? = some '0'
  · rw [l.whole_eq_zero hzero]
    rfl
  · rw [readWhole_of_ne, readDigits_append l.isDigits_whole
      (head?_fractionChars l.fraction l.exponent h)]
    rwa [List.head?_append_of_ne_nil _ l.isDigits_whole.1]

/-- A literal is read up to its end. -/
lemma readNumber_literal (negative : Bool) (l : Literal) (h : Stops rest) :
    readNumber negative (l.chars ++ rest) = (l.number? negative).map (·, rest) := by
  rw [readNumber_eq, chars, List.append_assoc, List.append_assoc, readWhole_literal l h,
    Option.bind_some, readFraction_literal l h, Option.bind_some, readExponent_literal _ h,
    Option.bind_some, number?]

/-- The token of a literal after its sign. -/
lemma readToken_literal (negative : Bool) (l : Literal) (h : Stops rest) :
    readToken ((if negative then ['-'] else []) ++ (l.chars ++ rest)) =
      (l.number? negative).map fun n => (.num n, rest) := by
  cases negative with
  | true =>
    rw [if_pos rfl, List.singleton_append, readToken, readNumber_literal true l h, Option.map_map]
    rfl
  | false =>
    obtain ⟨c, whole, hwhole⟩ := List.exists_cons_of_ne_nil l.isDigits_whole.1
    have hdigit : c.isDigit = true := l.isDigits_whole.2 c (by simp [hwhole])
    have hother : ['[', ']', '\x7b', '\x7d', ',', ':', 'n', 't', 'f', '"', '-'].all
        (fun d => !d.isDigit) = true := by decide
    have hnumber := readNumber_literal false l h
    rw [chars, hwhole, List.cons_append, List.cons_append] at hnumber ⊢
    rw [if_neg (by decide), List.nil_append, readToken_number, hnumber, Option.map_map]
    · rfl
    · intro hmem
      have hc := List.all_eq_true.mp hother c hmem
      rw [hdigit] at hc
      cases hc

namespace Literal

/-- The literal of a whole number. -/
def ofNat (n : ℕ) : Literal where
  whole := Nat.toDigits 10 n
  fraction := none
  exponent := none
  isDigits_whole := isDigits_toDigits n
  whole_eq_zero h := by
    obtain rfl : n = 0 := by
      by_contra hne
      exact head?_toDigits_ne hne h
    rfl
  isDigits_fraction _ h := by cases h

end Literal

end Json

namespace Double.Decimal

open Json Digits

variable (d : Decimal)

/-- Whether a literal writes a decimal: it has a fraction or an exponent, and its digits are
those of the decimal, perhaps with zeros at their end. -/
structure WrittenAs (l : Literal) : Prop where
  text_eq : d.text.toList = l.chars
  isSome : l.fraction.isSome = true ∨ l.exponent.isSome = true
  decimal_eq : ∃ k : ℕ, Digits.decimal l.whole (l.fraction.getD []) (l.exponent.getD 0) =
    (d.digits * 10 ^ k, d.exponent - k)

/-- The exponent of the leading digit. -/
def leading : ℤ := d.exponent + ((Nat.toDigits 10 d.digits).length : ℤ) - 1

variable {d}

/-- A whole number with a zero after the point. -/
lemma exists_writtenAs_whole (h : d.digits ≠ 0)
    (hplain : plainRange.1 ≤ d.leading ∧ d.leading < plainRange.2) (hexponent : 0 ≤ d.exponent) :
    ∃ l, d.WrittenAs l := by
  have hds := isDigits_toDigits d.digits
  have hzeros := isDigit_replicate_zero d.exponent.toNat
  refine ⟨{
      whole := Nat.toDigits 10 d.digits ++ List.replicate d.exponent.toNat '0'
      fraction := some ['0']
      exponent := none
      isDigits_whole := ⟨by simp [hds.1], ?_⟩
      whole_eq_zero := ?_
      isDigits_fraction := ?_ }, ?_, .inl rfl, d.exponent.toNat + 1, ?_⟩
  · intro c hc
    exact (List.mem_append.mp hc).elim (hds.2 c) (hzeros c)
  · intro hhead
    rw [List.head?_append_of_ne_nil _ hds.1] at hhead
    exact absurd hhead (head?_toDigits_ne h)
  · rintro ds ⟨⟩
    exact isDigits_zero
  · simp only [text, leading] at hplain ⊢
    rw [if_pos hplain, if_pos hexponent, String.toList_append, String.toList_ofList]
    rfl
  · have hmore : Nat.toDigits 10 d.digits ++ List.replicate d.exponent.toNat '0' ++ ['0'] =
        Nat.toDigits 10 d.digits ++ List.replicate (d.exponent.toNat + 1) '0' := by
      rw [List.replicate_succ', List.append_assoc]
    rw [Digits.decimal, Option.getD_some, hmore, number_append_zeros]
    refine Prod.ext rfl ?_
    simp only [Option.getD_none, List.length_singleton]
    omega

/-- Digits before and after the point. -/
lemma exists_writtenAs_point (h : d.digits ≠ 0)
    (hplain : plainRange.1 ≤ d.leading ∧ d.leading < plainRange.2) (hexponent : d.exponent < 0)
    (hleading : 0 ≤ d.leading) : ∃ l, d.WrittenAs l := by
  have hds := isDigits_toDigits d.digits
  have hlength : (d.leading + 1).toNat < (Nat.toDigits 10 d.digits).length := by
    rw [leading] at hleading ⊢
    omega
  have htake := hds.take (k := (d.leading + 1).toNat) (by omega)
  refine ⟨{
      whole := (Nat.toDigits 10 d.digits).take (d.leading + 1).toNat
      fraction := some ((Nat.toDigits 10 d.digits).drop (d.leading + 1).toNat)
      exponent := none
      isDigits_whole := htake.1
      whole_eq_zero := ?_
      isDigits_fraction := ?_ }, ?_, .inl rfl, 0, ?_⟩
  · intro hhead
    rw [htake.2] at hhead
    exact absurd hhead (head?_toDigits_ne h)
  · rintro ds ⟨⟩
    exact hds.drop hlength
  · simp only [text]
    simp only [leading] at hplain hleading ⊢
    rw [if_pos hplain, if_neg (by omega), if_pos hleading]
    simp only [String.toList_append, String.toList_ofList, List.append_assoc, Literal.chars,
      Literal.fractionChars, Literal.exponentChars, List.append_nil]
    rfl
  · rw [Digits.decimal, Option.getD_some, List.take_append_drop, number_toDigits]
    refine Prod.ext (by simp) ?_
    simp only [leading, Option.getD_none, List.length_drop] at hleading hlength ⊢
    omega

/-- A fraction. -/
lemma exists_writtenAs_fraction
    (hplain : plainRange.1 ≤ d.leading ∧ d.leading < plainRange.2) (hexponent : d.exponent < 0)
    (hleading : d.leading < 0) : ∃ l, d.WrittenAs l := by
  have hds := isDigits_toDigits d.digits
  have hzeros := isDigit_replicate_zero (-d.leading - 1).toNat
  refine ⟨{
      whole := ['0']
      fraction := some (List.replicate (-d.leading - 1).toNat '0' ++ Nat.toDigits 10 d.digits)
      exponent := none
      isDigits_whole := isDigits_zero
      whole_eq_zero := fun _ => rfl
      isDigits_fraction := ?_ }, ?_, .inl rfl, 0, ?_⟩
  · rintro ds ⟨⟩
    exact ⟨by simp [hds.1], fun c hc => (List.mem_append.mp hc).elim (hzeros c) (hds.2 c)⟩
  · simp only [text]
    simp only [leading] at hplain hleading ⊢
    rw [if_pos hplain, if_neg (by omega), if_neg (by omega)]
    simp only [String.toList_append, String.toList_ofList, Literal.chars, Literal.fractionChars,
      Literal.exponentChars, List.append_nil]
    rfl
  · have hmore : ['0'] ++ (List.replicate (-d.leading - 1).toNat '0' ++ Nat.toDigits 10 d.digits) =
        List.replicate ((-d.leading - 1).toNat + 1) '0' ++ Nat.toDigits 10 d.digits := by
      rw [List.replicate_succ]
      rfl
    rw [Digits.decimal, Option.getD_some, hmore, number_zeros_append]
    refine Prod.ext (by simp) ?_
    simp only [leading, Option.getD_none, List.length_append, List.length_replicate] at hleading ⊢
    omega

/-- A number with an exponent. -/
lemma exists_writtenAs_exponent (h : d.digits ≠ 0)
    (hplain : ¬ (plainRange.1 ≤ d.leading ∧ d.leading < plainRange.2)) :
    ∃ l, d.WrittenAs l := by
  have hds := isDigits_toDigits d.digits
  have htake := hds.take Nat.one_pos
  refine ⟨{
      whole := (Nat.toDigits 10 d.digits).take 1
      fraction := if (Nat.toDigits 10 d.digits).length ≤ 1 then none
        else some ((Nat.toDigits 10 d.digits).drop 1)
      exponent := some d.leading
      isDigits_whole := htake.1
      whole_eq_zero := ?_
      isDigits_fraction := ?_ }, ?_, .inr rfl, 0, ?_⟩
  · intro hhead
    rw [htake.2] at hhead
    exact absurd hhead (head?_toDigits_ne h)
  · intro ds hsome
    split_ifs at hsome with hone
    · cases hsome
    · cases hsome
      exact hds.drop (by omega)
  · simp only [text]
    simp only [leading] at hplain ⊢
    rw [if_neg hplain]
    have hfraction : (if (Nat.toDigits 10 d.digits).length ≤ 1 then ""
          else "." ++ String.ofList ((Nat.toDigits 10 d.digits).drop 1)).toList =
        Literal.fractionChars (if (Nat.toDigits 10 d.digits).length ≤ 1 then none
          else some ((Nat.toDigits 10 d.digits).drop 1)) := by
      split_ifs
      · rfl
      · simp only [String.toList_append, String.toList_ofList]
        rfl
    have hsign : ∀ i : ℤ, (if i < 0 then "-" else "+").toList = [if i < 0 then '-' else '+'] := by
      intro i
      split_ifs <;> rfl
    simp only [String.toList_append, String.toList_ofList, List.append_assoc, Literal.chars,
      Literal.exponentChars, Nat.toString_eq_ofList_toDigits, hfraction, hsign]
    rfl
  · have hfraction : (if (Nat.toDigits 10 d.digits).length ≤ 1 then none
        else some ((Nat.toDigits 10 d.digits).drop 1)).getD [] =
        (Nat.toDigits 10 d.digits).drop 1 := by
      split_ifs with hone
      · exact (List.drop_eq_nil_of_le hone).symm
      · rfl
    have hlength := List.length_pos_iff.mpr hds.1
    rw [Digits.decimal, hfraction, List.take_append_drop, number_toDigits]
    refine Prod.ext (by simp) ?_
    simp only [leading, Option.getD_some, List.length_drop]
    omega

/-- The text of a decimal is a literal. -/
lemma exists_writtenAs (h : d.digits ≠ 0) : ∃ l, d.WrittenAs l := by
  by_cases hplain : plainRange.1 ≤ d.leading ∧ d.leading < plainRange.2
  · rcases lt_or_ge d.exponent 0 with hexponent | hexponent
    · rcases lt_or_ge d.leading 0 with hleading | hleading
      · exact exists_writtenAs_fraction hplain hexponent hleading
      · exact exists_writtenAs_point h hplain hexponent hleading
    · exact exists_writtenAs_whole h hplain hexponent
  · exact exists_writtenAs_exponent h hplain

end Double.Decimal

namespace Json

open Digits

/-- A literal without fraction and exponent is an integer. -/
lemma literal?_whole {negative : Bool} {whole : List Char} {n : Number}
    (hzero : ¬ (negative = true ∧ number whole = 0))
    (h : Number.ofInt? (if negative then -(number whole : ℤ) else number whole) = some n) :
    literal? negative whole none none = some n := by
  rw [literal?]
  simp only [Option.isSome_none, Bool.false_eq_true, false_or, if_neg hzero, h]

/-- A literal with a fraction or an exponent is no integer. -/
lemma literal?_double {fraction : Option (List Char)} {exponent : Option ℤ}
    (h : fraction.isSome = true ∨ exponent.isSome = true) (negative : Bool) (whole : List Char) :
    literal? negative whole fraction exponent =
      (Double.ofDecimal? negative (Digits.decimal whole (fraction.getD []) (exponent.getD 0)).1
        (Digits.decimal whole (fraction.getD []) (exponent.getD 0)).2).map .double := by
  rw [literal?]
  simp only
  rw [if_pos (or_assoc.mp (.inl h))]

lemma ofInt?_eq {i : ℤ} (fits : FitsWord i) : Number.ofInt? i = some (.integer i fits) :=
  dif_pos fits

/-- Whether a number is written as a literal after a sign. -/
def WrittenAs (n : Number) (negative : Bool) (l : Literal) : Prop :=
  n.text.toList = (if negative then ['-'] else []) ++ l.chars ∧ l.number? negative = some n

lemma chars_ofNat (n : ℕ) : (Literal.ofNat n).chars = (toString n).toList := by
  rw [Nat.toString_eq_ofList_toDigits, String.toList_ofList]
  simp [Literal.chars, Literal.ofNat, Literal.fractionChars, Literal.exponentChars]

/-- An integer has neither fraction nor exponent. -/
lemma exists_writtenAs_integer (i : ℤ) (fits : FitsWord i) :
    ∃ negative l, WrittenAs (.integer i fits) negative l := by
  cases i with
  | ofNat n =>
    refine ⟨false, .ofNat n, ?_, literal?_whole (by simp) ?_⟩
    · rw [chars_ofNat]
      rfl
    · rw [Literal.ofNat, number_toDigits]
      exact ofInt?_eq fits
  | negSucc n =>
    refine ⟨true, .ofNat (n + 1), ?_, literal?_whole ?_ ?_⟩
    · rw [chars_ofNat]
      change ("-" ++ toString (n + 1)).toList = _
      rw [String.toList_append]
      rfl
    · rw [Literal.ofNat, number_toDigits]
      exact fun h => Nat.succ_ne_zero n h.2
    · rw [Literal.ofNat, number_toDigits]
      exact ofInt?_eq fits

/-- The two zeros. -/
def Literal.zero : Literal where
  whole := ['0']
  fraction := some ['0']
  exponent := none
  isDigits_whole := isDigits_zero
  whole_eq_zero _ := rfl
  isDigits_fraction := by
    rintro ds ⟨⟩
    exact isDigits_zero

/-- A floating-point number is written as its shortest decimal. -/
lemma exists_writtenAs_double (x : Double) : ∃ negative l, WrittenAs (.double x) negative l := by
  have hsign : (if x.negative then "-" else "").toList = if x.negative then ['-'] else [] := by
    split_ifs <;> rfl
  refine ⟨x.negative, ?_⟩
  by_cases hzero : x.rank = 0
  · refine ⟨.zero, ?_, ?_⟩
    · simp only [Number.text, Double.text, if_pos hzero, String.toList_append, hsign]
      rfl
    · have hx : x = Double.zero x.negative := by
        cases x
        cases hzero
        rfl
      have hdecimal : Digits.decimal Literal.zero.whole (Literal.zero.fraction.getD [])
          (Literal.zero.exponent.getD 0) = (0, -1) := by decide
      rw [Literal.number?, literal?_double (.inl rfl), hdecimal, Double.ofDecimal?,
        if_pos (.inl rfl), Option.map_some, ← hx]
  · obtain ⟨l, hl⟩ := Double.Decimal.exists_writtenAs (Double.within_shortest x.rank).1.ne'
    refine ⟨l, ?_, ?_⟩
    · simp only [Number.text, Double.text, if_neg hzero, String.toList_append, hsign, hl.text_eq]
    · obtain ⟨k, hdecimal⟩ := hl.decimal_eq
      rw [Literal.number?, literal?_double hl.isSome, hdecimal,
        Double.ofDecimal?_shortest x hzero k, Option.map_some]

/-- Every number is written as a literal after a sign. -/
lemma exists_writtenAs (n : Number) : ∃ negative l, WrittenAs n negative l := by
  cases n with
  | integer i fits => exact exists_writtenAs_integer i fits
  | double x => exact exists_writtenAs_double x

/-- The text of a number is read up to its end. -/
lemma readToken_text (n : Number) (h : Stops rest) :
    readToken (n.text.toList ++ rest) = some (.num n, rest) := by
  obtain ⟨negative, l, htext, hnumber⟩ := exists_writtenAs n
  rw [htext, List.append_assoc, readToken_literal negative l h, hnumber, Option.map_some]

end Json

end PageTree
