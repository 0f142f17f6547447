/-
Texts of points in time, read again.

A text in the format of RFC 3339 has a year of four digits. So the text of a point in time
is read back, as the same point in time, when this is in one of the years 0 to 9999. The
calendar goes on before and after them: there the year is written with a sign, and none of
the three forms of dates has a sign in front of the year and a time of day behind a `T`.

* `Instant.IsProper`: points in time whose second is one of the day, and which are in a leap
  second only at the end of a minute; all that are read or counted are proper
  (`Instant.isProper_of_ofText?`, `LinkedData.isProper_of_instant?`);
* `Instant.ofRfc3339?_chars`, `Instant.ofForms?_chars_eq_none`: reading what was written;
* `Instant.ofText?_text`: both in one statement;
* `LinkedData.dateText?_again`: **dates that are read again**;
* `LinkedData.not_dateText?_again`: a date that is not.
-/
import PageTree.LinkedData
import PageTree.Proofs.Calendar
import PageTree.Proofs.Characters
import PageTree.Proofs.NumberTexts

namespace PageTree

/-! ### White space -/

/-- No digit is white space. -/
lemma Text.isBlank_of_isDigit {c : Char} (h : c.isDigit = true) : isBlank c = false := by
  obtain ⟨hlow, hhigh⟩ : 48 ≤ c.toNat ∧ c.toNat ≤ 57 := Char.isDigit_iff_toNat.mp h
  have hne : ∀ d : Char, d.isDigit = false → c ≠ d := by
    rintro d hd rfl
    exact absurd (h.symm.trans hd) (by decide)
  have hcontrol : ¬ c ≤ '\r' := by
    intro hc
    have hc : c.toNat ≤ 13 := UInt32.le_iff_toNat_le.mp hc
    omega
  have hspace : ¬ '\u2000' ≤ c := by
    intro hc
    have hc : 0x2000 ≤ c.toNat := UInt32.le_iff_toNat_le.mp hc
    omega
  simp [isBlank, hne, hcontrol, hspace]

namespace Instant

open Digits

variable {t : Instant} {ds rest : List Char}

/-! ### Numbers of a fixed width -/

lemma isDigits_padded (width n : ℕ) : IsDigits (padded width n) := by
  refine ⟨List.append_ne_nil_of_right_ne_nil _ Nat.toDigits_ne_nil, fun c hc => ?_⟩
  rw [padded, List.mem_append] at hc
  exact hc.elim (isDigit_replicate_zero _ c) ((isDigits_toDigits n).2 c)

lemma number_padded (width n : ℕ) : number (padded width n) = n := number_zeros_append n _

lemma length_padded {width n : ℕ} (hpos : 0 < width) (h : n < 10 ^ width) :
    (padded width n).length = width := by
  have hlength : (Nat.toDigits 10 n).length ≤ width :=
    (Nat.length_toDigits_le_iff (by decide) hpos).mpr h
  rw [padded, List.length_append, List.length_replicate, Nat.sub_add_cancel hlength]

/-- A number that is not too long for its width is read back. -/
lemma fixed?_padded {width n : ℕ} (hpos : 0 < width) (h : n < 10 ^ width) :
    fixed? width (padded width n ++ rest) = some (n, rest) := by
  have hlength := length_padded hpos h
  have htake : (padded width n ++ rest).take width = padded width n := by
    rw [List.take_append_of_le_length hlength.ge, List.take_of_length_le hlength.le]
  have hdrop : (padded width n ++ rest).drop width = rest := by
    rw [List.drop_append_of_le_length hlength.ge, List.drop_of_length_le hlength.le,
      List.nil_append]
  rw [fixed?, htake, hdrop, number_padded]
  exact if_pos ⟨hlength, List.all_eq_true.mpr (isDigits_padded width n).2⟩

/-- Digits up to another character are read as one number, if they are not too many. -/
lemma upTo?_append {width : ℕ} (hds : IsDigits ds) (h : ds.length ≤ width)
    (hrest : ∀ c, rest.head? = some c → c.isDigit = false) :
    upTo? width (ds ++ rest) = some (number ds, rest) := by
  have htake : ((ds ++ rest).take width).takeWhile Char.isDigit = ds := by
    rw [List.take_append, List.take_of_length_le h, List.takeWhile_append_of_pos hds.2]
    have hnone : (rest.take (width - ds.length)).takeWhile Char.isDigit = [] := by
      cases hk : width - ds.length with
      | zero => rw [List.take_zero]; rfl
      | succ k =>
        cases rest with
        | nil => rfl
        | cons c rest =>
          rw [List.take_succ_cons]
          exact List.takeWhile_cons_of_neg (by simp [hrest c rfl])
    rw [hnone, List.append_nil]
  rw [upTo?, htake, List.drop_left]
  exact if_neg hds.1

/-! ### Fractions of a second -/

/-- The digits of a fraction that is not too long are read back in nanoseconds. -/
lemma nanos?_padded {width n : ℕ} (hpos : 0 < width) (hwidth : width ≤ 9) (h : n < 10 ^ width)
    (hrest : ∀ c, rest.head? = some c → c.isDigit = false) :
    nanos? (padded width n ++ rest) = some (n * 10 ^ (9 - width), rest) := by
  have hlength := length_padded hpos h
  rw [nanos?, span_append (isDigits_padded width n).2 hrest]
  dsimp only
  rw [if_neg (isDigits_padded width n).1, List.take_of_length_le (hlength.le.trans hwidth),
    hlength, number_padded]
  rfl

/-- The shortest text of a fraction of a second is read back up to an offset. -/
lemma fraction?_fractionText {n : ℕ} (h : n < nanosPerSecond) :
    fraction? (fractionText .shortest n ++ 'Z' :: rest) = some (n, 'Z' :: rest) := by
  have hrest : ∀ c, ('Z' :: rest).head? = some c → c.isDigit = false := by simp
  rw [nanosPerSecond] at h
  rw [fractionText]
  split_ifs with h0 h3 h6
  · rw [h0]
    rfl
  · have hn : n / 1000000 * 10 ^ (9 - 3) = n := by omega
    rw [List.cons_append, fraction?, nanos?_padded (by decide) (by decide) (by omega) hrest, hn]
  · have hn : n / 1000 * 10 ^ (9 - 6) = n := by omega
    rw [List.cons_append, fraction?, nanos?_padded (by decide) (by decide) (by omega) hrest, hn]
  · rw [List.cons_append, fraction?, nanos?_padded (by decide) (by decide) (by omega) hrest,
      Nat.sub_self, pow_zero, mul_one]

/-! ### Points in time -/

/-- Whether a point in time is one of its day, and in a leap second only in the last second
of a minute. -/
structure IsProper (t : Instant) : Prop where
  second_lt : t.second < secondsPerDay
  nano_lt : t.nano < 2 * nanosPerSecond
  leap : nanosPerSecond ≤ t.nano → t.second % 60 = 59

/-- Whether a point in time is in one of the years 0 to 9999. -/
def HasFourDigitYear (t : Instant) : Prop :=
  CalendarDate.newYear 0 ≤ t.day ∧ t.day < CalendarDate.newYear 10000

instance (t : Instant) : Decidable t.HasFourDigitYear := inferInstanceAs (Decidable (_ ∧ _))

/-- The text of the time of day. -/
def clock (t : Instant) : List Char :=
  padded 2 (t.second / 3600) ++ ':' :: (padded 2 (t.second / 60 % 60) ++ ':' ::
    (padded 2 (t.second % 60 + t.nano / nanosPerSecond) ++
      (fractionText .shortest (t.nano % nanosPerSecond) ++ ['Z'])))

lemma chars_eq (t : Instant) :
    t.chars .shortest = yearText (CalendarDate.ofDays t.day).year ++ '-' ::
      (padded 2 (CalendarDate.ofDays t.day).month ++ '-' ::
        (padded 2 (CalendarDate.ofDays t.day).day ++ 'T' :: t.clock)) := by
  simp only [chars, clock, List.append_assoc, List.cons_append]

/-- The date and the time of day of a point in time give it back. -/
lemma ofFields?_ofDays (h : t.IsProper) (hvalid : (CalendarDate.ofDays t.day).isValid = true) :
    ofFields? (CalendarDate.ofDays t.day) (t.second / 3600) (t.second / 60 % 60)
      (t.second % 60 + t.nano / nanosPerSecond) (t.nano % nanosPerSecond) = some t := by
  obtain ⟨hsecond, hnano, hleap⟩ := h
  obtain ⟨day, second, nano⟩ := t
  simp only [secondsPerDay, nanosPerSecond] at hsecond hnano hleap ⊢
  rw [ofFields?, if_pos ⟨hvalid, by omega, by omega, by omega⟩, CalendarDate.toDays_ofDays]
  split_ifs with h60
  · have hlast := hleap (by omega)
    simp only [nanosPerSecond, Option.some.injEq, Instant.mk.injEq, true_and]
    omega
  · simp only [Option.some.injEq, Instant.mk.injEq, true_and]
    omega

/-- No seconds earlier is the same point in time. -/
lemma earlier?_zero (h : t.IsProper) (hrange : dayInRange t.day = true) :
    t.earlier? 0 = some t := by
  obtain ⟨day, second, nano⟩ := t
  have hlt : second < 86400 := h.second_lt
  have hday : (day * 86400 + second - 0) / 86400 = day := by omega
  have hsecond : ((day * 86400 + second - 0) % 86400).toNat = second := by omega
  change (if dayInRange ((day * 86400 + second - 0) / 86400) = true then
    some (Instant.mk ((day * 86400 + second - 0) / 86400)
      ((day * 86400 + second - 0) % 86400).toNat nano) else none) = _
  rw [hday, hsecond]
  exact if_pos hrange

/-! ### Reading what was written -/

lemma char?_cons (c : Char) (rest : List Char) : char? c (c :: rest) = some rest := if_pos rfl

/-- In the years 0 to 9999 the calendar is not at its end. -/
lemma HasFourDigitYear.dayInRange (h : t.HasFourDigitYear) : dayInRange t.day = true := by
  have hfirst : CalendarDate.newYear 0 = -719528 := by decide
  have hlast : CalendarDate.newYear 10000 = 2932897 := by decide
  have hstart : CalendarDate.toDays ⟨CalendarDate.yearRange.1, 1, 1⟩ = -96465292 := by decide
  have hend : CalendarDate.toDays ⟨CalendarDate.yearRange.2, 12, 31⟩ = 95026236 := by decide
  obtain ⟨h, h'⟩ := h
  rw [Instant.dayInRange, hstart, hend, Bool.and_eq_true, decide_eq_true_eq, decide_eq_true_eq]
  omega

lemma hasFourDigitYear_iff : t.HasFourDigitYear ↔
    0 ≤ (CalendarDate.ofDays t.day).year ∧ (CalendarDate.ofDays t.day).year ≤ 9999 :=
  (CalendarDate.year_ofDays_mem_iff t.day 0 9999).symm

/-- The text of a point in time in one of the years 0 to 9999 is read back. -/
lemma ofRfc3339?_chars (h : t.IsProper) (hyear : t.HasFourDigitYear) :
    ofRfc3339? (t.chars .shortest) = some t := by
  obtain ⟨hfirst, hlast⟩ := hasFourDigitYear_iff.mp hyear
  have hmonth := CalendarDate.ofDays_isOfMonth t.day
  have hvalid : (CalendarDate.ofDays t.day).isValid = true :=
    (CalendarDate.isValid_iff _).mpr ⟨by omega, by omega, hmonth⟩
  obtain ⟨-, hmonth, -, hday⟩ := hmonth
  have hlength := hday.trans (CalendarDate.daysIn_le _ _)
  have hsecond : t.second < 86400 := h.second_lt
  have hclock : t.second % 60 + t.nano / nanosPerSecond < 10 ^ 2 := by
    have hnano := h.nano_lt
    rw [nanosPerSecond] at hnano ⊢
    omega
  have hdate : (⟨((CalendarDate.ofDays t.day).year.toNat : ℤ), (CalendarDate.ofDays t.day).month,
      (CalendarDate.ofDays t.day).day⟩ : CalendarDate) = CalendarDate.ofDays t.day := by
    rw [Int.toNat_of_nonneg hfirst]
  have hread := ofFields?_ofDays h hvalid
  rw [← hdate] at hread
  rw [chars_eq, yearText, if_pos ⟨hfirst, hlast⟩, clock]
  -- one step for each part of the text, from the year to the offset
  refine Option.bind_eq_some_iff.mpr ⟨_, fixed?_padded (by decide) (by omega), ?_⟩
  refine Option.bind_eq_some_iff.mpr ⟨_, char?_cons '-' _, ?_⟩
  refine Option.bind_eq_some_iff.mpr ⟨_, fixed?_padded (by decide) (by omega), ?_⟩
  refine Option.bind_eq_some_iff.mpr ⟨_, char?_cons '-' _, ?_⟩
  refine Option.bind_eq_some_iff.mpr ⟨_, fixed?_padded (by decide) (by omega), ?_⟩
  refine Option.bind_eq_some_iff.mpr ⟨_, rfl, ?_⟩
  refine Option.bind_eq_some_iff.mpr ⟨_, fixed?_padded (by decide) (by omega), ?_⟩
  refine Option.bind_eq_some_iff.mpr ⟨_, char?_cons ':' _, ?_⟩
  refine Option.bind_eq_some_iff.mpr ⟨_, fixed?_padded (by decide) (by omega), ?_⟩
  refine Option.bind_eq_some_iff.mpr ⟨_, char?_cons ':' _, ?_⟩
  refine Option.bind_eq_some_iff.mpr ⟨_, fixed?_padded (by decide) hclock, ?_⟩
  refine Option.bind_eq_some_iff.mpr
    ⟨_, fraction?_fractionText (Nat.mod_lt t.nano (show 0 < nanosPerSecond by decide)), ?_⟩
  refine Option.bind_eq_some_iff.mpr ⟨_, rfl, ?_⟩
  refine Option.bind_eq_some_iff.mpr ⟨_, hread, ?_⟩
  exact earlier?_zero h hyear.dayInRange

/-! ### Years with a sign -/

/-- No number is read at a sign. -/
lemma fixed?_sign {c : Char} (hc : c = '-' ∨ c = '+') (width : ℕ) :
    fixed? (width + 1) (c :: rest) = none := by
  refine if_neg fun h => ?_
  rw [List.take_succ_cons, List.all_cons, Bool.and_eq_true] at h
  rcases hc with rfl | rfl <;> exact absurd h.2.1 (by decide)

/-- A number of two digits is read also where one digit would do. -/
lemma field?_padded {n : ℕ} (h : n < 10 ^ 2)
    (hrest : ∀ c, rest.head? = some c → c.isDigit = false) :
    field? (padded 2 n ++ rest) = some (n, rest) := by
  have hskip : skipBlanks (padded 2 n ++ rest) = padded 2 n ++ rest := by
    obtain ⟨c, ds, hds⟩ := List.exists_cons_of_ne_nil (isDigits_padded 2 n).1
    have hc : c.isDigit = true := (isDigits_padded 2 n).2 c (hds ▸ List.mem_cons_self)
    rw [hds]
    exact List.dropWhile_cons_of_neg (by simp [Text.isBlank_of_isDigit hc])
  rw [field?, hskip, upTo?_append (isDigits_padded 2 n)
    (length_padded (by decide) h).le hrest, number_padded]

/-- A year after a sign is read to its end. -/
lemma exists_year?_sign {c : Char} (hc : c = '-' ∨ c = '+') (hds : IsDigits ds)
    (hrest : ∀ c, rest.head? = some c → c.isDigit = false) :
    ∃ year, year? (c :: (ds ++ rest)) = some (year, rest) := by
  have hread : upTo? (ds ++ rest).length (ds ++ rest) = some (number ds, rest) :=
    upTo?_append hds (by rw [List.length_append]; omega) hrest
  have hskip : skipBlanks (c :: (ds ++ rest)) = c :: (ds ++ rest) :=
    List.dropWhile_cons_of_neg (by rcases hc with rfl | rfl <;> decide)
  rw [year?, hskip]
  rcases hc with rfl | rfl
  · refine ⟨-(number ds : ℤ), ?_⟩
    change (upTo? (ds ++ rest).length (ds ++ rest)).map _ = _
    rw [hread, Option.map_some]
  · refine ⟨number ds, ?_⟩
    change (upTo? (ds ++ rest).length (ds ++ rest)).map _ = _
    rw [hread, Option.map_some]

/-- A date whose year has a sign is read up to the time of day. -/
lemma exists_calendarDate?_sign {c : Char} (hc : c = '-' ∨ c = '+') (hds : IsDigits ds)
    {month day : ℕ} (hmonth : month < 10 ^ 2) (hday : day < 10 ^ 2)
    (hrest : ∀ c, rest.head? = some c → c.isDigit = false) :
    ∃ date, calendarDate? (c :: (ds ++ '-' :: (padded 2 month ++ '-' :: (padded 2 day ++ rest)))) =
      some (date, rest) := by
  have hdash : ∀ c, ('-' :: (padded 2 month ++ '-' :: (padded 2 day ++ rest))).head? = some c →
      c.isDigit = false := by simp
  obtain ⟨year, hyear⟩ := exists_year?_sign hc hds hdash
  refine ⟨⟨year, month, day⟩, ?_⟩
  refine Option.bind_eq_some_iff.mpr ⟨_, hyear, ?_⟩
  refine Option.bind_eq_some_iff.mpr ⟨_, char?_cons '-' _, ?_⟩
  refine Option.bind_eq_some_iff.mpr ⟨_, field?_padded hmonth (by simp), ?_⟩
  refine Option.bind_eq_some_iff.mpr ⟨_, char?_cons '-' _, ?_⟩
  exact Option.bind_eq_some_iff.mpr ⟨_, field?_padded hday hrest, rfl⟩

/-- The texts of all other points in time are not read in any of the three forms: the year has
a sign, and after a date with a sign no `T` may stand. -/
lemma ofForms?_chars_eq_none (h : ¬ t.HasFourDigitYear) :
    ofRfc3339? (t.chars .shortest) = none ∧ ofDateAndTime? (t.chars .shortest) = none ∧
      ofDate? (t.chars .shortest) = none := by
  obtain ⟨c, hc, hyear⟩ : ∃ c, (c = '-' ∨ c = '+') ∧
      yearText (CalendarDate.ofDays t.day).year =
        c :: padded 4 (CalendarDate.ofDays t.day).year.natAbs := by
    rw [yearText, if_neg (mt hasFourDigitYear_iff.mpr h)]
    split_ifs
    · exact ⟨_, .inl rfl, rfl⟩
    · exact ⟨_, .inr rfl, rfl⟩
  obtain ⟨-, hmonth, -, hday⟩ := CalendarDate.ofDays_isOfMonth t.day
  have hlength := hday.trans (CalendarDate.daysIn_le _ _)
  have hmonth' : (CalendarDate.ofDays t.day).month < 10 ^ 2 := by omega
  have hday' : (CalendarDate.ofDays t.day).day < 10 ^ 2 := by omega
  have hclock : ∀ c, ('T' :: t.clock).head? = some c → c.isDigit = false := by simp
  obtain ⟨date, hdate⟩ := exists_calendarDate?_sign hc
    (isDigits_padded 4 (CalendarDate.ofDays t.day).year.natAbs) hmonth' hday' hclock
  rw [chars_eq, hyear, List.cons_append]
  refine ⟨?_, ?_, ?_⟩
  · rw [ofRfc3339?, fixed?_sign hc]
    rfl
  · rw [ofDateAndTime?, hdate]
    rfl
  · rw [ofDate?, hdate]
    rfl

/-! ### Points in time that are read -/

/-- A count from 1970 gives a proper point in time, if it is in the last second of a minute
with a leap second. -/
lemma isProper_of_ofSecondsAndNanos? {seconds : ℤ} {nano : ℕ}
    (h : ofSecondsAndNanos? seconds nano = some t) (hnano : nano < 2 * nanosPerSecond)
    (hleap : nanosPerSecond ≤ nano → seconds % 60 = 59) : t.IsProper := by
  rw [ofSecondsAndNanos?] at h
  split_ifs at h
  cases h
  refine ⟨?_, hnano, fun hle => ?_⟩
  · change (seconds % 86400).toNat < 86400
    omega
  · have hlast := hleap hle
    change (seconds % 86400).toNat % 60 = 59
    omega

lemma isProper_of_ofMillis? {millis : ℤ} (h : ofMillis? millis = some t) : t.IsProper :=
  isProper_of_ofSecondsAndNanos? h (by rw [nanosPerSecond]; omega)
    (by rw [nanosPerSecond]; omega)

lemma isProper_of_ofFields? {date : CalendarDate} {hour minute second nano : ℕ}
    (h : ofFields? date hour minute second nano = some t) (hnano : nano < nanosPerSecond) :
    t.IsProper := by
  rw [ofFields?] at h
  rw [nanosPerSecond] at hnano
  split_ifs at h with hfields h60
  · cases h
    obtain ⟨-, hhour, hminute, -⟩ := hfields
    refine ⟨?_, ?_, fun _ => ?_⟩
    · change hour * 3600 + minute * 60 + 59 < 86400
      omega
    · change nanosPerSecond + nano < 2 * nanosPerSecond
      rw [nanosPerSecond]
      omega
    · change (hour * 3600 + minute * 60 + 59) % 60 = 59
      omega
  · cases h
    obtain ⟨-, hhour, hminute, hsecond⟩ := hfields
    refine ⟨?_, ?_, fun hle => ?_⟩
    · change hour * 3600 + minute * 60 + second < 86400
      omega
    · change nano < 2 * nanosPerSecond
      rw [nanosPerSecond]
      omega
    · rw [nanosPerSecond] at hle
      change 1000000000 ≤ nano at hle
      omega

/-- An earlier point in time is proper if the difference is in whole minutes. -/
lemma isProper_of_earlier? {l : Instant} {seconds : ℤ} (h : l.earlier? seconds = some t)
    (hl : l.IsProper) (hseconds : seconds % 60 = 0) : t.IsProper := by
  refine isProper_of_ofSecondsAndNanos? h hl.nano_lt fun hle => ?_
  have hlast := hl.leap hle
  rw [secondsPerDay]
  omega

/-- A number is bounded by its digits. -/
lemma numberFrom_lt (hds : ∀ c ∈ ds, c.isDigit = true) (start : ℕ) :
    numberFrom 10 start ds < (start + 1) * 10 ^ ds.length := by
  rw [numberFrom_eq_ofDigitChars hds]
  induction ds generalizing start with
  | nil => simp
  | cons c ds ih =>
    rw [List.forall_mem_cons] at hds
    have hc : c.toNat ≤ 57 := (Char.isDigit_iff_toNat.mp hds.1).2
    have hstep : 10 * start + (c.toNat - '0'.toNat) + 1 ≤ (start + 1) * 10 := by
      change 10 * start + (c.toNat - 48) + 1 ≤ _
      omega
    rw [Nat.ofDigitChars_cons, List.length_cons, pow_succ', ← mul_assoc]
    exact (ih hds.2 _).trans_le (Nat.mul_le_mul_right _ hstep)

/-- A fraction is less than a second. -/
lemma lt_of_nanos? {cs : List Char} {nano : ℕ} (h : nanos? cs = some (nano, rest)) :
    nano < nanosPerSecond := by
  rw [nanos?] at h
  dsimp only at h
  split_ifs at h
  cases h
  have hlength : ((span cs).1.take 9).length ≤ 9 := List.length_take_le _ _
  have hdigits : ∀ c ∈ (span cs).1.take 9, c.isDigit = true :=
    fun c hc => List.mem_takeWhile_imp (List.mem_of_mem_take hc)
  have hlt := numberFrom_lt hdigits 0
  rw [Nat.zero_add, Nat.one_mul] at hlt
  calc number ((span cs).1.take 9) * 10 ^ (9 - ((span cs).1.take 9).length)
      < 10 ^ ((span cs).1.take 9).length * 10 ^ (9 - ((span cs).1.take 9).length) :=
        Nat.mul_lt_mul_of_pos_right hlt (Nat.pow_pos (by decide))
    _ = 10 ^ 9 := by rw [← pow_add, Nat.add_sub_cancel' hlength]

lemma lt_of_fraction? {cs : List Char} {nano : ℕ} (h : fraction? cs = some (nano, rest)) :
    nano < nanosPerSecond := by
  rw [fraction?.eq_def] at h
  split at h
  · exact lt_of_nanos? h
  · cases h
    decide

/-- An offset is in whole minutes. -/
lemma mod_of_offset? {cs : List Char} {seconds : ℤ} (h : offset? cs = some (seconds, rest)) :
    seconds % 60 = 0 := by
  rw [offset?.eq_def] at h
  split at h
  · cases h
    rfl
  · cases h
    rfl
  · split at h
    · obtain ⟨⟨hour, cs⟩, -, h⟩ := Option.bind_eq_some_iff.mp h
      obtain ⟨cs, -, h⟩ := Option.bind_eq_some_iff.mp h
      obtain ⟨⟨minute, cs⟩, -, h⟩ := Option.bind_eq_some_iff.mp h
      dsimp only at h
      split_ifs at h <;> (cases h; omega)
    · cases h
  · cases h

lemma isProper_of_ofRfc3339? {cs : List Char} (h : ofRfc3339? cs = some t) : t.IsProper := by
  obtain ⟨⟨year, cs⟩, -, h⟩ := Option.bind_eq_some_iff.mp h
  obtain ⟨cs, -, h⟩ := Option.bind_eq_some_iff.mp h
  obtain ⟨⟨month, cs⟩, -, h⟩ := Option.bind_eq_some_iff.mp h
  obtain ⟨cs, -, h⟩ := Option.bind_eq_some_iff.mp h
  obtain ⟨⟨day, cs⟩, -, h⟩ := Option.bind_eq_some_iff.mp h
  obtain ⟨cs, -, h⟩ := Option.bind_eq_some_iff.mp h
  obtain ⟨⟨hour, cs⟩, -, h⟩ := Option.bind_eq_some_iff.mp h
  obtain ⟨cs, -, h⟩ := Option.bind_eq_some_iff.mp h
  obtain ⟨⟨minute, cs⟩, -, h⟩ := Option.bind_eq_some_iff.mp h
  obtain ⟨cs, -, h⟩ := Option.bind_eq_some_iff.mp h
  obtain ⟨⟨second, cs⟩, -, h⟩ := Option.bind_eq_some_iff.mp h
  obtain ⟨⟨nano, cs⟩, hnano, h⟩ := Option.bind_eq_some_iff.mp h
  obtain ⟨⟨offset, cs⟩, hoffset, h⟩ := Option.bind_eq_some_iff.mp h
  obtain ⟨l, hl, h⟩ := Option.bind_eq_some_iff.mp h
  split_ifs at h
  exact isProper_of_earlier? h (isProper_of_ofFields? hl (lt_of_fraction? hnano))
    (mod_of_offset? hoffset)

lemma isProper_of_ofDateAndTime? {cs : List Char} (h : ofDateAndTime? cs = some t) :
    t.IsProper := by
  obtain ⟨⟨date, cs⟩, -, h⟩ := Option.bind_eq_some_iff.mp h
  obtain ⟨⟨hour, cs⟩, -, h⟩ := Option.bind_eq_some_iff.mp h
  obtain ⟨cs, -, h⟩ := Option.bind_eq_some_iff.mp h
  obtain ⟨⟨minute, cs⟩, -, h⟩ := Option.bind_eq_some_iff.mp h
  obtain ⟨cs, -, h⟩ := Option.bind_eq_some_iff.mp h
  obtain ⟨⟨second, cs⟩, -, h⟩ := Option.bind_eq_some_iff.mp h
  dsimp only at h
  split_ifs at h
  exact isProper_of_ofFields? h (by decide)

lemma isProper_of_ofDate? {cs : List Char} (h : ofDate? cs = some t) : t.IsProper := by
  obtain ⟨⟨date, cs⟩, -, h⟩ := Option.bind_eq_some_iff.mp h
  dsimp only at h
  split_ifs at h
  exact isProper_of_ofFields? h (by decide)

/-- A point in time that is read from a text is proper, in whichever form the text is. -/
lemma isProper_of_ofText? {s : String} (h : ofText? s = some t) : t.IsProper := by
  rw [ofText?, Option.or_eq_some_iff, Option.or_eq_some_iff] at h
  obtain h | ⟨-, h | ⟨-, h⟩⟩ := h
  · exact isProper_of_ofRfc3339? h
  · exact isProper_of_ofDateAndTime? h
  · exact isProper_of_ofDate? h

/-! ### Texts of points in time -/

/-- The text of a year starts with a digit or a sign. -/
lemma isBlank_of_head?_yearText {year : ℤ} {c : Char}
    (h : (yearText year ++ rest).head? = some c) : Text.isBlank c = false := by
  rw [yearText] at h
  split_ifs at h
  · have hne := (isDigits_padded 4 year.toNat).1
    rw [List.head?_append_of_ne_nil _ hne] at h
    exact Text.isBlank_of_isDigit ((isDigits_padded 4 _).2 c (List.mem_of_head? h))
  · cases h
    decide
  · cases h
    decide

/-- Nothing is trimmed off the text of a point in time. -/
lemma trimChars_chars (t : Instant) : Text.trimChars (t.chars .shortest) = t.chars .shortest := by
  refine Text.trimEnds_eq_self (fun c hc => ?_) fun c hc => ?_
  · rw [chars_eq] at hc
    exact isBlank_of_head?_yearText hc
  · rw [chars, List.getLast?_concat] at hc
    cases hc
    decide

/-- A point in time is read back from its text if it is in one of the years 0 to 9999, and
nothing is read otherwise. -/
theorem ofText?_text (h : t.IsProper) :
    ofText? t.text = if t.HasFourDigitYear then some t else none := by
  rw [ofText?, text, String.toList_ofList, trimChars_chars]
  split_ifs with hyear
  · rw [ofRfc3339?_chars h hyear, Option.some_or]
  · obtain ⟨hrfc, hboth, hdate⟩ := ofForms?_chars_eq_none hyear
    rw [hrfc, hboth, hdate]
    rfl

end Instant

namespace LinkedData

/-! ### Dates of linked data -/

lemma instant?_str (s : String) : instant? (.str s) = Instant.ofText? s := by rw [instant?]

/-- The points in time of values are proper. -/
lemma isProper_of_instant? {v : Value} {t : Instant} (h : instant? v = some t) : t.IsProper := by
  have hnumber : ∀ n, instantOfNumber? n = some t → t.IsProper := by
    intro n h
    cases n with
    | integer i fits =>
      rw [instantOfNumber?] at h
      split_ifs at h
      · exact Instant.isProper_of_ofSecondsAndNanos? h (by decide) fun hle => absurd hle (by decide)
      · exact Instant.isProper_of_ofMillis? h
    | double x => exact Instant.isProper_of_ofMillis? h
  have hwrapped : ∀ w, instantOfWrapped? w = some t → t.IsProper := by
    intro w h
    rw [instantOfWrapped?.eq_def] at h
    split at h
    · split_ifs at h
      exact Instant.isProper_of_ofMillis? h
    · obtain ⟨millis, -, h⟩ := Option.bind_eq_some_iff.mp h
      exact Instant.isProper_of_ofMillis? h
    · exact Instant.isProper_of_ofText? h
    · cases h
  cases v with
  | num n => exact hnumber n h
  | str s => exact Instant.isProper_of_ofText? h
  | obj m =>
    obtain ⟨w, -, h⟩ := Option.bind_eq_some_iff.mp h
    exact hwrapped w h
  | _ => cases h

/-- The text of the point in time of a value is read as this point in time, or not at all. -/
lemma instant?_text {v : Value} {t : Instant} (h : instant? v = some t) :
    instant? (.str t.text) = if t.HasFourDigitYear then some t else none := by
  rw [instant?_str, Instant.ofText?_text (isProper_of_instant? h)]

/-- **Dates that are read again**: the text that a value is converted to is converted to itself,
as the same point in time, if this is in one of the years 0 to 9999; otherwise it is not the
text of a date. -/
theorem dateText?_again {v : Value} {s : String} (h : dateText? v = some s) :
    ∃ t, instant? v = some t ∧ t.text = s ∧
      (t.HasFourDigitYear → instant? (.str s) = some t ∧ dateText? (.str s) = some s) ∧
      (¬ t.HasFourDigitYear → dateText? (.str s) = none) := by
  obtain ⟨t, ht, rfl⟩ := Option.map_eq_some_iff.mp h
  refine ⟨t, ht, rfl, fun hyear => ?_, fun hyear => ?_⟩
  · rw [dateText?, instant?_text ht, if_pos hyear]
    exact ⟨rfl, rfl⟩
  · rw [dateText?, instant?_text ht, if_neg hyear, Option.map_none]

/-- The seconds of an hour in 2023. -/
theorem dateText?_again_seconds :
    let v : Value := .num (.integer 1700000000 (by decide))
    dateText? v = some "2023-11-14T22:13:20Z" ∧
      ∃ t, instant? v = some t ∧ t.text = "2023-11-14T22:13:20Z" ∧
      (t.HasFourDigitYear → instant? (.str "2023-11-14T22:13:20Z") = some t ∧
        dateText? (.str "2023-11-14T22:13:20Z") = some "2023-11-14T22:13:20Z") ∧
      (¬ t.HasFourDigitYear → dateText? (.str "2023-11-14T22:13:20Z") = none) := by
  intro v
  have h : dateText? v = some "2023-11-14T22:13:20Z" := by decide +kernel
  exact ⟨h, dateText?_again h⟩

/-- Milliseconds that stand where seconds are expected. -/
theorem not_dateText?_again :
    dateText? (.num (.integer 1700000000000 (by decide))) = some "+55840-11-08T22:13:20Z" ∧
      dateText? (.str "+55840-11-08T22:13:20Z") = none := by
  decide +kernel

end LinkedData

end PageTree
