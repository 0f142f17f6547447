/-
Shortest decimals read back.

The decimal of a number is taken from the interval of the reals that round to it. A
ratio in this interval is rounded to the number again: it has the same number of binary
digits, or it lies just below a power of two, where the rounding goes up to the next
binade. So the decimal of every number is read as the number.

* `Double.Within`: ratios in the interval of a rank;
* `Double.nearestRank_of_within`: what is in the interval **rounds to the rank**;
* `Double.within_of_gridPoint?`, `Double.exists_gridPoint?_of_lt`: the points of a grid
  are in the interval, and a fine grid has one;
* `Double.ofDecimal?_of_within`: what is in the interval is read as the number;
* `Double.ofDecimal?_shortest`: **the shortest decimal** is read as the number.
-/
import Mathlib.Data.Nat.Init
import Mathlib.Tactic.Common
import Mathlib.Tactic.NormNum
import Mathlib.Tactic.Ring
import PageTree.Double.Decimal

namespace PageTree

namespace Double

variable {rank num den m : ℕ}

/-! ### Rounding -/

/-- What is at most half away from a number is rounded to it, if at a tie the number is
even. -/
lemma roundHalfEven_eq (hden : 0 < den) (hlow : 2 * (m * den) ≤ 2 * num + den)
    (hhigh : 2 * num ≤ 2 * (m * den) + den)
    (heven : 2 * (m * den) = 2 * num + den ∨ 2 * num = 2 * (m * den) + den → m % 2 = 0) :
    roundHalfEven num den = m := by
  have hnum := Nat.div_add_mod num den
  have hmod := Nat.mod_lt num hden
  rw [roundHalfEven]
  have hcases : num / den = m ∨ num / den + 1 = m := by
    rcases Nat.lt_trichotomy (num / den) m with hlt | heq | hgt
    · right
      by_contra hne
      have hle : den * (num / den + 2) ≤ den * m := Nat.mul_le_mul_left den (by omega)
      rw [Nat.mul_add] at hle
      rw [Nat.mul_comm m den] at hlow
      omega
    · exact .inl heq
    · have hle : den * (m + 1) ≤ den * (num / den) := Nat.mul_le_mul_left den hgt
      rw [Nat.mul_add] at hle
      rw [Nat.mul_comm m den] at hhigh
      omega
  rcases hcases with heq | heq
  · rw [heq, Nat.mul_comm den m] at hnum
    simp only [heq]
    split_ifs <;> omega
  · have hmul : m * den = den * (num / den) + den := by rw [← heq]; ring
    rw [hmul] at hlow hhigh heven
    split_ifs <;> omega

/-! ### Ranks -/

/-- A rank counts the binades below it and the numbers in its own. -/
lemma scaleAt_mul_add (rank : ℕ) : scaleAt rank * binade + significandAt rank = rank := by
  rw [scaleAt, significandAt]
  split_ifs with h <;> rw [binade] at h ⊢ <;> omega

lemma significandAt_lt (rank : ℕ) : significandAt rank < 2 * binade := by
  rw [significandAt]
  split_ifs with h <;> rw [binade] at h ⊢ <;> omega

/-- Above the first binade a significand has all its digits. -/
lemma binade_le_significandAt (h : 0 < scaleAt rank) : binade ≤ significandAt rank := by
  have hlt := significandAt_lt rank
  have hrank := scaleAt_mul_add rank
  rw [scaleAt] at h hrank
  rw [binade] at *
  omega

lemma significandAt_pos (h : rank ≠ 0) : 0 < significandAt rank := by
  rw [significandAt]
  split_ifs
  · exact Nat.pos_of_ne_zero h
  · rw [binade]
    omega

/-! ### Intervals -/

/-- The distance between the numbers in the binade of a rank, for ratios with a
denominator. -/
def spacing (rank den : ℕ) : ℕ := Nat.pow 2 (scaleAt rank) * den

/-- Whether a ratio is in the interval of the reals that round to the number at a rank. -/
structure Within (rank num den : ℕ) : Prop where
  low_le : (quarterInterval rank).1 * den ≤ 4 * (num * unitsPerOne)
  le_high : 4 * (num * unitsPerOne) ≤ (quarterInterval rank).2.2 * den
  even : (quarterInterval rank).1 * den = 4 * (num * unitsPerOne) ∨
    4 * (num * unitsPerOne) = (quarterInterval rank).2.2 * den → significandAt rank % 2 = 0

lemma spacing_pos (rank : ℕ) (hden : 0 < den) : 0 < spacing rank den :=
  Nat.mul_pos (Nat.pow_pos (by decide)) hden

lemma centre_mul (rank den : ℕ) :
    (quarterInterval rank).2.1 * den = 4 * (significandAt rank * spacing rank den) := by
  simp only [quarterInterval, unitsAt, spacing]
  ring

/-- The upper end is half a step above the number. -/
lemma high_mul (rank den : ℕ) :
    (quarterInterval rank).2.2 * den =
      4 * (significandAt rank * spacing rank den) + 2 * spacing rank den := by
  simp only [quarterInterval, unitsAt, spacing]
  ring

/-- The lower end is half a step below the number, or a quarter at the first number of a
binade. -/
lemma low_mul (rank den : ℕ) :
    (quarterInterval rank).1 * den = 4 * (significandAt rank * spacing rank den) -
      if significandAt rank = binade ∧ 0 < scaleAt rank then spacing rank den
      else 2 * spacing rank den := by
  simp only [quarterInterval, unitsAt, spacing]
  rw [Nat.sub_mul]
  congr 1
  · ring
  · split_ifs <;> ring

namespace Within

/-- The ends of the interval in steps. -/
lemma bounds (h : Within rank num den) :
    4 * (significandAt rank * spacing rank den) ≤
        4 * (num * unitsPerOne) + 2 * spacing rank den ∧
      4 * (num * unitsPerOne) ≤
        4 * (significandAt rank * spacing rank den) + 2 * spacing rank den := by
  obtain ⟨hlow, hhigh, -⟩ := h
  rw [low_mul] at hlow
  rw [high_mul] at hhigh
  refine ⟨?_, hhigh⟩
  split_ifs at hlow <;> omega

/-- A ratio in the interval has no more digits than the significand. -/
lemma lt_top (h : Within rank num den) (hden : 0 < den) :
    num * unitsPerOne < 2 * binade * spacing rank den := by
  have hhigh := h.bounds.2
  have hspacing := spacing_pos rank hden
  have hbelow : significandAt rank * spacing rank den + spacing rank den ≤
      2 * binade * spacing rank den := by
    rw [← Nat.succ_mul]
    exact Nat.mul_le_mul_right _ (significandAt_lt rank)
  omega

/-- A ratio in the interval of a rank above the first binade has as many digits as the
significand, or lies just below the first number of the binade. -/
lemma ge_bottom (h : Within rank num den) (hden : 0 < den) (hscale : 0 < scaleAt rank) :
    binade * spacing rank den ≤ num * unitsPerOne ∨
      significandAt rank = binade ∧
        4 * (binade * spacing rank den) ≤ 4 * (num * unitsPerOne) + spacing rank den := by
  have hlow := h.low_le
  rw [low_mul] at hlow
  rcases Nat.eq_or_lt_of_le (binade_le_significandAt hscale) with heq | hlt
  · rw [if_pos ⟨heq.symm, hscale⟩, ← heq] at hlow
    exact .inr ⟨heq.symm, by omega⟩
  · rw [if_neg fun h => absurd h.1 hlt.ne'] at hlow
    have hspacing := spacing_pos rank hden
    have habove : binade * spacing rank den + spacing rank den ≤
        significandAt rank * spacing rank den := by
      rw [← Nat.succ_mul]
      exact Nat.mul_le_mul_right _ hlt
    exact .inl (by omega)

end Within

/-- The binary digits of a ratio. -/
lemma log2_div_eq {scaled k : ℕ} (hden : 0 < den) (hlow : 2 ^ k * den ≤ scaled)
    (hhigh : scaled < 2 ^ (k + 1) * den) : Nat.log2 (scaled / den) = k := by
  have hle : 2 ^ k ≤ scaled / den := (Nat.le_div_iff_mul_le hden).mpr hlow
  have hne : scaled / den ≠ 0 := (Nat.lt_of_lt_of_le (Nat.two_pow_pos k) hle).ne'
  exact (Nat.log2_eq_iff hne).mpr ⟨hle, (Nat.div_lt_iff_lt_mul hden).mpr hhigh⟩

lemma log2_div_le {scaled k : ℕ} (hden : 0 < den) (hhigh : scaled < 2 ^ (k + 1) * den) :
    Nat.log2 (scaled / den) ≤ k := by
  rcases eq_or_ne (scaled / den) 0 with hzero | hne
  · rw [hzero]
    exact Nat.zero_le _
  · exact Nat.le_of_lt_succ ((Nat.log2_lt hne).mpr ((Nat.div_lt_iff_lt_mul hden).mpr hhigh))

/-- With the digits of the significand a ratio is rounded to the significand. -/
lemma nearestRank_of_log2 (hden : 0 < den) (h : Within rank num den)
    (hlog : Nat.log2 (num * unitsPerOne / den) - 52 = scaleAt rank) :
    nearestRank num den = rank := by
  obtain ⟨hlow, hhigh⟩ := h.bounds
  have hround : roundHalfEven (num * unitsPerOne) (spacing rank den) = significandAt rank := by
    refine roundHalfEven_eq (spacing_pos rank hden) (by omega) (by omega) fun htie => h.even ?_
    have hlow' := h.low_le
    rw [high_mul]
    rw [low_mul] at hlow' ⊢
    split_ifs at hlow' ⊢ <;> omega
  rw [nearestRank, hlog, Nat.mul_comm den]
  change scaleAt rank * binade + roundHalfEven (num * unitsPerOne) (spacing rank den) = rank
  rw [hround, scaleAt_mul_add]

/-- Just below the first number of a binade a ratio is rounded up to it. -/
lemma nearestRank_of_first (hden : 0 < den) (hscale : 0 < scaleAt rank)
    (hfirst : significandAt rank = binade)
    (hlow : 4 * (binade * spacing rank den) ≤ 4 * (num * unitsPerOne) + spacing rank den)
    (hhigh : num * unitsPerOne < binade * spacing rank den) : nearestRank num den = rank := by
  obtain ⟨s, hs⟩ : ∃ s, scaleAt rank = s + 1 := ⟨_, (Nat.sub_add_cancel hscale).symm⟩
  have hstep : spacing rank den = 2 * (den * 2 ^ s) := by
    rw [spacing, hs, Nat.pow_eq, Nat.pow_succ]
    ring
  have hpow : ∀ k, 2 ^ (52 + k) * den = binade * (den * 2 ^ k) := by
    intro k
    rw [binade, Nat.pow_add]
    ring
  have hpos : 0 < den * 2 ^ s := Nat.mul_pos hden (Nat.two_pow_pos s)
  rw [hstep, binade] at hlow hhigh
  have hlog : Nat.log2 (num * unitsPerOne / den) = 52 + s := by
    refine log2_div_eq hden ?_ ?_
    · rw [hpow, binade]
      omega
    · rw [Nat.add_assoc, hpow, Nat.pow_succ, ← Nat.mul_assoc den, binade]
      omega
  have hround : roundHalfEven (num * unitsPerOne) (den * 2 ^ s) = 2 * binade := by
    refine roundHalfEven_eq hpos ?_ ?_ fun _ => by decide
    · rw [binade]
      omega
    · rw [binade]
      omega
  have hrank := scaleAt_mul_add rank
  rw [nearestRank, hlog, Nat.add_sub_cancel_left]
  change s * binade + roundHalfEven (num * unitsPerOne) (den * 2 ^ s) = rank
  rw [hround, ← hrank, hs, hfirst]
  ring

/-- What is in the interval of a rank **rounds to the rank**. -/
theorem nearestRank_of_within (hden : 0 < den) (h : Within rank num den) :
    nearestRank num den = rank := by
  have hspacing : binade * spacing rank den = 2 ^ (52 + scaleAt rank) * den := by
    rw [spacing, binade, Nat.pow_add, Nat.mul_assoc]
    rfl
  have htop := h.lt_top hden
  rw [Nat.mul_assoc, hspacing, ← Nat.mul_assoc, ← Nat.pow_succ'] at htop
  rcases Nat.eq_zero_or_pos (scaleAt rank) with hzero | hscale
  · refine nearestRank_of_log2 hden h ?_
    have hle := log2_div_le hden htop
    omega
  rcases Nat.lt_or_ge (num * unitsPerOne) (binade * spacing rank den) with hlt | hge
  · obtain ⟨hfirst, hlow⟩ := (h.ge_bottom hden hscale).resolve_left (Nat.not_le.mpr hlt)
    exact nearestRank_of_first hden hscale hfirst hlow hlt
  · rw [hspacing] at hge
    refine nearestRank_of_log2 hden h ?_
    rw [log2_div_eq hden hge htop]
    omega

/-! ### Grids -/

/-- The number `digits · 10^exponent` as a ratio. -/
def ratio (digits : ℕ) (exponent : ℤ) : ℕ × ℕ :=
  if 0 ≤ exponent then (digits * Nat.pow 10 exponent.toNat, 1)
  else (digits, Nat.pow 10 (-exponent).toNat)

lemma ratio_pos (digits : ℕ) (exponent : ℤ) : 0 < (ratio digits exponent).2 := by
  rw [ratio]
  split_ifs
  · exact Nat.one_pos
  · exact Nat.pow_pos (by decide)

variable {p : ℤ} {d : ℕ}

/-- A ratio is in an interval if it is between the ends, which only belong to it if the
significand is even. -/
lemma within_iff : Within rank num den ↔
    if significandAt rank % 2 = 0 then
      (quarterInterval rank).1 * den ≤ 4 * (num * unitsPerOne) ∧
        4 * (num * unitsPerOne) ≤ (quarterInterval rank).2.2 * den
    else (quarterInterval rank).1 * den < 4 * (num * unitsPerOne) ∧
      4 * (num * unitsPerOne) < (quarterInterval rank).2.2 * den := by
  split_ifs with heven
  · exact ⟨fun h => ⟨h.low_le, h.le_high⟩, fun h => ⟨h.1, h.2, fun _ => heven⟩⟩
  · constructor
    · intro h
      exact ⟨Nat.lt_of_le_of_ne h.low_le fun heq => heven (h.even (.inl heq)),
        Nat.lt_of_le_of_ne h.le_high fun heq => heven (h.even (.inr heq))⟩
    · intro h
      exact ⟨h.1.le, h.2.le, fun hends => by omega⟩

lemma ratio_snd (d : ℕ) (p : ℤ) : (ratio d p).2 = gridStretch p := by
  rw [ratio, gridStretch]
  split_ifs <;> rfl

lemma ratio_fst_mul (d : ℕ) (p : ℤ) : 4 * ((ratio d p).1 * unitsPerOne) = d * gridStep p := by
  rw [ratio, gridStep]
  split_ifs
  · ring
  · ring

lemma isInside_iff :
    isInside rank p d = true ↔ 0 < d ∧ Within rank (ratio d p).1 (ratio d p).2 := by
  rw [within_iff, ratio_fst_mul, ratio_snd, isInside]
  split_ifs <;> simp

lemma choose?_cases {floor fromFloor toCeiling : ℕ} {hasFloor hasCeiling : Bool}
    (h : choose? floor fromFloor toCeiling hasFloor hasCeiling = some d) :
    hasFloor = true ∧ d = floor ∨ hasCeiling = true ∧ d = floor + 1 := by
  cases hasFloor <;> cases hasCeiling <;> simp only [choose?] at h
  · cases h
  · exact .inr ⟨rfl, (Option.some.inj h).symm⟩
  · exact .inl ⟨rfl, (Option.some.inj h).symm⟩
  · split_ifs at h with hfloor hceiling
    · exact .inl ⟨rfl, (Option.some.inj h).symm⟩
    · exact .inr ⟨rfl, (Option.some.inj h).symm⟩
    · have heq := (Option.some.inj h).symm
      rcases Nat.mod_two_eq_zero_or_one floor with hmod | hmod
      · exact .inl ⟨rfl, by rw [heq, hmod, Nat.add_zero]⟩
      · exact .inr ⟨rfl, by rw [heq, hmod]⟩

lemma exists_choose? (floor fromFloor toCeiling : ℕ) (hasFloor : Bool) :
    ∃ d, choose? floor fromFloor toCeiling hasFloor true = some d := by
  cases hasFloor
  · exact ⟨_, rfl⟩
  · simp only [choose?]
    split_ifs
    · exact ⟨_, rfl⟩
    · exact ⟨_, rfl⟩
    · exact ⟨_, rfl⟩

/-- A point of a grid that stands for the number at a rank is in its interval. -/
lemma within_of_gridPoint? (h : gridPoint? rank p = some d) :
    0 < d ∧ Within rank (ratio d p).1 (ratio d p).2 := by
  rw [gridPoint?] at h
  rcases choose?_cases h with ⟨hinside, rfl⟩ | ⟨hinside, rfl⟩
  · exact isInside_iff.mp hinside
  · exact isInside_iff.mp hinside

lemma unitsPerOne_pos : 0 < unitsPerOne := by decide +kernel

lemma gridStep_pos (p : ℤ) : 0 < gridStep p := by
  have hunits : 0 < 4 * unitsPerOne := Nat.mul_pos (by decide) unitsPerOne_pos
  rw [gridStep]
  split_ifs
  · exact Nat.mul_pos (Nat.pow_pos (by decide)) hunits
  · exact Nat.mul_pos Nat.one_pos hunits

/-- A grid whose step is smaller than half of an interval has a point in it. -/
lemma exists_gridPoint?_of_lt (h : gridStep p < 2 * spacing rank (gridStretch p)) :
    ∃ d, gridPoint? rank p = some d := by
  have hinside : isInside rank p ((quarterInterval rank).2.1 * gridStretch p / gridStep p + 1) =
      true := by
    rw [isInside_iff, within_iff, ratio_fst_mul, ratio_snd, low_mul, high_mul, centre_mul]
    refine ⟨Nat.succ_pos _, ?_⟩
    have hfloor := Nat.div_add_mod (4 * (significandAt rank * spacing rank (gridStretch p)))
      (gridStep p)
    have hmod := Nat.mod_lt (4 * (significandAt rank * spacing rank (gridStretch p)))
      (gridStep_pos p)
    rw [Nat.add_mul, Nat.one_mul, Nat.mul_comm _ (gridStep p)]
    split_ifs <;> omega
  rw [gridPoint?]
  simp only [hinside]
  exact exists_choose? _ _ _ _

/-! ### Reading -/

lemma spacing_le {k : ℕ} (h : scaleAt rank ≤ k) (den : ℕ) : spacing rank den ≤ 2 ^ k * den :=
  Nat.mul_le_mul_right den (Nat.pow_le_pow_right (by decide) h)

lemma le_spacing (rank den : ℕ) : den ≤ spacing rank den :=
  Nat.le_mul_of_pos_left den (Nat.pow_pos (by decide))

namespace Within

/-- No finite number reaches `10^309`. -/
lemma lt_max (h : Within rank num den) (hden : 0 < den) (hrank : rank < 2047 * binade) :
    num < 10 ^ 309 * den := by
  have hscale : scaleAt rank ≤ 2045 := by
    have hdiv := Nat.div_lt_of_lt_mul (Nat.mul_comm _ _ ▸ hrank)
    rw [scaleAt]
    omega
  have hmax : 2 * binade * 2 ^ 2045 ≤ 10 ^ 309 * unitsPerOne := by decide +kernel
  refine Nat.lt_of_mul_lt_mul_right (a := unitsPerOne) ?_
  calc num * unitsPerOne < 2 * binade * spacing rank den := h.lt_top hden
    _ ≤ 2 * binade * (2 ^ 2045 * den) := Nat.mul_le_mul_left _ (spacing_le hscale den)
    _ = 2 * binade * 2 ^ 2045 * den := (Nat.mul_assoc _ _ _).symm
    _ ≤ 10 ^ 309 * unitsPerOne * den := Nat.mul_le_mul_right den hmax
    _ = 10 ^ 309 * den * unitsPerOne := Nat.mul_right_comm _ _ _

/-- No number but zero is below `10^-324`. -/
lemma ge_min (h : Within rank num den) (hrank : rank ≠ 0) : den ≤ num * 10 ^ 324 := by
  have hmin : 2 * unitsPerOne ≤ 10 ^ 324 := by decide +kernel
  have hlow := h.bounds.1
  have hspacing : spacing rank den ≤ significandAt rank * spacing rank den :=
    Nat.le_mul_of_pos_left _ (significandAt_pos hrank)
  calc den ≤ spacing rank den := le_spacing rank den
    _ ≤ 2 * (num * unitsPerOne) := by omega
    _ = num * (2 * unitsPerOne) := Nat.mul_left_comm _ _ _
    _ ≤ num * 10 ^ 324 := Nat.mul_le_mul_left num hmin

end Within

/-- The number of digits. -/
lemma pow_le_of_length_toDigits (h : 0 < d) :
    10 ^ ((Nat.toDigits 10 d).length - 1) ≤ d ∧ d < 10 ^ (Nat.toDigits 10 d).length := by
  have hlength : ∀ {k}, 0 < k → ((Nat.toDigits 10 d).length ≤ k ↔ d < 10 ^ k) :=
    Nat.length_toDigits_le_iff (by decide)
  refine ⟨?_, (hlength Nat.length_toDigits_pos).mp (Nat.le_refl _)⟩
  rcases Nat.eq_zero_or_pos ((Nat.toDigits 10 d).length - 1) with hone | hmore
  · rw [hone, Nat.pow_zero]
    exact h
  · by_contra hlt
    have hle := (hlength hmore).mpr (Nat.lt_of_not_le hlt)
    omega

/-- The exponent of the leading digit of a decimal in the interval of a number. -/
lemma magnitude_bounds (hdigits : 0 < d) (hpos : rank ≠ 0) (hrank : rank < 2047 * binade)
    (h : Within rank (ratio d p).1 (ratio d p).2) :
    -330 ≤ p + (Nat.toDigits 10 d).length ∧ p + (Nat.toDigits 10 d).length ≤ 330 := by
  have hmax := h.lt_max (ratio_pos d p) hrank
  have hmin := h.ge_min hpos
  obtain ⟨hlow, hhigh⟩ := pow_le_of_length_toDigits hdigits
  have hpow : ∀ {j k : ℕ}, 10 ^ j < 10 ^ k → j < k :=
    fun hlt => (Nat.pow_lt_pow_iff_right (by decide)).mp hlt
  generalize (Nat.toDigits 10 d).length = length at *
  simp only [ratio, Nat.pow_eq] at hmax hmin
  split_ifs at hmax hmin with hp
  · rw [Nat.mul_one] at hmax
    have hlt : 10 ^ (length - 1 + p.toNat) < 10 ^ 309 := by
      rw [pow_add]
      exact Nat.lt_of_le_of_lt (Nat.mul_le_mul_right _ hlow) hmax
    have hexponent := hpow hlt
    omega
  · have hlt : 10 ^ (length - 1) < 10 ^ (309 + (-p).toNat) := by
      rw [pow_add]
      exact Nat.lt_of_le_of_lt hlow hmax
    have hlt' : 10 ^ (-p).toNat < 10 ^ (length + 324) := by
      rw [pow_add]
      exact Nat.lt_of_le_of_lt hmin (Nat.mul_lt_mul_of_pos_right hhigh (by decide +kernel))
    have hexponent := hpow hlt
    have hexponent' := hpow hlt'
    omega

/-- A decimal in the interval of a number is read as the number. -/
theorem ofDecimal?_of_within (negative : Bool) (hdigits : 0 < d) (hpos : rank ≠ 0)
    (hrank : rank < 2047 * binade) (h : Within rank (ratio d p).1 (ratio d p).2) :
    ofDecimal? negative d p = some ⟨negative, rank, hrank⟩ := by
  obtain ⟨hlow, hhigh⟩ := magnitude_bounds hdigits hpos hrank h
  have hnearest := nearestRank_of_within (ratio_pos d p) h
  rw [ratio] at hnearest
  rw [ofDecimal?, if_neg (by omega), if_neg (by omega)]
  split_ifs at hnearest ⊢
  · rw [hnearest, ofRank?, dif_pos hrank]
  · rw [hnearest, ofRank?, dif_pos hrank]

/-- A ratio in another form. -/
lemma Within.mul_right {k : ℕ} (h : Within rank num den) (hk : 0 < k) :
    Within rank (num * k) (den * k) := by
  have hlow : (quarterInterval rank).1 * (den * k) = (quarterInterval rank).1 * den * k :=
    (Nat.mul_assoc _ _ _).symm
  have hhigh : (quarterInterval rank).2.2 * (den * k) = (quarterInterval rank).2.2 * den * k :=
    (Nat.mul_assoc _ _ _).symm
  have hnum : 4 * (num * k * unitsPerOne) = 4 * (num * unitsPerOne) * k := by ring
  constructor
  · rw [hlow, hnum]
    exact Nat.mul_le_mul_right k h.low_le
  · rw [hhigh, hnum]
    exact Nat.mul_le_mul_right k h.le_high
  · rw [hlow, hhigh, hnum, Nat.mul_left_inj hk.ne', Nat.mul_left_inj hk.ne']
    exact h.even

/-- Zeros at the end of the digits of a decimal. -/
lemma within_shift (h : Within rank (ratio d p).1 (ratio d p).2) (k : ℕ) :
    Within rank (ratio (d * 10 ^ k) (p - k)).1 (ratio (d * 10 ^ k) (p - k)).2 := by
  simp only [ratio, Nat.pow_eq] at h ⊢
  split_ifs at h ⊢ with hshift hp hp
  · have hexponent : p.toNat = k + (p - k).toNat := by omega
    rwa [hexponent, pow_add, ← Nat.mul_assoc] at h
  · omega
  · have hexponent : k = p.toNat + (-(p - k)).toNat := by omega
    have hmul := h.mul_right (Nat.pow_pos (n := (-(p - k)).toNat) (by decide : 0 < 10))
    rwa [Nat.mul_assoc, ← pow_add, ← hexponent, Nat.one_mul] at hmul
  · have hexponent : (-(p - k)).toNat = (-p).toNat + k := by omega
    rw [hexponent, pow_add]
    exact h.mul_right (Nat.pow_pos (by decide))

/-! ### The shortest decimal -/

/-- Some grid has a point in the interval of a rank: the finest one does. -/
lemma exists_gridPoint?_mem (rank : ℕ) : ∃ p ∈ gridExponents, ∃ d, gridPoint? rank p = some d := by
  refine ⟨-350, ?_, exists_gridPoint?_of_lt ?_⟩
  · exact List.mem_map.mpr ⟨659, List.mem_range.mpr (by decide), rfl⟩
  · have hstep : gridStep (-350) < 2 * gridStretch (-350) := by decide +kernel
    have hspacing := le_spacing rank (gridStretch (-350))
    omega

/-- The shortest decimal of a number is in the interval of its rank. -/
lemma within_shortest (rank : ℕ) : 0 < (shortest rank).digits ∧
    Within rank (ratio (shortest rank).digits (shortest rank).exponent).1
      (ratio (shortest rank).digits (shortest rank).exponent).2 := by
  obtain ⟨p, hp, d, hd⟩ := exists_gridPoint?_mem rank
  cases hfind : gridExponents.findSome? fun p => (gridPoint? rank p).map fun d => Decimal.mk d p with
  | none => exact absurd (List.findSome?_eq_none_iff.mp hfind p hp) (by simp [hd])
  | some decimal =>
    obtain ⟨q, -, hq⟩ := List.exists_of_findSome?_eq_some hfind
    obtain ⟨e, he, rfl⟩ := Option.map_eq_some_iff.mp hq
    rw [shortest, hfind]
    exact within_of_gridPoint? he

/-- **The shortest decimal** of a number is read as the number, also with zeros at the end
of its digits. -/
theorem ofDecimal?_shortest (x : Double) (h : x.rank ≠ 0) (k : ℕ) :
    ofDecimal? x.negative ((shortest x.rank).digits * 10 ^ k) ((shortest x.rank).exponent - k) =
      some x := by
  obtain ⟨hdigits, hwithin⟩ := within_shortest x.rank
  exact ofDecimal?_of_within x.negative (Nat.mul_pos hdigits (Nat.pow_pos (by decide))) h x.finite
    (within_shift hwithin k)

end Double

end PageTree
