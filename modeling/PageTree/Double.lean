/-
Finite binary floating-point numbers of 64 bits, in exact integer arithmetic.

A number is a sign and a rank, its place in the increasing list of the
non-negative finite numbers: rank `0` is zero and rank `1` the smallest
positive number, `2^-1074`. Every finite number is a whole multiple of that
unit, so no operation here leaves the integers.

* `Double.unitsAt`: the number at a rank, counted in units of `2^-1074`;
* `Double.nearestRank`: the rank nearest to a ratio, a tie going to the even
  rank, which is the rounding of every reader and of every product;
* `Double.ofDecimal?`: the number nearest to `digits · 10^exponent`;
* `Double.position`: the sort key, a whole number, in which the two zeros
  coincide.
-/
namespace PageTree

/-- How many numbers a binade holds: `2^52`. -/
def Double.binade : Nat := 4503599627370496

/-- A finite floating-point number: its sign, and its place among the
non-negative finite numbers in increasing order. -/
structure Double where
  negative : Bool
  rank : Nat
  finite : rank < 2047 * Double.binade
deriving DecidableEq

namespace Double

/-! ### Ranks and units -/

/-- The significand of the number at a rank. Ranks in the first binade are
significands themselves. -/
def significandAt (rank : Nat) : Nat :=
  if rank < binade then rank else binade + rank % binade

/-- The power of two by which the significand at a rank is scaled. -/
def scaleAt (rank : Nat) : Nat := rank / binade - 1

/-- The number at a rank, in units of `2^-1074`. -/
def unitsAt (rank : Nat) : Nat := significandAt rank * Nat.pow 2 (scaleAt rank)

/-- How many units make one. -/
def unitsPerOne : Nat := Nat.pow 2 1074

/-- The quotient rounded to the nearest integer, a half to the even one. -/
def roundHalfEven (num den : Nat) : Nat :=
  let quotient := num / den
  let twice := 2 * (num % den)
  if twice < den then quotient
  else if den < twice then quotient + 1
  else quotient + quotient % 2

/-- The rank of the number nearest to `num / den`, a tie going to the even
rank. Ranks past the last finite number stand for an overflow. -/
def nearestRank (num den : Nat) : Nat :=
  let scaled := num * unitsPerOne
  let scale := Nat.log2 (scaled / den) - 52
  scale * binade + roundHalfEven scaled (den * Nat.pow 2 scale)

/-! ### Making numbers -/

/-- The number with a sign and a rank, unless the rank is past the last
finite number. -/
def ofRank? (negative : Bool) (rank : Nat) : Option Double :=
  if h : rank < 2047 * binade then some ⟨negative, rank, h⟩ else none

/-- Zero, of either sign. -/
def zero (negative : Bool) : Double := ⟨negative, 0, by decide⟩

/-- The number nearest to `± digits · 10^exponent`, or nothing on overflow.
Exponents far out of range are answered without computing the power. -/
def ofDecimal? (negative : Bool) (digits : Nat) (exponent : Int) : Option Double :=
  let magnitude := exponent + (Nat.toDigits 10 digits).length
  if digits = 0 ∨ magnitude < -330 then some (zero negative)
  else if 330 < magnitude then none
  else if 0 ≤ exponent then ofRank? negative (nearestRank (digits * Nat.pow 10 exponent.toNat) 1)
  else ofRank? negative (nearestRank digits (Nat.pow 10 (-exponent).toNat))

/-! ### Order -/

/-- The place of a signed rank in the order of all numbers. -/
def signedPlace (negative : Bool) (rank : Nat) : Int :=
  if negative then -(rank : Int) else rank

/-- The place of a number in the order of all numbers; both zeros are at `0`. -/
def position (x : Double) : Int := signedPlace x.negative x.rank

/-- The place of the number nearest to an integer. -/
def positionOfInt (i : Int) : Int := signedPlace (decide (i < 0)) (nearestRank i.natAbs 1)

/-! ### Whole parts -/

/-- The whole part of `1000 · x`, the product being rounded to a number
first; the sign is kept and the fraction cut off. -/
def thousandfold (x : Double) : Int :=
  let whole := unitsAt (nearestRank (unitsAt x.rank * 1000) unitsPerOne) / unitsPerOne
  if x.negative then -(whole : Int) else whole

end Double

end PageTree
