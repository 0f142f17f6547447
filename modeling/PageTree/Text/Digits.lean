/-
Digits: reading whole numbers off the front of a text.

* `Digits.value?`: the value of a character as a digit in bases up to 36;
* `Digits.number`: the number that a list of decimal digits writes;
* `Digits.numberIn?`: the number written in some base, which must be a
  non-empty list of its digits.
-/
namespace PageTree

namespace Digits

/-- The value of a character as a digit: decimal digits, then letters of
either case from ten on. -/
def value? (c : Char) : Option Nat :=
  if '0' ≤ c ∧ c ≤ '9' then some (c.toNat - '0'.toNat)
  else if 'a' ≤ c ∧ c ≤ 'z' then some (c.toNat - 'a'.toNat + 10)
  else if 'A' ≤ c ∧ c ≤ 'Z' then some (c.toNat - 'A'.toNat + 10)
  else none

/-- Whether a character is a digit of a base. -/
def isDigitIn (base : Nat) (c : Char) : Bool :=
  match value? c with
  | some d => d < base
  | none => false

/-- The value of a list of digits, other characters counting as zero. -/
def numberFrom (base : Nat) (start : Nat) (ds : List Char) : Nat :=
  ds.foldl (fun n c => base * n + (value? c).getD 0) start

/-- The number that a list of decimal digits writes. -/
def number (ds : List Char) : Nat := numberFrom 10 0 ds

/-- The number that a non-empty list of digits of a base writes. -/
def numberIn? (base : Nat) (ds : List Char) : Option Nat :=
  if ds ≠ [] ∧ ds.all (isDigitIn base) then some (numberFrom base 0 ds) else none

/-- The decimal digits at the front of a text, and the rest. -/
def span (cs : List Char) : List Char × List Char :=
  (cs.takeWhile Char.isDigit, cs.dropWhile Char.isDigit)

end Digits

/-! ### Number literals -/

/-- The floating-point number written by a sign, digits before and after the
point, and an exponent; nothing if it is too large. -/
def Digits.decimal (whole fraction : List Char) (exponent : Int) : Nat × Int :=
  (Digits.number (whole ++ fraction), exponent - fraction.length)

end PageTree
