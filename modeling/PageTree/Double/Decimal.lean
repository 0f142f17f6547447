/-
The decimal text of a floating-point number: the fewest digits that read back.

The reals that round to a number form an interval around it, closed when its
significand is even. The text shows a point of the coarsest grid `10^p · ℕ`
that meets this interval: of the two neighbours of the number on that grid the
one inside, of two the nearer, and at a tie the even one.

* `Double.Decimal`: digits and a power of ten;
* `Double.shortest`: the decimal chosen by the rule above;
* `Double.text`: plain notation with at least one decimal for
  `1e-5 ≤ |x| < 1e16`, and an exponent with its sign otherwise.
-/
import PageTree.Double

namespace PageTree

namespace Double

/-- The number `digits · 10^exponent`. -/
structure Decimal where
  digits : Nat
  exponent : Int
deriving DecidableEq

/-! ### The shortest digits -/

/-- The interval of reals that round to the number at a rank, in quarter
units: lower end, the number, upper end. Below the first number of a binade
the neighbour is only half as far away. -/
def quarterInterval (rank : Nat) : Nat × Nat × Nat :=
  let gap := Nat.pow 2 (scaleAt rank)
  let centre := 4 * unitsAt rank
  let below := if significandAt rank = binade ∧ 0 < scaleAt rank then gap else 2 * gap
  (centre - below, centre, centre + 2 * gap)

/-- The factor by which an interval is stretched for the points of the grid
`10^p` to be whole. -/
def gridStretch (p : Int) : Nat := if 0 ≤ p then 1 else Nat.pow 10 (-p).toNat

/-- The distance between neighbouring points of the grid `10^p`, in quarter
units, after stretching. -/
def gridStep (p : Int) : Nat := (if 0 ≤ p then Nat.pow 10 p.toNat else 1) * (4 * unitsPerOne)

/-- Whether the point `d · 10^p` lies inside the interval of a rank. -/
def isInside (rank : Nat) (p : Int) (d : Nat) : Bool :=
  let low := (quarterInterval rank).1 * gridStretch p
  let high := (quarterInterval rank).2.2 * gridStretch p
  let point := d * gridStep p
  0 < d && (if significandAt rank % 2 = 0 then low ≤ point && point ≤ high
    else low < point && point < high)

/-- Of the whole numbers below and above a place the one that may be taken; of
two the nearer, and at a tie the even one. -/
def choose? (floor fromFloor toCeiling : Nat) (hasFloor hasCeiling : Bool) : Option Nat :=
  match hasFloor, hasCeiling with
  | false, false => none
  | true, false => some floor
  | false, true => some (floor + 1)
  | true, true =>
    if fromFloor < toCeiling then some floor
    else if toCeiling < fromFloor then some (floor + 1)
    else some (floor + floor % 2)

/-- The point of the grid `10^p` that stands for the number at a rank, if a
neighbour of the number on that grid lies inside its interval. -/
def gridPoint? (rank : Nat) (p : Int) : Option Nat :=
  let centre := (quarterInterval rank).2.1 * gridStretch p
  let floor := centre / gridStep p
  choose? floor (centre - floor * gridStep p) ((floor + 1) * gridStep p - centre)
    (isInside rank p floor) (isInside rank p (floor + 1))

/-- The exponents of the grids to try, coarsest first: every number has a
point on one of them. -/
def gridExponents : List Int := (List.range 660).map fun i => 309 - (Int.ofNat i)

/-- The decimal with the fewest digits that rounds to the number at a
positive rank. -/
def shortest (rank : Nat) : Decimal :=
  (gridExponents.findSome? fun p => (gridPoint? rank p).map (⟨·, p⟩)).getD ⟨0, 0⟩

/-! ### Notation -/

/-- The exponent of the leading digit below which and from which on numbers
are written with an exponent. -/
def plainRange : Int × Int := (-5, 16)

/-- A decimal without sign, in the notation of `plainRange`. -/
def Decimal.text (d : Decimal) : String :=
  let ds := Nat.toDigits 10 d.digits
  let leading := d.exponent + (ds.length : Int) - 1
  if plainRange.1 ≤ leading ∧ leading < plainRange.2 then
    if 0 ≤ d.exponent then
      String.ofList (ds ++ List.replicate d.exponent.toNat '0') ++ ".0"
    else if 0 ≤ leading then
      let whole := (leading + 1).toNat
      String.ofList (ds.take whole) ++ "." ++ String.ofList (ds.drop whole)
    else
      "0." ++ String.ofList (List.replicate (-leading - 1).toNat '0' ++ ds)
  else
    let fraction := if ds.length ≤ 1 then "" else "." ++ String.ofList (ds.drop 1)
    let sign := if leading < 0 then "-" else "+"
    String.ofList (ds.take 1) ++ fraction ++ "e" ++ sign ++ toString leading.natAbs

/-- The text of a number: its shortest decimal, after its sign. -/
def text (x : Double) : String :=
  let sign := if x.negative then "-" else ""
  if x.rank = 0 then sign ++ "0.0" else sign ++ (shortest x.rank).text

end Double

end PageTree
