/-
What a YAML scalar stands for, by its text and its tag.

A plain scalar without a tag is null, a boolean, an integer or a
floating-point number if it is written like one, and a string otherwise; a
quoted one is a string. Decimal digits after a leading zero stay a string.
The tags of the core types demand a text of their type, any other tag of
another namespace makes a string, and a tag of the document's own namespace
is refused. Infinities and undefined numbers have no value of their own and
become null.

* `Yaml.integer?`, `Yaml.double?`: the numeric forms;
* `Yaml.scalarValue?`: the value of a scalar.
-/
import PageTree.Value
import PageTree.Text.Digits

namespace PageTree

namespace Yaml

/-! ### Simple types -/

/-- The texts of null, besides the empty one. -/
def isNull (text : List Char) : Bool :=
  text ∈ ["null".toList, "Null".toList, "NULL".toList, "~".toList]

/-- The texts of the booleans. -/
def bool? (text : List Char) : Option Bool :=
  if text ∈ ["true".toList, "True".toList, "TRUE".toList] then some true
  else if text ∈ ["false".toList, "False".toList, "FALSE".toList] then some false
  else none

/-! ### Numbers -/

/-- Digits with a leading zero, which are not a number. -/
def isZeroPadded (text : List Char) : Bool :=
  let digits := match text with
    | '-' :: rest | '+' :: rest => rest
    | rest => rest
  match digits with
  | '0' :: d :: rest => (d :: rest).all Char.isDigit
  | _ => false

/-- The digits and the base of an integer without sign. -/
def basedInteger? (text : List Char) : Option Nat :=
  match text with
  | '0' :: 'x' :: ds => Digits.numberIn? 16 ds
  | '0' :: 'o' :: ds => Digits.numberIn? 8 ds
  | '0' :: 'b' :: ds => Digits.numberIn? 2 ds
  | ds => Digits.numberIn? 10 ds

/-- The integer that a text writes, of any size. -/
def integer? (text : List Char) : Option Int :=
  if isZeroPadded text then none
  else
    match text with
    | '+' :: rest => (basedInteger? rest).map Int.ofNat
    | '-' :: rest => (basedInteger? rest).map fun n => -(n : Int)
    | rest => (basedInteger? rest).map Int.ofNat

/-- The integers too large for a value that are still refused as integers;
still larger ones are read as floating-point numbers. -/
def isLongInteger (i : Int) : Bool :=
  -170141183460469231731687303715884105728 ≤ i && i < 340282366920938463463374607431768211456

/-- Digits, a point and an exponent, without sign; there must be a digit on
one side of the point. -/
def unsignedDecimal? (text : List Char) : Option (Nat × Int) :=
  let (whole, rest) := Digits.span text
  let (fraction, rest) := match rest with
    | '.' :: rest => Digits.span rest
    | rest => ([], rest)
  if whole = [] ∧ fraction = [] then none
  else
    match rest with
    | [] => some (Digits.decimal whole fraction 0)
    | e :: rest =>
      if e = 'e' ∨ e = 'E' then
        let (negative, rest) := match rest with
          | '-' :: rest => (true, rest)
          | '+' :: rest => (false, rest)
          | rest => (false, rest)
        (Digits.numberIn? 10 rest).map fun n =>
          Digits.decimal whole fraction (if negative then -(n : Int) else n)
      else none

/-- A text that writes a floating-point number: nothing when it writes none,
and no number when it writes an infinity or an undefined one. -/
def double? (text : List Char) : Option (Option Double) :=
  if text ∈ [".inf", ".Inf", ".INF", "+.inf", "+.Inf", "+.INF", "-.inf", "-.Inf", "-.INF",
      ".nan", ".NaN", ".NAN"].map String.toList then some none
  else
    let (negative, rest) := match text with
      | '-' :: rest => (true, rest)
      | '+' :: rest => (false, rest)
      | rest => (false, rest)
    match unsignedDecimal? rest with
    | none => none
    | some (digits, exponent) => (Double.ofDecimal? negative digits exponent).map some

/-- The value of a floating-point number or of what stands for none. -/
def doubleValue : Option Double → Value
  | some x => .num (.double x)
  | none => .null

/-! ### Values of scalars -/

/-- The value of a plain scalar without a tag, if its text is allowed. -/
def plainValue? (text : List Char) : Option Value :=
  if text = [] ∨ isNull text then some .null
  else
    match bool? text, integer? text with
    | some b, _ => some (.bool b)
    | none, some i =>
      match Number.ofInt? i with
      | some n => some (.num n)
      | none =>
        if isLongInteger i then none
        else some (match double? text with
          | some x => doubleValue x
          | none => .str (String.ofList text))
    | none, none =>
      if isZeroPadded text then some (.str (String.ofList text))
      else some (match double? text with
        | some x => doubleValue x
        | none => .str (String.ofList text))

/-- The namespace of the core types. -/
def coreNamespace : List Char := "tag:yaml.org,2002:".toList

/-- The value of a scalar with a text, a style and a tag. -/
def scalarValue? (text : List Char) (plain : Bool) (tag : Option (List Char)) : Option Value :=
  match tag with
  | none => if plain then plainValue? text else some (.str (String.ofList text))
  | some tag =>
    if tag.head? = some '!' then none
    else if tag = coreNamespace ++ "bool".toList then (bool? text).map .bool
    else if tag = coreNamespace ++ "int".toList then
      ((integer? text).bind Number.ofInt?).map .num
    else if tag = coreNamespace ++ "float".toList then (double? text).map doubleValue
    else if tag = coreNamespace ++ "null".toList then
      if isNull text then some .null else none
    else some (.str (String.ofList text))

end Yaml

end PageTree
