/-
The tokens of JSON text: punctuation, literals, numbers and strings.

Blanks between tokens are the space, the tab, the line feed and the carriage
return. A number keeps to the grammar of JSON; one without fraction and
exponent that fits 64 bits is an integer, every other one, negative zero
included, the nearest floating-point number. In a string a `\u` escape that is
half of a surrogate pair must stand before the other half.

* `Json.readString`: the rest of a string, after its opening quote;
* `Json.readNumber`: a number at the front of a text;
* `Json.tokens?`: the tokens of a whole text.
-/
import PageTree.Value
import PageTree.Text.Digits

namespace PageTree

namespace Json

/-- A token of JSON text. -/
inductive Token where
  | openArray
  | closeArray
  | openObject
  | closeObject
  | comma
  | colon
  | null
  | bool (b : Bool)
  | num (n : Number)
  | str (s : String)
deriving DecidableEq

/-! ### Strings -/

/-- The value of four hexadecimal digits. -/
def hex4? (a b c d : Char) : Option Nat := Digits.numberIn? 16 [a, b, c, d]

/-- The character of a letter after a backslash. -/
def unescape? : Char → Option Char
  | '"' => some '"'
  | '\\' => some '\\'
  | '/' => some '/'
  | 'b' => some '\x08'
  | 'f' => some '\x0c'
  | 'n' => some '\n'
  | 'r' => some '\r'
  | 't' => some '\t'
  | _ => none

/-- The character of two surrogate halves. -/
def joinSurrogates (high low : Nat) : Char :=
  Char.ofNat (0x10000 + (high - 0xD800) * 0x400 + (low - 0xDC00))

/-- The characters of a string up to its closing quote, and what follows. -/
def readString : List Char → Option (List Char × List Char)
  | [] => none
  | '"' :: rest => some ([], rest)
  | '\\' :: 'u' :: a :: b :: c :: d :: rest =>
    match hex4? a b c d with
    | none => none
    | some high =>
      if high < 0xD800 ∨ 0xDFFF < high then
        (readString rest).map fun (s, r) => (Char.ofNat high :: s, r)
      else if 0xDC00 ≤ high then none
      else
        match rest with
        | '\\' :: 'u' :: e :: f :: g :: h :: rest =>
          match hex4? e f g h with
          | none => none
          | some low =>
            if low < 0xDC00 ∨ 0xDFFF < low then none
            else (readString rest).map fun (s, r) => (joinSurrogates high low :: s, r)
        | _ => none
  | '\\' :: c :: rest =>
    match unescape? c with
    | none => none
    | some c => (readString rest).map fun (s, r) => (c :: s, r)
  | c :: rest =>
    if c.toNat < 0x20 then none
    else (readString rest).map fun (s, r) => (c :: s, r)

/-! ### Numbers -/

/-- The fraction at the front of a text: its digits, none when there is no
point. -/
def readFraction : List Char → Option (Option (List Char) × List Char)
  | '.' :: rest =>
    let (ds, rest) := Digits.span rest
    if ds = [] then none else some (some ds, rest)
  | rest => some (none, rest)

/-- The exponent at the front of a text. -/
def readExponent : List Char → Option (Option Int × List Char)
  | [] => some (none, [])
  | c :: rest =>
    if c = 'e' ∨ c = 'E' then
      let (negative, rest) :=
        match rest with
        | '-' :: rest => (true, rest)
        | '+' :: rest => (false, rest)
        | rest => (false, rest)
      let (ds, rest) := Digits.span rest
      if ds = [] then none
      else some (some (if negative then -(Digits.number ds : Int) else Digits.number ds), rest)
    else some (none, c :: rest)

/-- The number of a literal. -/
def literal? (negative : Bool) (whole : List Char) (fraction : Option (List Char))
    (exponent : Option Int) : Option Number :=
  let n := Digits.number whole
  let integer? : Option Number :=
    if fraction.isSome ∨ exponent.isSome ∨ (negative ∧ n = 0) then none
    else Number.ofInt? (if negative then -(n : Int) else n)
  match integer? with
  | some i => some i
  | none =>
    let (digits, power) := Digits.decimal whole (fraction.getD []) (exponent.getD 0)
    (Double.ofDecimal? negative digits power).map .double

/-- A number at the front of a text, after its sign, and what follows. -/
def readNumber (negative : Bool) (cs : List Char) : Option (Number × List Char) := do
  let (whole, rest) ← match cs with
    | '0' :: rest => some (['0'], rest)
    | cs =>
      let (ds, rest) := Digits.span cs
      if ds = [] then none else some (ds, rest)
  let (fraction, rest) ← readFraction rest
  let (exponent, rest) ← readExponent rest
  let n ← literal? negative whole fraction exponent
  return (n, rest)

/-! ### Tokens -/

/-- Blanks between tokens. -/
def isBlank (c : Char) : Bool := c = ' ' || c = '\t' || c = '\n' || c = '\r'

/-- The token at the front of a text that does not start with a blank, and
what follows. -/
def readToken : List Char → Option (Token × List Char)
  | '[' :: rest => some (.openArray, rest)
  | ']' :: rest => some (.closeArray, rest)
  | '\x7b' :: rest => some (.openObject, rest)
  | '\x7d' :: rest => some (.closeObject, rest)
  | ',' :: rest => some (.comma, rest)
  | ':' :: rest => some (.colon, rest)
  | 'n' :: 'u' :: 'l' :: 'l' :: rest => some (.null, rest)
  | 't' :: 'r' :: 'u' :: 'e' :: rest => some (.bool true, rest)
  | 'f' :: 'a' :: 'l' :: 's' :: 'e' :: rest => some (.bool false, rest)
  | '"' :: rest => (readString rest).map fun (s, r) => (.str (String.ofList s), r)
  | '-' :: rest => (readNumber true rest).map fun (n, r) => (.num n, r)
  | rest => (readNumber false rest).map fun (n, r) => (.num n, r)

/-- The tokens of a text, with a bound on their number. -/
def tokensWithin : Nat → List Char → Option (List Token)
  | 0, _ => none
  | bound + 1, cs =>
    match cs.dropWhile isBlank with
    | [] => some []
    | c :: rest =>
      match readToken (c :: rest) with
      | none => none
      | some (t, rest) => (tokensWithin bound rest).map (t :: ·)

/-- The tokens of a text, unless it holds something else. A text has no more
tokens than characters. -/
def tokens? (text : String) : Option (List Token) :=
  tokensWithin (text.toList.length + 1) text.toList

end Json

end PageTree
