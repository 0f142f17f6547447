/-
The scalars of TOML text: strings, numbers, and dates with times.

Every function reads from the front of a text and gives what it read with the
rest; a text that starts like the scalar but does not keep to its form is
refused.

* `Toml.string?`: the four kinds of strings;
* `Toml.dateTime?`: dates, times, or both, with or without an offset, as the
  text that they are written back in;
* `Toml.number?`: integers of 64 bits with sign, and floating-point numbers.
-/
import PageTree.Value
import PageTree.Text.Digits

namespace PageTree

namespace Toml

/-! ### Blanks, breaks and comments -/

/-- Spaces and tabs. -/
def isBlank (c : Char) : Bool := c = ' ' || c = '\t'

/-- Characters that stand for themselves in strings and comments: no control
characters except the tab. -/
def isPrintable (c : Char) : Bool := c = '\t' || (' ' ≤ c && c ≠ '\x7f')

/-- Past blanks. -/
def skipBlanks (cs : List Char) : List Char := cs.dropWhile isBlank

/-- Past a line break. -/
def break? : List Char → Option (List Char)
  | '\n' :: rest | '\r' :: '\n' :: rest => some rest
  | _ => none

/-- Past a comment, if one is next, up to the end of its line. -/
def skipComment : List Char → List Char
  | '#' :: rest => rest.dropWhile isPrintable
  | rest => rest

/-- Past the rest of a line, which may hold blanks and a comment. -/
def finishLine? (cs : List Char) : Option (List Char) :=
  match skipComment (skipBlanks cs) with
  | [] => some []
  | rest => break? rest

/-- Past blanks, line breaks and comments. -/
def skipLines : Nat → List Char → List Char
  | 0, cs => cs
  | bound + 1, cs =>
    let cs := skipComment (skipBlanks cs)
    match break? cs with
    | some rest => skipLines bound rest
    | none => cs

/-! ### Strings -/

/-- The character of a one-letter escape. -/
def escape? : Char → Option Char
  | 'b' => some '\x08'
  | 't' => some '\t'
  | 'n' => some '\n'
  | 'f' => some '\x0c'
  | 'r' => some '\r'
  | '"' => some '"'
  | '\\' => some '\\'
  | _ => none

/-- The character written by exactly `width` hexadecimal digits. -/
def charOfDigits? (width : Nat) (cs : List Char) : Option Char :=
  let ds := cs.take width
  if ds.length < width then none
  else
    match Digits.numberIn? 16 ds with
    | none => none
    | some n =>
      if (0xD800 ≤ n ∧ n ≤ 0xDFFF) ∨ 0x10FFFF < n then none else some (Char.ofNat n)

/-- The character of an escape, after its backslash, and how many characters
the escape takes. -/
def escaped? : List Char → Option (Char × Nat)
  | 'u' :: rest => (charOfDigits? 4 rest).map (·, 5)
  | 'U' :: rest => (charOfDigits? 8 rest).map (·, 9)
  | c :: _ => (escape? c).map (·, 1)
  | [] => none

/-- The rest of a basic string on one line. -/
def basic? : Nat → List Char → Option (List Char × List Char)
  | 0, _ => none
  | bound + 1, cs =>
    match cs with
    | [] => none
    | '"' :: rest => some ([], rest)
    | '\\' :: rest =>
      match escaped? rest with
      | none => none
      | some (c, width) => (basic? bound (rest.drop width)).map fun (s, r) => (c :: s, r)
    | c :: rest =>
      if isPrintable c then (basic? bound rest).map fun (s, r) => (c :: s, r) else none

/-- The rest of a literal string on one line. -/
def literal? (cs : List Char) : Option (List Char × List Char) :=
  let (s, rest) := cs.span fun c => isPrintable c && c ≠ '\''
  match rest with
  | '\'' :: rest => some (s, rest)
  | _ => none

/-- Past blanks and line breaks. -/
def skipBreaks : Nat → List Char → List Char
  | 0, cs => cs
  | bound + 1, cs =>
    let cs := skipBlanks cs
    match break? cs with
    | some rest => skipBreaks bound rest
    | none => cs

/-- The rest of a string on several lines: up to two quotes may stand inside,
also right before the closing three. A backslash at the end of a line of a
basic string takes the break and the blanks after it away. -/
def multiline? (quote : Char) : Nat → List Char → Option (List Char × List Char)
  | 0, _ => none
  | bound + 1, cs =>
    match cs with
    | [] => none
    | c :: rest =>
      if c = quote then
        let run := (cs.takeWhile (· = quote)).length
        if run < 3 then
          (multiline? quote bound (cs.drop run)).map fun (s, r) =>
            (List.replicate run quote ++ s, r)
        else if run ≤ 5 then some (List.replicate (run - 3) quote, cs.drop run)
        else none
      else if c = '\\' ∧ quote = '"' then
        match break? (skipBlanks rest) with
        | some after => multiline? quote bound (skipBreaks (after.length + 1) after)
        | none =>
          match escaped? rest with
          | none => none
          | some (c, width) =>
            (multiline? quote bound (rest.drop width)).map fun (s, r) => (c :: s, r)
      else
        match break? cs with
        | some after => (multiline? quote bound after).map fun (s, r) => ('\n' :: s, r)
        | none =>
          if isPrintable c then
            (multiline? quote bound rest).map fun (s, r) => (c :: s, r)
          else none
/-- The string that starts here with its quote. -/
def string? (cs : List Char) : Option (String × List Char) :=
  let afterBreak (cs : List Char) : List Char := (break? cs).getD cs
  let bound := cs.length + 1
  let body := match cs with
    | '"' :: '"' :: '"' :: rest => multiline? '"' bound (afterBreak rest)
    | '\'' :: '\'' :: '\'' :: rest => multiline? '\'' bound (afterBreak rest)
    | '"' :: rest => basic? bound rest
    | '\'' :: rest => literal? rest
    | _ => none
  body.map fun (s, rest) => (String.ofList s, rest)

/-! ### Dates and times -/

/-- Exactly `width` digits. -/
def digits? (width : Nat) (cs : List Char) : Option (List Char × List Char) :=
  let ds := cs.take width
  if ds.length = width ∧ ds.all Char.isDigit then some (ds, cs.drop width) else none

/-- Exactly two digits that write a number between two others. -/
def pair? (low high : Nat) (cs : List Char) : Option (List Char × List Char) :=
  (digits? 2 cs).filter fun (ds, _) => low ≤ Digits.number ds ∧ Digits.number ds ≤ high

/-- Past one character. -/
def char? (c : Char) : List Char → Option (List Char)
  | d :: rest => if d = c then some rest else none
  | [] => none

/-- The length of a month. -/
def daysIn (year month : Nat) : Nat :=
  if month = 2 then
    if year % 4 = 0 ∧ (year % 100 ≠ 0 ∨ year % 400 = 0) then 29 else 28
  else if month ∈ [4, 6, 9, 11] then 30
  else 31

/-- A date: year, month and day. -/
def date? (cs : List Char) : Option (List Char × List Char) := do
  let (year, cs) ← digits? 4 cs
  let cs ← char? '-' cs
  let (month, cs) ← pair? 1 12 cs
  let cs ← char? '-' cs
  let (day, cs) ← pair? 1 (daysIn (Digits.number year) (Digits.number month)) cs
  return (year ++ '-' :: month ++ '-' :: day, cs)

/-- A list of digits without the zeros at its end. -/
def trimZeros (ds : List Char) : List Char := (ds.reverse.dropWhile (· = '0')).reverse

/-- A time of day, with up to nine digits of its fraction kept. -/
def time? (cs : List Char) : Option (List Char × List Char) := do
  let (hour, cs) ← pair? 0 23 cs
  let cs ← char? ':' cs
  let (minute, cs) ← pair? 0 59 cs
  let cs ← char? ':' cs
  let (second, cs) ← pair? 0 60 cs
  let whole := hour ++ ':' :: minute ++ ':' :: second
  match cs with
  | '.' :: rest =>
    let (ds, after) := Digits.span rest
    if ds = [] then return (whole, cs)
    else
      let fraction := trimZeros (ds.take 9)
      return (if fraction = [] then whole else whole ++ '.' :: fraction, after)
  | cs => return (whole, cs)

/-- An offset from universal time, if one is next. -/
def offset? (cs : List Char) : Option (List Char × List Char) :=
  match cs with
  | 'Z' :: rest | 'z' :: rest => some (['Z'], rest)
  | sign :: rest =>
    if sign = '+' ∨ sign = '-' then do
      let (hour, rest) ← pair? 0 23 rest
      let rest ← char? ':' rest
      let (minute, rest) ← pair? 0 59 rest
      let zero := Digits.number (hour ++ minute) = 0
      return ((if zero then '+' else sign) :: hour ++ ':' :: minute, rest)
    else some ([], cs)
  | [] => some ([], [])

/-- Whether a date or a time starts here. -/
def seesDateTime (cs : List Char) : Bool :=
  ((cs.take 4).all Char.isDigit && cs[4]? = some '-') ||
    ((cs.take 2).all Char.isDigit && cs[2]? = some ':')

/-- The date, the time, or the date with a time that starts here. -/
def dateTime? (cs : List Char) : Option (String × List Char) :=
  if cs[2]? = some ':' then
    (time? cs).map fun (t, rest) => (String.ofList t, rest)
  else
    match date? cs with
    | none => none
    | some (date, rest) =>
      let dateAlone := some (String.ofList date, rest)
      match rest with
      | mark :: after =>
        if (mark = 'T' ∨ mark = 't' ∨ mark = ' ') ∧ (pair? 0 23 after).isSome ∧
            after[2]? = some ':' then
          match time? after with
          | none => none
          | some (time, rest) =>
            (offset? rest).map fun (offset, rest) =>
              (String.ofList (date ++ 'T' :: time ++ offset), rest)
        else dateAlone
      | [] => dateAlone

/-! ### Numbers -/

/-- Digits, with single underscores between them. -/
def digitRun? (isDigit : Char → Bool) : List Char → Option (List Char × List Char)
  | [] => none
  | [c] => if isDigit c then some ([c], []) else none
  | c :: '_' :: rest =>
    if isDigit c then (digitRun? isDigit rest).map fun (ds, r) => (c :: ds, r) else none
  | c :: d :: rest =>
    if isDigit c then
      if isDigit d then (digitRun? isDigit (d :: rest)).map fun (ds, r) => (c :: ds, r)
      else some ([c], d :: rest)
    else none

/-- An integer of 64 bits with sign. -/
def word? (i : Int) : Option Value :=
  if fitsSigned i then (Number.ofInt? i).map .num else none

/-- A floating-point number. One too far below zero becomes null, as negative
infinity does; one too far above is refused. -/
def doubleValue? (negative : Bool) (digits : Nat) (exponent : Int) : Option Value :=
  match Double.ofDecimal? negative digits exponent with
  | some x => some (.num (.double x))
  | none => if negative then some .null else none

/-- The fraction that is next, if there is a point. -/
def fraction? : List Char → Option ((Option (List Char)) × List Char)
  | '.' :: rest => (digitRun? Char.isDigit rest).map fun (ds, r) => (some ds, r)
  | rest => some (none, rest)

/-- The exponent that is next, if there is one. -/
def exponent? : List Char → Option ((Option Int) × List Char)
  | [] => some (none, [])
  | e :: rest =>
    if e = 'e' ∨ e = 'E' then
      let (negative, rest) := match rest with
        | '-' :: rest => (true, rest)
        | '+' :: rest => (false, rest)
        | rest => (false, rest)
      (digitRun? Char.isDigit rest).map fun (ds, r) =>
        (some (if negative then -(Digits.number ds : Int) else Digits.number ds), r)
    else some (none, e :: rest)

/-- The decimal number that is next, after its sign. -/
def decimal? (negative : Bool) (cs : List Char) : Option (Value × List Char) := do
  let (whole, rest) ← match cs with
    | '0' :: rest => some (['0'], rest)
    | cs => digitRun? Char.isDigit cs
  let (fraction, rest) ← fraction? rest
  let (exponent, rest) ← exponent? rest
  let value ←
    if fraction.isNone ∧ exponent.isNone then
      let n : Int := Digits.number whole
      word? (if negative then -n else n)
    else
      let (digits, power) := Digits.decimal whole (fraction.getD []) (exponent.getD 0)
      doubleValue? negative digits power
  return (value, rest)

/-- The integer that is next in a base, after its mark. -/
def based? (base : Nat) (cs : List Char) : Option (Value × List Char) :=
  (digitRun? (Digits.isDigitIn base) cs).bind fun (ds, rest) =>
    (word? (Digits.numberFrom base 0 ds)).map (·, rest)

/-- The number that is next. Infinities and undefined numbers become null. -/
def number? (cs : List Char) : Option (Value × List Char) :=
  let special (cs : List Char) : Option (List Char) :=
    if cs.take 3 = ['i', 'n', 'f'] ∨ cs.take 3 = ['n', 'a', 'n'] then some (cs.drop 3) else none
  match cs with
  | '0' :: 'x' :: rest => based? 16 rest
  | '0' :: 'o' :: rest => based? 8 rest
  | '0' :: 'b' :: rest => based? 2 rest
  | '-' :: rest =>
    match special rest with
    | some after => some (.null, after)
    | none => decimal? true rest
  | '+' :: rest =>
    match special rest with
    | some after => some (.null, after)
    | none => decimal? false rest
  | rest =>
    match special rest with
    | some after => some (.null, after)
    | none => decimal? false rest

end Toml

end PageTree
