/-
Points in time, and their text in the format of RFC 3339.

A point in time is a day, a second of it, and a fraction; in a leap second the
fraction goes beyond one second. Days are counted from 1970-01-01 in the
Gregorian calendar, from the year -262143 to the year 262142.

* `Instant.ofSeconds?`, `Instant.ofMillis?`, `Instant.ofMicros?`: from a count
  since 1970;
* `Instant.text`: RFC 3339 in universal time, with a fraction of as few groups
  of three digits as needed;
* `Instant.ofRfc3339?`, `Instant.ofDateAndTime?`, `Instant.ofDate?`: from text.
-/
import PageTree.Text.Blank
import PageTree.Text.Digits

namespace PageTree

/-! ### The calendar -/

/-- A date: year, month from one, and day from one. -/
structure CalendarDate where
  year : Int
  month : Nat
  day : Nat
deriving DecidableEq

namespace CalendarDate

/-- The first and the last year. -/
def yearRange : Int × Int := (-262143, 262142)

/-- Whether a year has a day more. -/
def isLeapYear (year : Int) : Bool :=
  year % 4 = 0 && (year % 100 ≠ 0 || year % 400 = 0)

/-- The length of a month. -/
def daysIn (year : Int) (month : Nat) : Nat :=
  if month = 2 then if isLeapYear year then 29 else 28
  else if month ∈ [4, 6, 9, 11] then 30
  else 31

/-- Whether a date is in the calendar. -/
def isValid (d : CalendarDate) : Bool :=
  yearRange.1 ≤ d.year && d.year ≤ yearRange.2 && 1 ≤ d.month && d.month ≤ 12 &&
    1 ≤ d.day && d.day ≤ daysIn d.year d.month

/-- The days from 1970-01-01 to a date. Years are counted from March, so that
the day a leap year has more is the last one of its year, and four hundred
years have 146097 days. -/
def toDays (d : CalendarDate) : Int :=
  let year := if d.month ≤ 2 then d.year - 1 else d.year
  let era := year / 400
  let yearOfEra := year % 400
  let monthFromMarch := (d.month + 9) % 12
  let dayOfYear := (153 * monthFromMarch + 2) / 5 + d.day - 1
  let dayOfEra := yearOfEra * 365 + yearOfEra / 4 - yearOfEra / 100 + dayOfYear
  era * 146097 + dayOfEra - 719468

/-- The date after some days from 1970-01-01. -/
def ofDays (days : Int) : CalendarDate :=
  let shifted := days + 719468
  let era := shifted / 146097
  let dayOfEra := shifted % 146097
  let yearOfEra := (dayOfEra - dayOfEra / 1460 + dayOfEra / 36524 - dayOfEra / 146096) / 365
  let dayOfYear := dayOfEra - (365 * yearOfEra + yearOfEra / 4 - yearOfEra / 100)
  let monthFromMarch := (5 * dayOfYear + 2) / 153
  let day := dayOfYear - (153 * monthFromMarch + 2) / 5 + 1
  let month := if monthFromMarch < 10 then monthFromMarch + 3 else monthFromMarch - 9
  let year := yearOfEra + era * 400 + (if month ≤ 2 then 1 else 0)
  ⟨year, month.toNat, day.toNat⟩

end CalendarDate

/-! ### Points in time -/

/-- A point in time: the day from 1970-01-01, the second of the day, and the
nanoseconds after it, from a billion on in a leap second. -/
structure Instant where
  day : Int
  second : Nat
  nano : Nat
deriving DecidableEq

namespace Instant

/-- The seconds of a day. -/
def secondsPerDay : Nat := 86400

/-- Nanoseconds of a second. -/
def nanosPerSecond : Nat := 1000000000

/-- Whether a day is in the calendar. -/
def dayInRange (day : Int) : Bool :=
  CalendarDate.toDays ⟨CalendarDate.yearRange.1, 1, 1⟩ ≤ day &&
    day ≤ CalendarDate.toDays ⟨CalendarDate.yearRange.2, 12, 31⟩

/-- The point in time after some seconds and nanoseconds from 1970, if the
calendar reaches it. -/
def ofSecondsAndNanos? (seconds : Int) (nano : Nat) : Option Instant :=
  let day := seconds / secondsPerDay
  if dayInRange day then some ⟨day, (seconds % secondsPerDay).toNat, nano⟩ else none

/-- The point in time after some seconds from 1970. -/
def ofSeconds? (seconds : Int) : Option Instant := ofSecondsAndNanos? seconds 0

/-- The point in time after some milliseconds from 1970. -/
def ofMillis? (millis : Int) : Option Instant :=
  ofSecondsAndNanos? (millis / 1000) ((millis % 1000).toNat * 1000000)

/-- The point in time after some microseconds from 1970. -/
def ofMicros? (micros : Int) : Option Instant :=
  ofSecondsAndNanos? (micros / 1000000) ((micros % 1000000).toNat * 1000)

/-- The order of points in time. -/
def compare (a b : Instant) : Ordering :=
  (Ord.compare a.day b.day).then
    ((Ord.compare a.second b.second).then (Ord.compare a.nano b.nano))

/-! ### Writing -/

/-- A number in decimal with zeros in front, up to a width. -/
def padded (width n : Nat) : List Char :=
  let ds := Nat.toDigits 10 n
  List.replicate (width - ds.length) '0' ++ ds

/-- The text of a year: four digits, and outside of 0 to 9999 a sign with at
least four digits. -/
def yearText (year : Int) : List Char :=
  if 0 ≤ year ∧ year ≤ 9999 then padded 4 year.toNat
  else (if year < 0 then '-' else '+') :: padded 4 year.natAbs

/-- How many digits of a fraction are written. -/
inductive Fraction where
  /-- As few groups of three as needed. -/
  | shortest
  /-- Six. -/
  | micros

/-- The text of a fraction of a second. -/
def fractionText (style : Fraction) (nano : Nat) : List Char :=
  match style with
  | .micros => '.' :: padded 6 (nano / 1000)
  | .shortest =>
    if nano = 0 then []
    else if nano % 1000000 = 0 then '.' :: padded 3 (nano / 1000000)
    else if nano % 1000 = 0 then '.' :: padded 6 (nano / 1000)
    else '.' :: padded 9 nano

/-- The text of a point in time in universal time. -/
def chars (style : Fraction) (t : Instant) : List Char :=
  let date := CalendarDate.ofDays t.day
  let leap := t.nano / nanosPerSecond
  yearText date.year ++ '-' :: padded 2 date.month ++ '-' :: padded 2 date.day ++
    'T' :: padded 2 (t.second / 3600) ++ ':' :: padded 2 (t.second / 60 % 60) ++
    ':' :: padded 2 (t.second % 60 + leap) ++ fractionText style (t.nano % nanosPerSecond) ++ ['Z']

/-- The text of a point in time, its fraction as short as it can be. -/
def text (t : Instant) : String := String.ofList (t.chars .shortest)

/-! ### Reading -/

/-- The point in time of a date and a time of day in universal time; the second
sixty is a leap second. -/
def ofFields? (date : CalendarDate) (hour minute second nano : Nat) : Option Instant :=
  if date.isValid ∧ hour < 24 ∧ minute < 60 ∧ second ≤ 60 then
    if second = 60 then some ⟨date.toDays, hour * 3600 + minute * 60 + 59, nanosPerSecond + nano⟩
    else some ⟨date.toDays, hour * 3600 + minute * 60 + second, nano⟩
  else none

/-- A point in time that is some seconds earlier, if the calendar reaches it. -/
def earlier? (t : Instant) (seconds : Int) : Option Instant :=
  let total := t.day * secondsPerDay + t.second - seconds
  ofSecondsAndNanos? total t.nano

/-- Past one character. -/
def char? (c : Char) : List Char → Option (List Char)
  | d :: rest => if d = c then some rest else none
  | [] => none

/-- A number of exactly `width` digits. -/
def fixed? (width : Nat) (cs : List Char) : Option (Nat × List Char) :=
  let ds := cs.take width
  if ds.length = width ∧ ds.all Char.isDigit then some (Digits.number ds, cs.drop width) else none

/-- A number of one digit up to `width`. -/
def upTo? (width : Nat) (cs : List Char) : Option (Nat × List Char) :=
  let ds := (cs.take width).takeWhile Char.isDigit
  if ds = [] then none else some (Digits.number ds, cs.drop ds.length)

/-- The fraction of a second after its point, in nanoseconds; digits beyond the
ninth are cut off. -/
def nanos? (cs : List Char) : Option (Nat × List Char) :=
  let (ds, rest) := Digits.span cs
  if ds = [] then none
  else
    let kept := ds.take 9
    some (Digits.number kept * Nat.pow 10 (9 - kept.length), rest)

/-- The fraction of a second, which is zero if there is no point. -/
def fraction? : List Char → Option (Nat × List Char)
  | '.' :: cs => nanos? cs
  | cs => some (0, cs)

/-- Past the letter between a date and a time of day. A space or a small letter may
stand for the `T`. -/
def separator? : List Char → Option (List Char)
  | 'T' :: cs | 't' :: cs | ' ' :: cs => some cs
  | _ => none

/-- An offset from universal time, in seconds. -/
def offset? (cs : List Char) : Option (Int × List Char) :=
  match cs with
  | 'Z' :: rest | 'z' :: rest => some (0, rest)
  | sign :: rest =>
    if sign = '+' ∨ sign = '-' ∨ sign = '\u2212' then do
      let (hour, rest) ← fixed? 2 rest
      let rest ← char? ':' rest
      let (minute, rest) ← fixed? 2 rest
      if hour < 24 ∧ minute < 60 then
        let seconds : Int := hour * 3600 + minute * 60
        some (if sign = '+' then seconds else -seconds, rest)
      else none
    else none
  | [] => none

/-- The point in time of a text in the format of RFC 3339. -/
def ofRfc3339? (cs : List Char) : Option Instant := do
  let (year, cs) ← fixed? 4 cs
  let cs ← char? '-' cs
  let (month, cs) ← fixed? 2 cs
  let cs ← char? '-' cs
  let (day, cs) ← fixed? 2 cs
  let cs ← separator? cs
  let (hour, cs) ← fixed? 2 cs
  let cs ← char? ':' cs
  let (minute, cs) ← fixed? 2 cs
  let cs ← char? ':' cs
  let (second, cs) ← fixed? 2 cs
  let (nano, cs) ← fraction? cs
  let (offset, cs) ← offset? cs
  let localTime ← ofFields? ⟨year, month, day⟩ hour minute second nano
  if cs = [] then localTime.earlier? offset else none

/-- Past white space. -/
def skipBlanks (cs : List Char) : List Char := cs.dropWhile Text.isBlank

/-- A year after white space: up to four digits, or more after a sign. -/
def year? (cs : List Char) : Option (Int × List Char) :=
  match skipBlanks cs with
  | '-' :: rest => (upTo? rest.length rest).map fun (n, r) => (-(n : Int), r)
  | '+' :: rest => (upTo? rest.length rest).map fun (n, r) => ((n : Int), r)
  | rest => (upTo? 4 rest).map fun (n, r) => ((n : Int), r)

/-- A number of one or two digits after white space. -/
def field? (cs : List Char) : Option (Nat × List Char) := upTo? 2 (skipBlanks cs)

/-- A date with hyphens, after white space. -/
def calendarDate? (cs : List Char) : Option (CalendarDate × List Char) := do
  let (year, cs) ← year? cs
  let cs ← char? '-' cs
  let (month, cs) ← field? cs
  let cs ← char? '-' cs
  let (day, cs) ← field? cs
  return (⟨year, month, day⟩, cs)

/-- The point in time of a text with a date and a time of day, in universal
time. -/
def ofDateAndTime? (cs : List Char) : Option Instant := do
  let (date, cs) ← calendarDate? cs
  let (hour, cs) ← field? cs
  let cs ← char? ':' cs
  let (minute, cs) ← field? cs
  let cs ← char? ':' cs
  let (second, cs) ← field? cs
  if cs = [] then ofFields? date hour minute second 0 else none

/-- The start of the day of a text with a date, in universal time. -/
def ofDate? (cs : List Char) : Option Instant := do
  let (date, cs) ← calendarDate? cs
  if cs = [] then ofFields? date 0 0 0 0 else none

/-- The point in time of a text, in the first of the three forms that it
has. -/
def ofText? (s : String) : Option Instant :=
  let cs := Text.trimChars s.toList
  (ofRfc3339? cs).or ((ofDateAndTime? cs).or (ofDate? cs))

end Instant

end PageTree
