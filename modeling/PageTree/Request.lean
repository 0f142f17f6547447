/-
Requests: their ids, and stamps for what happens in them.

An id has 128 bits; its text is 32 hexadecimal digits in five groups with
hyphens between them. A stamp is a point in time with a sequence number, which
keeps the stamps of a request apart even when they are taken at one moment.

* `RequestId.text`, `RequestId.ofText?`;
* `Stamp.text`, `Stamp.compare`;
* `Request.stamp`: the next stamp of a request.
-/
import PageTree.Instant

namespace PageTree

/-! ### Ids -/

/-- The id of a request. -/
structure RequestId where
  bits : BitVec 128
deriving DecidableEq

namespace RequestId

/-- How many digits each group has. -/
def groupSizes : List Nat := [8, 4, 4, 4, 12]

/-- The characters of a text in groups of some sizes, with hyphens between
them. -/
def hyphenate : List Nat → List Char → List Char
  | [], _ => []
  | [size], cs => cs.take size
  | size :: next :: rest, cs => cs.take size ++ '-' :: hyphenate (next :: rest) (cs.drop size)

/-- The text of an id. -/
def text (id : RequestId) : String :=
  let digits := Nat.toDigits 16 id.bits.toNat
  String.ofList (hyphenate groupSizes (List.replicate (32 - digits.length) '0' ++ digits))

/-- The digits of a text in groups of some sizes, with hyphens between them. -/
def grouped? : List Nat → List Char → Option (List Char)
  | [], _ => none
  | [size], cs => if cs.length = size then some cs else none
  | size :: next :: rest, cs =>
    if (cs.drop size).head? = some '-' then
      (grouped? (next :: rest) (cs.drop (size + 1))).map (cs.take size ++ ·)
    else none

/-- The id with some digits. -/
def ofDigits? (digits : List Char) : Option RequestId :=
  (Digits.numberIn? 16 digits).map fun n => ⟨BitVec.ofNat 128 n⟩

/-- What a text has between an opening and a closing part. -/
def between? (opening closing : List Char) (cs : List Char) : Option (List Char) :=
  let inner := (cs.drop opening.length).take (cs.length - opening.length - closing.length)
  if cs = opening ++ inner ++ closing then some inner else none

/-- The id of a text: the digits in a row, or in groups, which may stand in
braces or after `urn:uuid:`. -/
def ofText? (s : String) : Option RequestId :=
  let cs := s.toList
  if cs.length = 32 then ofDigits? cs
  else
    let inner := (between? ['\x7b'] ['\x7d'] cs).or (between? "urn:uuid:".toList [] cs)
    (grouped? groupSizes (inner.getD cs)).bind ofDigits?

/-- The id made of some random bits: the bits that tell the version and the
variant are fixed. -/
def ofRandom (bits : BitVec 128) : RequestId :=
  let version : BitVec 128 := 0xf#128 <<< 76
  let variant : BitVec 128 := 0x3#128 <<< 62
  ⟨(bits &&& ~~~(version ||| variant)) ||| (0x4#128 <<< 76) ||| (0x2#128 <<< 62)⟩

end RequestId

/-! ### Stamps -/

/-- A point in time with a sequence number. -/
structure Stamp where
  time : Instant
  sequence : Nat
deriving DecidableEq

namespace Stamp

/-- The text of a stamp: its time with six digits of the fraction, and its
number. -/
def text (s : Stamp) : String :=
  String.ofList (s.time.chars .micros ++ '#' :: Nat.toDigits 10 s.sequence)

/-- The order of stamps: by time, then by number. -/
def compare (a b : Stamp) : Ordering :=
  (a.time.compare b.time).then (Ord.compare a.sequence b.sequence)

/-- Whether a stamp is not after another one. -/
def le (a b : Stamp) : Bool := a.compare b ≠ .gt

/-- Stamps in order. -/
def sort (stamps : List Stamp) : List Stamp := stamps.mergeSort le

end Stamp

/-! ### Requests -/

/-- A request, with the number of stamps that it has taken. -/
structure Request where
  id : RequestId
  sequence : Nat
deriving DecidableEq

namespace Request

/-- A new request. -/
def new (id : RequestId) : Request := ⟨id, 0⟩

/-- The next stamp of a request, taken at some time, and the request after
it. -/
def stamp (r : Request) (time : Instant) : Stamp × Request :=
  let next := r.sequence + 1
  (⟨time, next⟩, { r with sequence := next })

end Request

end PageTree
