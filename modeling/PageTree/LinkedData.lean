/-
Linked data: scripts for search engines in the head of a page.

Every mapping of the linked data becomes a script with its compact JSON, in
which dates are written in the format of RFC 3339. A date is the value of a key
that names one, or a mapping with the single key `$date`; what cannot be read
as a date is looked into instead. In the JSON nothing is left that would end
the script or that looks like a token.

* `LinkedData.dateText?`, `LinkedData.normalize`: dates;
* `LinkedData.scripts`: the script nodes of a value;
* `LinkedData.inject`: nodes with the scripts at the end of their head.
-/
import PageTree.Instant
import PageTree.Node

namespace PageTree

namespace LinkedData

/-- The path of the linked data in a configuration. -/
def path : String := "ld"

/-- The type of the scripts. -/
def scriptType : String := "application/ld+json"

/-! ### Dates -/

/-- The key of a wrapped date. -/
def wrapperKey : String := "$date"

/-- The key of a wrapped count of milliseconds. -/
def longKey : String := "$numberLong"

/-- Whether a key names a date: it starts with `date` or ends with `Date`. -/
def isDateKey (key : String) : Bool :=
  "date".toList.isPrefixOf key.toList || "Date".toList.isSuffixOf key.toList

/-- Whether a value is a wrapped date. -/
def isWrapped : Value → Bool
  | .obj [(k, _)] => k = wrapperKey
  | _ => false

/-- The signed integer of 64 bits nearest to an integer. -/
def saturate (i : Int) : Int := max (-9223372036854775808) (min 9223372036854775807 i)

/-- The signed integer of 64 bits that a text writes: digits after an optional
sign. -/
def signed? (s : String) : Option Int :=
  let read (negative : Bool) (ds : List Char) : Option Int :=
    (Digits.numberIn? 10 ds).map fun n => if negative then -(n : Int) else n
  (match s.toList with
    | '-' :: ds => read true ds
    | '+' :: ds => read false ds
    | ds => read false ds).filter fitsSigned

/-- The point in time of a number: an integer counts seconds; any other number
is multiplied by a thousand and cut to whole milliseconds. -/
def instantOfNumber? : Number → Option Instant
  | .integer i _ =>
    if fitsSigned i then Instant.ofSeconds? i
    else Instant.ofMillis? (saturate (i * 1000))
  | .double x => Instant.ofMillis? (saturate x.thousandfold)

/-- The point in time of what is wrapped in a date: milliseconds, as a number
or as a text under `$numberLong`, or a text. -/
def instantOfWrapped? : Value → Option Instant
  | .num (.integer i _) => if fitsSigned i then Instant.ofMillis? i else none
  | .obj long =>
    (((Mapping.find? long longKey).bind Value.asText?).bind signed?).bind Instant.ofMillis?
  | .str s => Instant.ofText? s
  | _ => none

/-- The point in time of a value. -/
def instant? : Value → Option Instant
  | .num n => instantOfNumber? n
  | .str s => Instant.ofText? s
  | .obj m => (Mapping.find? m wrapperKey).bind instantOfWrapped?
  | _ => none

/-- A value as a date in the format of RFC 3339. -/
def dateText? (v : Value) : Option String := (instant? v).map Instant.text

mutual
/-- A value with the dates below it in the format of RFC 3339. -/
def normalize : Value → Value
  | .obj entries => .obj (normalizeEntries entries)
  | .arr items => .arr (normalizeItems items)
  | v => v

/-- The entries of a mapping with their dates. -/
def normalizeEntries : List (String × Value) → List (String × Value)
  | [] => []
  | (k, v) :: rest =>
    (k, match (if isDateKey k || isWrapped v then dateText? v else none) with
      | some text => .str text
      | none => normalize v) :: normalizeEntries rest

/-- The items of a sequence with their dates. -/
def normalizeItems : List Value → List Value
  | [] => []
  | v :: rest =>
    (match (if isWrapped v then dateText? v else none) with
      | some text => .str text
      | none => normalize v) :: normalizeItems rest
end

/-! ### Scripts -/

/-- JSON text inside a script: a slash after `<` and a percent sign after an
opening brace are escaped. -/
def guard : List Char → List Char
  | '<' :: '/' :: rest => '<' :: '\\' :: '/' :: guard rest
  | '\x7b' :: '%' :: rest => '\x7b' :: '\\' :: 'u' :: '0' :: '0' :: '2' :: '5' :: guard rest
  | c :: rest => c :: guard rest
  | [] => []

/-- The JSON of an entry as it stands in its script. -/
def scriptText (entry : Value) : String :=
  String.ofList (guard (Json.print (normalize entry)).toList)

/-- The script of an entry. -/
def script (entry : Value) : Node :=
  .element "script" [("type", .str scriptType)] [.text (scriptText entry)]

/-- The entries of linked data: a mapping, or those in a sequence. -/
def entries : Value → List Value
  | .arr items => items.filter fun v => (v.asMapping?).isSome
  | .obj m => [.obj m]
  | _ => []

/-- The scripts of linked data. -/
def scripts (ld : Value) : List Node := (entries ld).map script

/-- Nodes with some more nodes at the end of the first `head`, or after all of
them when there is none. -/
def addToHead (nodes added : List Node) : List Node :=
  let change (attributes : Mapping) (children : List Node) : Node :=
    .element "head" attributes (children ++ added)
  match Node.alterFirst? "head" change nodes with
  | some changed => changed
  | none => nodes ++ added

/-- Nodes with the scripts of linked data in their head, and how many these
are. -/
def inject (nodes : List Node) (ld : Value) : List Node × Nat :=
  match scripts ld with
  | [] => (nodes, 0)
  | added => (addToHead nodes added, added.length)

end LinkedData

end PageTree
