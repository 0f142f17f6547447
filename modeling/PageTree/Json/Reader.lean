/-
Values from JSON text.

The tokens of the text are taken one by one by a machine whose memory is the
stack of the arrays and objects still open. A repeated key keeps the place of
its first entry and the value of its last. At most `Json.maxNesting` containers
may be open at once.

* `Json.Reading.step`: what one token does to the machine;
* `Json.read?`: the value of a text, if it is JSON.
-/
import PageTree.Json.Token

namespace PageTree

namespace Json

/-- How many arrays and objects may be open at once. -/
def maxNesting : Nat := 127

/-- An open container: an array with its items in reverse, or an object with
its entries and the key whose value is being read. -/
inductive Frame where
  | array (items : List Value)
  | object (entries : Mapping) (key : String)

/-- What has been read so far, and what may come next. The frames are those of the
open containers, the innermost first. -/
inductive Reading where
  /-- A value must come; right after `[` the array may also end. -/
  | value (frames : List Frame) (first : Bool)
  /-- A key must come; right after the opening brace the object may also end. -/
  | key (frames : List Frame) (entries : Mapping) (first : Bool)
  /-- A colon must come. -/
  | colon (frames : List Frame) (entries : Mapping) (key : String)
  /-- A value is complete. -/
  | complete (frames : List Frame) (value : Value)

namespace Reading

/-- The machine after a token that starts or is a value. -/
def start (frames : List Frame) : Token → Option Reading
  | .null => some (.complete frames .null)
  | .bool b => some (.complete frames (.bool b))
  | .num n => some (.complete frames (.num n))
  | .str s => some (.complete frames (.str s))
  | .openArray =>
    if frames.length < maxNesting then some (.value (.array [] :: frames) true) else none
  | .openObject =>
    if frames.length < maxNesting then some (.key frames [] true) else none
  | _ => none

/-- The machine after one more token. -/
def step : Reading → Token → Option Reading
  | .value (.array [] :: rest) true, .closeArray => some (.complete rest (.arr []))
  | .value frames _, t => start frames t
  | .key frames entries true, .closeObject => some (.complete frames (.obj entries))
  | .key frames entries _, .str k => some (.colon frames entries k)
  | .colon frames entries k, .colon => some (.value (.object entries k :: frames) false)
  | .complete (.array items :: rest) v, .comma => some (.value (.array (v :: items) :: rest) false)
  | .complete (.array items :: rest) v, .closeArray =>
    some (.complete rest (.arr (v :: items).reverse))
  | .complete (.object entries k :: rest) v, .comma =>
    some (.key rest (Mapping.insert entries k v) false)
  | .complete (.object entries k :: rest) v, .closeObject =>
    some (.complete rest (.obj (Mapping.insert entries k v)))
  | _, _ => none

end Reading

/-- The value of a list of tokens. -/
def ofTokens? (tokens : List Token) : Option Value :=
  match tokens.foldlM Reading.step (.value [] false) with
  | some (.complete [] v) => some v
  | _ => none

/-- The value that a text writes, if it is JSON. -/
def read? (text : String) : Option Value :=
  (tokens? text).bind ofTokens?

end Json

end PageTree
