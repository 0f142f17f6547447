/-
Placeholders, the tokens `{%path%}` in a text.

A token is an opening brace with a percent sign, a body, and a percent sign
with a closing brace. The body is not empty; percent signs at its ends are
ignored, and what is left, the key, holds neither percent signs nor braces.
Two tokens never overlap, so a text splits into tokens and single characters
in one way only.

* `Placeholder.Token`, `Token.read?`: a token, and the one at the front of a
  text;
* `Placeholder.pieces`: a text as tokens and characters;
* `Placeholder.Scanner`: a place in a text from where tokens are looked for,
  and `Scanner.move`, how it goes on;
* `Placeholder.scan`: the tokens of a text with their places in bytes;
* `Placeholder.substituteM`, `Placeholder.substitute`: a text with every token
  replaced, the text between them being cut out by its places.
-/
import PageTree.Text.Blank

namespace PageTree

namespace Placeholder

/-! ### Tokens -/

/-- A token, by what stands between its marks. -/
structure Token where
  body : List Char
deriving DecidableEq

/-- A text without the percent signs at both ends. -/
def trim (cs : List Char) : List Char := Text.trimEnds (· = '%') cs

/-- Whether a text is the body of a token. -/
def isBody (cs : List Char) : Bool :=
  cs ≠ [] && (trim cs).all fun c => c ≠ '%' && c ≠ '\x7b' && c ≠ '\x7d'

namespace Token

/-- A token as it is written. -/
def raw (t : Token) : List Char := '\x7b' :: '%' :: t.body ++ ['%', '\x7d']

/-- The text of a token. -/
def rawText (t : Token) : String := String.ofList t.raw

/-- The path that a token names. -/
def key (t : Token) : String := String.ofList (trim t.body)

/-- The token at the front of a text, and what follows it. It can only end at
the first closing brace. -/
def read? : List Char → Option (Token × List Char)
  | '\x7b' :: '%' :: rest =>
    let inner := rest.takeWhile (· ≠ '\x7d')
    match rest.dropWhile (· ≠ '\x7d') with
    | [] => none
    | _ :: after =>
      if inner.getLast? = some '%' ∧ isBody inner.dropLast then some (⟨inner.dropLast⟩, after)
      else none
  | _ => none

/-- What follows a token is shorter than the text with the token. -/
theorem length_of_read? {cs after : List Char} {t : Token}
    (h : read? cs = some (t, after)) : after.length < cs.length := by
  unfold read? at h
  split at h
  · rename_i rest
    have hle : (rest.dropWhile (· ≠ '\x7d')).length ≤ rest.length :=
      (List.dropWhile_sublist _).length_le
    simp only at h
    split at h
    · simp at h
    · rename_i d after' heq
      split at h
      · simp only [Option.some.injEq, Prod.mk.injEq] at h
        obtain ⟨-, rfl⟩ := h
        rw [heq] at hle
        simp only [List.length_cons] at hle ⊢
        omega
      · simp at h
  · simp at h

end Token

/-- Whether the mark that opens a token stands anywhere in a text. -/
def hasOpening : List Char → Bool
  | [] => false
  | c :: rest => (c = '\x7b' && rest.head? = some '%') || hasOpening rest

/-! ### Pieces -/

/-- A piece of a text: a token or a character outside of tokens. -/
inductive Piece where
  | char (c : Char)
  | token (t : Token)
deriving DecidableEq

/-- The characters of a piece. -/
def Piece.raw : Piece → List Char
  | .char c => [c]
  | .token t => t.raw

/-- The text of a piece, tokens being replaced. -/
def Piece.write (f : Token → String) : Piece → List Char
  | .char c => [c]
  | .token t => (f t).toList

/-- A text as tokens and characters. -/
def pieces (cs : List Char) : List Piece :=
  match cs with
  | [] => []
  | c :: rest =>
    match h : Token.read? (c :: rest) with
    | some (t, after) =>
      have : after.length < (c :: rest).length := Token.length_of_read? h
      .token t :: pieces after
    | none => .char c :: pieces rest
termination_by cs.length
decreasing_by
  · assumption
  · exact Nat.lt_succ_self rest.length

/-! ### Places -/

/-- A token and its place in a text: the bytes before it, and those up to its
end. -/
structure Span where
  start : Nat
  stop : Nat
  token : Token
deriving DecidableEq

/-- The size of a text in bytes. -/
def byteSize : List Char → Nat
  | [] => 0
  | c :: rest => c.utf8Size + byteSize rest

/-- The tokens of some pieces, the first of which starts at a byte. -/
def spansFrom (start : Nat) : List Piece → List Span
  | [] => []
  | .char c :: rest => spansFrom (start + c.utf8Size) rest
  | .token t :: rest =>
    let stop := start + byteSize t.raw
    ⟨start, stop, t⟩ :: spansFrom stop rest

/-! ### Scanning -/

/-- The text before the first opening mark, and the text after this mark. -/
def splitOpening? : List Char → Option (List Char × List Char)
  | [] => none
  | c :: rest =>
    if c = '\x7b' ∧ rest.head? = some '%' then some ([], rest.tail)
    else (splitOpening? rest).map fun (before, after) => (c :: before, after)

/-- The text before the last opening mark. -/
def beforeLastOpening? : List Char → Option (List Char)
  | [] => none
  | c :: rest =>
    match beforeLastOpening? rest with
    | some before => some (c :: before)
    | none => if c = '\x7b' ∧ rest.head? = some '%' then some [] else none

/-- Where a scanner stands in a text: the bytes before it, and the text ahead
of it. -/
structure Scanner where
  pos : Nat
  ahead : List Char

/-- What a scanner does next. -/
inductive Move where
  /-- It stops, as no token is ahead. -/
  | stop
  /-- It goes on at a later place. -/
  | skip (next : Scanner)
  /-- It has found a token, and goes on after it. -/
  | found (span : Span) (next : Scanner)

/-- Where a scanner goes on. -/
def Move.next? : Move → Option Scanner
  | .stop => none
  | .skip next => some next
  | .found _ next => some next

/-- The next move of a scanner. The first closing brace after an opening mark
can only close a token that starts at the last opening mark before it; a
scanner never goes back. -/
def Scanner.move (s : Scanner) : Move :=
  match splitOpening? s.ahead with
  | none => .stop
  | some (before, after) =>
    let start := s.pos + byteSize before
    let inner := after.takeWhile (· ≠ '\x7d')
    match after.dropWhile (· ≠ '\x7d') with
    | [] => .stop
    | _ :: rest =>
      match beforeLastOpening? inner with
      | some skipped => .skip ⟨start + 2 + byteSize skipped, after.drop skipped.length⟩
      | none =>
        let stop := start + 2 + byteSize inner + 1
        if inner.getLast? = some '%' ∧ isBody inner.dropLast then
          .found ⟨start, stop, ⟨inner.dropLast⟩⟩ ⟨stop, rest⟩
        else .skip ⟨stop, rest⟩

/-- The text after the first opening mark is shorter than the whole text. -/
theorem length_of_splitOpening? {cs before after : List Char}
    (h : splitOpening? cs = some (before, after)) : after.length < cs.length := by
  induction cs generalizing before with
  | nil => simp [splitOpening?] at h
  | cons c rest ih =>
    rw [splitOpening?] at h
    split at h
    · simp only [Option.some.injEq, Prod.mk.injEq] at h
      rw [← h.2, List.length_tail, List.length_cons]
      omega
    · obtain ⟨⟨b, a⟩, hrest, heq⟩ := Option.map_eq_some_iff.mp h
      simp only [Prod.mk.injEq] at heq
      rw [heq.2] at hrest
      exact Nat.lt_succ_of_lt (ih hrest)

/-- A scanner that goes on has less text ahead of it. -/
theorem Scanner.length_of_move {s next : Scanner} (h : s.move.next? = some next) :
    next.ahead.length < s.ahead.length := by
  unfold Scanner.move at h
  split at h
  · simp [Move.next?] at h
  · rename_i before after hsplit
    have hafter := length_of_splitOpening? hsplit
    have hdrop : (after.dropWhile (· ≠ '\x7d')).length ≤ after.length :=
      (List.dropWhile_sublist _).length_le
    simp only at h
    split at h
    · simp [Move.next?] at h
    · rename_i d rest hrest
      rw [hrest, List.length_cons] at hdrop
      split at h
      · simp only [Move.next?, Option.some.injEq] at h
        rw [← h, List.length_drop]
        omega
      · have hnext : next.ahead = rest := by
          split at h <;> rw [← Option.some.inj h]
        rw [hnext]
        omega

/-- The tokens that a scanner finds. -/
def scanFrom (s : Scanner) : List Span :=
  match h : s.move with
  | .stop => []
  | .skip next =>
    have : next.ahead.length < s.ahead.length := s.length_of_move (by rw [h]; rfl)
    scanFrom next
  | .found span next =>
    have : next.ahead.length < s.ahead.length := s.length_of_move (by rw [h]; rfl)
    span :: scanFrom next
termination_by s.ahead.length

/-- The tokens of a text, in order, with their places. -/
def scan (text : String) : List Span := scanFrom ⟨0, text.toList⟩

/-- The only token of a text that is nothing but this token. -/
def single? (text : String) : Option Span :=
  match scan text with
  | span :: _ => if span.start = 0 ∧ span.stop = text.utf8ByteSize then some span else none
  | [] => none

/-! ### Substitution -/

/-- The text between two places, which are given in bytes. -/
def extract (text : String) (start stop : Nat) : String :=
  String.Pos.Raw.extract text ⟨start⟩ ⟨stop⟩

/-- A text in the making: what is written, and up to which byte the given text
has been dealt with. -/
structure Draft where
  written : String
  upTo : Nat

section

universe u

variable {m : Type → Type u} [Monad m]

/-- Goes on to the end of a token: the text in front of it is written as it is,
and for the token what it is replaced by. -/
def Draft.add (f : Span → m String) (text : String) (d : Draft) (span : Span) : m Draft := do
  let new ← f span
  pure ⟨d.written ++ extract text d.upTo span.start ++ new, span.stop⟩

/-- Goes on to the end of the text. -/
def Draft.finish (text : String) (d : Draft) : String :=
  d.written ++ extract text d.upTo text.utf8ByteSize

/-- A text with every token replaced by what an action on its place returns.
What a token is replaced by is not read again. -/
def substituteM (f : Span → m String) (text : String) : m String :=
  let spans := scan text
  if spans.isEmpty then pure text
  else do
    let d ← spans.foldlM (Draft.add f text) ⟨"", 0⟩
    pure (d.finish text)

end

/-- A text with every token replaced. -/
def substitute (f : Token → String) (text : String) : String :=
  Id.run (substituteM (fun span => pure (f span.token)) text)

end Placeholder

end PageTree
