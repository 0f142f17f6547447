/-
The text between tokens, which a replacement leaves as it is.

The scanner gives the places of the tokens in bytes, and a replacement cuts the
text at these places. The invariant is that the place it has come to is the size
of the whole characters dealt with, and that the text goes on with a literal piece
and the pieces ahead (`Ahead`); so a cut never goes through a character, and what is
cut out makes up the text again.

* `IsCut`, `extract_of_toList_eq`: two places where a text can be cut, and what is
  cut out;
* `Parted`, `parted_scan`: the places of the tokens are in order, and they and the
  literal pieces between them cover the text;
* `literals`, `weave`, `weave_literals`: the literal pieces, and these with other texts
  between them;
* `Draft.finish_foldlM`, `substituteM_eq`: a replacement acts on the tokens one after
  the other, and what it returns stands between the literal pieces;
* `substitute_eq`: the same by the pieces of a text;
* `substituteM_partitions`: **a replacement parts the text**.
-/
import Mathlib.Data.String.Basic
import PageTree.Proofs.Scan

namespace PageTree

namespace Placeholder

universe u

variable {text : String}

/-! ### Cuts -/

/-- Whether a text can be cut at two places: they are in order, and no character
of the text goes across one of them. -/
def IsCut (text : String) (start stop : ℕ) : Prop :=
  start ≤ stop ∧ (⟨start⟩ : String.Pos.Raw).IsValid text ∧ (⟨stop⟩ : String.Pos.Raw).IsValid text

/-- A text can be cut behind some of its characters. -/
lemma isValid_byteSize {as bs : List Char} (h : text.toList = as ++ bs) :
    (⟨byteSize as⟩ : String.Pos.Raw).IsValid text := by
  refine String.Pos.Raw.isValid_iff_exists_append.mpr ⟨String.ofList as, String.ofList bs, ?_, ?_⟩
  · rw [← String.ofList_append, ← h, String.ofList_toList]
  · rw [← utf8ByteSize_ofList]
    rfl

/-- A text can be cut on both sides of some of its characters. -/
lemma isCut_of_toList_eq {as bs cs : List Char} (h : text.toList = as ++ bs ++ cs) :
    IsCut text (byteSize as) (byteSize (as ++ bs)) := by
  have hstart : text.toList = as ++ (bs ++ cs) := by rw [h, List.append_assoc]
  refine ⟨?_, isValid_byteSize hstart, isValid_byteSize h⟩
  rw [byteSize_append]
  exact Nat.le_add_right _ _

/-- What is cut out between two places are the characters between them. -/
lemma extract_of_toList_eq {as bs cs : List Char} (h : text.toList = as ++ bs ++ cs) :
    extract text (byteSize as) (byteSize (as ++ bs)) = String.ofList bs := by
  have hsize : ∀ xs, byteSize xs = String.utf8Len xs := fun xs => by
    rw [← utf8ByteSize_ofList, String.utf8ByteSize_ofList]
  have htext : text = String.ofList (as ++ bs ++ cs) := by rw [← h, String.ofList_toList]
  rw [extract, byteSize_append, hsize, hsize, htext]
  exact String.extract_of_valid as bs cs

/-! ### A text and its tokens -/

/-- Whether some tokens part a text from a place on: it can be cut where they
start and where they stop, each of them stands between its places, and the next
one does not start before it stops. -/
def Parted (text : String) (last : ℕ) : List Span → Prop
  | [] => IsCut text last text.utf8ByteSize
  | span :: rest =>
    IsCut text last span.start ∧ IsCut text span.start span.stop ∧
      extract text span.start span.stop = span.token.rawText ∧ Parted text span.stop rest

/-- The literal pieces of a text from a place on: one in front of each token, and
one behind the last. -/
def literalsFrom (text : String) (last : ℕ) : List Span → List String
  | [] => [extract text last text.utf8ByteSize]
  | span :: rest => extract text last span.start :: literalsFrom text span.stop rest

/-- The literal pieces of a text. -/
def literals (text : String) : List String := literalsFrom text 0 (scan text)

/-- Literal pieces with other texts between them. -/
def weave : List String → List String → String
  | literal :: literals, new :: news => literal ++ new ++ weave literals news
  | literals, _ => String.join literals

lemma length_literalsFrom (last : ℕ) (spans : List Span) :
    (literalsFrom text last spans).length = spans.length + 1 := by
  induction spans generalizing last with
  | nil => rfl
  | cons span rest ih => rw [literalsFrom, List.length_cons, ih, List.length_cons]

/-! ### Pieces and places -/

/-- How far a text has been gone through: `done` has been dealt with, `lit` came behind
it without a token, and the pieces are still ahead. -/
def Ahead (text : String) (done lit : List Char) (ps : List Piece) : Prop :=
  text.toList = done ++ lit ++ ps.flatMap Piece.raw

namespace Ahead

variable {done lit : List Char} {c : Char} {t : Token} {ps : List Piece}

/-- Where no piece is ahead, the text ends. -/
lemma utf8ByteSize_eq (h : Ahead text done lit []) :
    text.utf8ByteSize = byteSize (done ++ lit) := by
  rw [← byteSize_toList, h, List.flatMap_nil, List.append_nil]

lemma of_char (h : Ahead text done lit (.char c :: ps)) : Ahead text done (lit ++ [c]) ps := by
  rw [Ahead, h]
  simp [Piece.raw]

lemma of_token (h : Ahead text done lit (.token t :: ps)) :
    Ahead text (done ++ lit ++ t.raw) [] ps := by
  rw [Ahead, h]
  simp [Piece.raw]

/-- The text of the next token stands where it has come to. -/
lemma toList_eq (h : Ahead text done lit (.token t :: ps)) :
    text.toList = (done ++ lit) ++ t.raw ++ ps.flatMap Piece.raw := by
  rw [h.of_token, List.append_nil]

end Ahead

/-- Where the tokens of some pieces start, if the first of these is a character. -/
lemma spansFrom_char (done lit : List Char) (c : Char) (ps : List Piece) :
    spansFrom (byteSize (done ++ lit)) (.char c :: ps) =
      spansFrom (byteSize (done ++ (lit ++ [c]))) ps := by
  rw [spansFrom, ← List.append_assoc, byteSize_append (done ++ lit)]
  rfl

/-- Where they start, if it is a token. -/
lemma spansFrom_token (done : List Char) (t : Token) (ps : List Piece) :
    spansFrom (byteSize done) (.token t :: ps) =
      ⟨byteSize done, byteSize (done ++ t.raw), t⟩ ::
        spansFrom (byteSize (done ++ t.raw ++ [])) ps := by
  rw [spansFrom, ← byteSize_append, List.append_nil]

/-- The tokens among the pieces ahead part the text from where the last token stopped. -/
lemma parted_spansFrom {done lit : List Char} {ps : List Piece} (h : Ahead text done lit ps) :
    Parted text (byteSize done) (spansFrom (byteSize (done ++ lit)) ps) := by
  induction ps generalizing done lit with
  | nil =>
    rw [spansFrom, Parted, h.utf8ByteSize_eq]
    exact isCut_of_toList_eq h
  | cons p ps ih =>
    cases p with
    | char c =>
      rw [spansFrom_char]
      exact ih h.of_char
    | token t =>
      rw [spansFrom_token, Parted]
      exact ⟨isCut_of_toList_eq h, isCut_of_toList_eq h.toList_eq,
        extract_of_toList_eq h.toList_eq, ih h.of_token⟩

/-- The tokens of a text part it. -/
lemma parted_scan (text : String) : Parted text 0 (scan text) := by
  have h : Ahead text [] [] (pieces text.toList) := (raw_pieces _).symm
  rw [scan_eq]
  exact parted_spansFrom h

/-- The literal pieces ahead, with other texts in place of the tokens between them, are
the pieces ahead written with these texts. -/
lemma weave_literalsFrom (f : Token → String) {done lit : List Char} {ps : List Piece}
    (h : Ahead text done lit ps) :
    weave (literalsFrom text (byteSize done) (spansFrom (byteSize (done ++ lit)) ps))
        ((spansFrom (byteSize (done ++ lit)) ps).map fun span => f span.token) =
      String.ofList (lit ++ ps.flatMap (Piece.write f)) := by
  induction ps generalizing done lit with
  | nil =>
    rw [spansFrom, literalsFrom, h.utf8ByteSize_eq, extract_of_toList_eq h]
    simp [weave]
  | cons p ps ih =>
    cases p with
    | char c =>
      rw [spansFrom_char, ih h.of_char]
      simp [Piece.write]
    | token t =>
      have hlit : extract text (byteSize done) (byteSize (done ++ lit)) = String.ofList lit :=
        extract_of_toList_eq h
      rw [spansFrom_token, literalsFrom, List.map_cons, weave, ih h.of_token, hlit]
      simp [Piece.write, String.ofList_append, String.append_assoc]

/-- The literal pieces of a text with other texts in place of its tokens. -/
lemma weave_literals (f : Token → String) (text : String) :
    weave (literals text) ((scan text).map fun span => f span.token) =
      String.ofList ((pieces text.toList).flatMap (Piece.write f)) := by
  have h : Ahead text [] [] (pieces text.toList) := (raw_pieces _).symm
  rw [literals, scan_eq]
  exact weave_literalsFrom f h

/-- Pieces are written as they are if every token is replaced by itself. -/
lemma Piece.write_rawText : Piece.write Token.rawText = Piece.raw := by
  funext p
  cases p with
  | char c => rfl
  | token t => exact String.toList_ofList

/-- The literal pieces of a text and its tokens make it up. -/
lemma weave_rawText (text : String) :
    weave (literals text) ((scan text).map fun span => span.token.rawText) = text := by
  rw [weave_literals, Piece.write_rawText, raw_pieces, String.ofList_toList]

/-! ### Runs of a replacement -/

section

variable {m : Type → Type u} [Monad m] [LawfulMonad m] (f : Span → m String)

/-- **One step** acts on one token. -/
lemma Draft.add_eq (d : Draft) (span : Span) :
    d.add f text span =
      (fun new => ⟨d.written ++ extract text d.upTo span.start ++ new, span.stop⟩) <$> f span :=
  bind_pure_comp _ _

/-- **A whole run** acts on the tokens one after the other; what this returns stands
between the literal pieces, behind what was written before. -/
lemma Draft.finish_foldlM (d : Draft) (spans : List Span) :
    Draft.finish text <$> spans.foldlM (Draft.add f text) d =
      (fun news => d.written ++ weave (literalsFrom text d.upTo spans) news) <$> spans.mapM f := by
  induction spans generalizing d with
  | nil => simp [Draft.finish, literalsFrom, weave]
  | cons span rest ih =>
    rw [List.foldlM_cons, List.mapM_cons, Draft.add_eq, bind_map_left, map_bind, map_bind]
    congr 1
    funext new
    rw [ih, bind_pure_comp, Functor.map_map]
    simp only [literalsFrom, weave, String.append_assoc]

/-- A replacement acts on the tokens of a text one after the other, and what this
returns stands between the literal pieces. -/
lemma substituteM_eq (text : String) :
    substituteM f text = weave (literals text) <$> (scan text).mapM f := by
  rw [substituteM]
  split
  · next hnone =>
    -- without tokens, the text is its only literal piece
    rw [List.isEmpty_iff] at hnone
    have htext := weave_rawText text
    rw [hnone, List.map_nil] at htext
    rw [hnone, List.mapM_nil, map_pure, htext]
  · rw [bind_pure_comp, Draft.finish_foldlM]
    simp only [String.empty_append]
    rfl

end

/-- A replacement that depends on the tokens alone. -/
lemma substitute_eq_weave (f : Token → String) (text : String) :
    substitute f text = weave (literals text) ((scan text).map fun span => f span.token) := by
  rw [substitute, substituteM_eq, List.mapM_pure, map_pure, Id.run_pure]

/-- A text with every token replaced, by its pieces. -/
theorem substitute_eq (f : Token → String) (text : String) :
    substitute f text = String.ofList ((pieces text.toList).flatMap (Piece.write f)) := by
  rw [substitute_eq_weave, weave_literals]

/-- **A replacement parts the text**: the text can be cut at the places of its tokens,
each of which stands between its places and none of which goes into the next, and
the literal pieces between them are one more than the tokens. Whatever is done for a
token, it is done for each token of the text once and in their order, and what it
returns is written between the literal pieces, unread. With the tokens themselves in their
places, these are the text, so a replacement by themselves changes nothing. -/
theorem substituteM_partitions (text : String) :
    Parted text 0 (scan text) ∧ (literals text).length = (scan text).length + 1 ∧
      weave (literals text) ((scan text).map fun span => span.token.rawText) = text ∧
      (∀ (m : Type → Type u) [Monad m] [LawfulMonad m] (f : Span → m String),
        substituteM f text = weave (literals text) <$> (scan text).mapM f) ∧
      (∀ f : Token → String,
        substitute f text = weave (literals text) ((scan text).map fun span => f span.token)) ∧
      (∀ (m : Type → Type u) [Monad m] [LawfulMonad m],
        (substituteM (fun span => pure span.token.rawText) text : m String) = pure text) ∧
      substitute Token.rawText text = text := by
  refine ⟨parted_scan text, length_literalsFrom 0 _, weave_rawText text,
    fun m _ _ f => substituteM_eq f text, fun f => substitute_eq_weave f text, ?_, ?_⟩
  · intro m _ _
    rw [substituteM_eq, List.mapM_pure, map_pure, weave_rawText]
  · rw [substitute_eq_weave, weave_rawText]

/-- A replacement that keeps the places where tokens start, among characters of two
and three bytes. -/
theorem substituteM_partitions_starts :
    LawfulMonad (StateM (List ℕ)) ∧
      ((substituteM (fun span => do modify (· ++ [span.start]); pure span.token.key)
        "é\x7b%a%\x7d–\x7b%\x7b%%b%\x7d✓" : StateM (List ℕ) String).run []).run =
          ("éa–\x7b%b✓", [2, 12]) := by
  refine ⟨inferInstance, ?_⟩
  rw [(substituteM_partitions "é\x7b%a%\x7d–\x7b%\x7b%%b%\x7d✓").2.2.2.1]
  decide +kernel

end Placeholder

end PageTree
