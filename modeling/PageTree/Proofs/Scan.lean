/-
The scanner finds the tokens of a text, all of them and nothing else.

A scanner only goes forward: to the last opening mark before a closing brace,
past a closing brace that closes no token, and past a token. The invariant is
that the text it goes past has no tokens but the one it reports, so that what is
left to be found does not change (`Scanner.left_eq_of_move`).

* `pieces_of_splitOpening?_eq_none`, `pieces_of_splitOpening?_eq_some`,
  `pieces_of_beforeLastOpening?_eq_some`,
  `pieces_of_beforeLastOpening?_eq_none`: the stretches of text without tokens
  that a scanner goes past;
* `scanFrom_eq`: a whole run finds the tokens among the pieces of the text;
* `Span.Marks`: the places of the tokens in a text;
* `mem_scan_iff`, `pairwise_spansFrom`, `single?_eq_some_iff`: the three parts of
  exactness, which are the places of the tokens, their order and the texts that
  are one token.
-/
import PageTree.Proofs.Pieces

namespace PageTree

namespace Placeholder

/-! ### Stretches without tokens -/

/-- A text without opening marks has no tokens. -/
lemma pieces_of_splitOpening?_eq_none {cs : List Char} (h : splitOpening? cs = none) :
    pieces cs = cs.map .char := by
  induction cs with
  | nil => rw [pieces_nil, List.map_nil]
  | cons c rest ih =>
    rw [splitOpening?] at h
    split at h
    · simp at h
    · next hopen =>
      rw [pieces_char (Token.read?_eq_none hopen), ih (Option.map_eq_none_iff.mp h),
        List.map_cons]

/-- No token starts before the first opening mark. -/
lemma pieces_of_splitOpening?_eq_some {cs before after : List Char}
    (h : splitOpening? cs = some (before, after)) :
    cs = before ++ '\x7b' :: '%' :: after ∧
      pieces cs = before.map .char ++ pieces ('\x7b' :: '%' :: after) := by
  induction cs generalizing before with
  | nil => simp [splitOpening?] at h
  | cons c rest ih =>
    rw [splitOpening?] at h
    split at h
    · next hopen =>
      simp only [Option.some.injEq, Prod.mk.injEq] at h
      obtain ⟨rfl, rfl⟩ := h
      obtain ⟨rest, rfl⟩ := List.head?_eq_some_iff.mp hopen.2
      rw [hopen.1]
      exact ⟨rfl, rfl⟩
    · next hopen =>
      obtain ⟨⟨b, a⟩, hrest, heq⟩ := Option.map_eq_some_iff.mp h
      simp only [Prod.mk.injEq] at heq
      obtain ⟨rfl, rfl⟩ := heq
      obtain ⟨hcs, hpieces⟩ := ih hrest
      refine ⟨by rw [hcs, List.cons_append], ?_⟩
      rw [pieces_char (Token.read?_eq_none hopen), hpieces, List.map_cons, List.cons_append]

/-- An opening mark before a closing brace is not the last character. -/
lemma mem_dropLast_of_beforeLastOpening? {cs before : List Char}
    (h : beforeLastOpening? cs = some before) : '\x7b' ∈ cs.dropLast := by
  induction cs generalizing before with
  | nil => simp [beforeLastOpening?] at h
  | cons c rest ih =>
    rw [beforeLastOpening?] at h
    split at h
    · next b hrest =>
      have hmem := ih hrest
      cases rest with
      | nil => simp at hmem
      | cons d rest =>
        rw [List.dropLast_cons_cons]
        exact List.mem_cons_of_mem c hmem
    · split at h
      · next hopen =>
        obtain ⟨rest, rfl⟩ := List.head?_eq_some_iff.mp hopen.2
        rw [hopen.1, List.dropLast_cons_cons]
        exact List.mem_cons_self
      · simp at h

/-- No token holds an opening mark: none starts before the last one in front of
a closing brace. -/
lemma read?_of_beforeLastOpening? {c : Char} {inner rest before : List Char}
    (hclose : '\x7d' ∉ inner) (h : beforeLastOpening? inner = some before) :
    Token.read? (c :: (inner ++ '\x7d' :: rest)) = none := by
  rcases hread : Token.read? (c :: (inner ++ '\x7d' :: rest)) with _ | ⟨t, after⟩
  · rfl
  · obtain ⟨⟨k, hk⟩, heq⟩ := Token.eq_of_read? hread
    -- the token ends at the first closing brace, so all of `inner` is in it
    have htail : inner ++ '\x7d' :: rest = ('%' :: (t.body ++ ['%'])) ++ '\x7d' :: after := by
      simpa [Token.raw] using (List.cons.inj heq).2
    have hbrace : '\x7d' ∉ '%' :: (t.body ++ ['%']) := by
      simpa using hk.closing_notMem_body
    have hinner : inner = '%' :: (t.body ++ ['%']) := by
      have := congrArg (List.takeWhile (· ≠ '\x7d')) htail
      rwa [takeWhile_closing hclose, takeWhile_closing hbrace] at this
    have hmem := mem_dropLast_of_beforeLastOpening? h
    rw [hinner, ← List.cons_append, List.dropLast_concat, List.mem_cons] at hmem
    rcases hmem with hmem | hmem
    · exact absurd hmem (by decide)
    · exact absurd rfl (hk.ne_brace _ hmem).1

/-- The text before the last opening mark in front of a closing brace has no
tokens. -/
lemma pieces_of_beforeLastOpening?_eq_some {inner before rest : List Char}
    (hclose : '\x7d' ∉ inner) (h : beforeLastOpening? inner = some before) :
    pieces (inner ++ '\x7d' :: rest) =
      before.map .char ++ pieces ((inner ++ '\x7d' :: rest).drop before.length) := by
  induction inner generalizing before with
  | nil => simp [beforeLastOpening?] at h
  | cons c inner ih =>
    have hclose' : '\x7d' ∉ inner := fun hmem => hclose (List.mem_cons_of_mem c hmem)
    rw [beforeLastOpening?] at h
    split at h
    · next b hinner =>
      obtain rfl := Option.some.inj h
      rw [List.cons_append, pieces_char (read?_of_beforeLastOpening? hclose' hinner),
        ih hclose' hinner]
      rfl
    · split at h
      · obtain rfl := Option.some.inj h
        rfl
      · simp at h

/-- A text without opening marks in front of a closing brace has no tokens, nor
does one start at the brace. -/
lemma pieces_of_beforeLastOpening?_eq_none {inner rest : List Char}
    (h : beforeLastOpening? inner = none) :
    pieces (inner ++ '\x7d' :: rest) = (inner ++ ['\x7d']).map .char ++ pieces rest := by
  induction inner with
  | nil =>
    rw [List.nil_append, pieces_char (Token.read?_eq_none (by simp))]
    rfl
  | cons c inner ih =>
    rw [beforeLastOpening?] at h
    split at h
    · simp at h
    · next hinner =>
      have hopen : ¬ (c = '\x7b' ∧ (inner ++ '\x7d' :: rest).head? = some '%') := by
        rintro ⟨hc, hhead⟩
        rw [if_pos] at h
        · simp at h
        · refine ⟨hc, ?_⟩
          cases inner with
          | nil => simp at hhead
          | cons d inner => exact hhead
      rw [List.cons_append, pieces_char (Token.read?_eq_none hopen), ih hinner]
      rfl

/-- A closing brace closes a token that starts right before the text in front of
it, or none at all. -/
lemma read?_closing {inner rest : List Char} (hclose : '\x7d' ∉ inner) :
    Token.read? ('\x7b' :: '%' :: (inner ++ '\x7d' :: rest)) =
      if inner.getLast? = some '%' ∧ isBody inner.dropLast then some (⟨inner.dropLast⟩, rest)
      else none := by
  rw [Token.read?]
  simp only [takeWhile_closing hclose, dropWhile_closing hclose]

/-! ### Places -/

lemma byteSize_append (as bs : List Char) : byteSize (as ++ bs) = byteSize as + byteSize bs := by
  induction as with
  | nil => simp [byteSize]
  | cons c as ih => rw [List.cons_append, byteSize, byteSize, ih, Nat.add_assoc]

/-- An opening mark takes up two bytes. -/
lemma byteSize_opening (cs : List Char) : byteSize ('\x7b' :: '%' :: cs) = 2 + byteSize cs := by
  rw [byteSize, byteSize, ← Nat.add_assoc]
  rfl

/-- A closing brace takes up one byte. -/
lemma byteSize_closing (cs : List Char) : byteSize (cs ++ ['\x7d']) = byteSize cs + 1 := by
  rw [byteSize_append]
  rfl

/-- The size of a text in bytes is that of its string. -/
lemma utf8ByteSize_ofList (cs : List Char) : (String.ofList cs).utf8ByteSize = byteSize cs := by
  induction cs with
  | nil => rfl
  | cons c cs ih =>
    have hcons : String.ofList (c :: cs) = String.singleton c ++ String.ofList cs := by
      rw [String.singleton_eq_ofList, ← String.ofList_append]
      rfl
    rw [hcons, String.utf8ByteSize_append, String.utf8ByteSize_singleton, ih, byteSize]

lemma byteSize_toList (s : String) : byteSize s.toList = s.utf8ByteSize := by
  rw [← utf8ByteSize_ofList, String.ofList_toList]

/-- A text that takes up no bytes is empty. -/
lemma eq_nil_of_byteSize_eq_zero {cs : List Char} (h : byteSize cs = 0) : cs = [] := by
  cases cs with
  | nil => rfl
  | cons c cs =>
    rw [byteSize] at h
    have := c.utf8Size_pos
    omega

/-- Pieces after others start where these end. -/
lemma spansFrom_append (start : ℕ) (ps qs : List Piece) :
    spansFrom start (ps ++ qs) =
      spansFrom start ps ++ spansFrom (start + byteSize (ps.flatMap Piece.raw)) qs := by
  induction ps generalizing start with
  | nil => simp [spansFrom, byteSize]
  | cons p ps ih =>
    rw [List.flatMap_cons, byteSize_append, ← Nat.add_assoc]
    cases p with
    | char c =>
      rw [List.cons_append, spansFrom, spansFrom, ih]
      rfl
    | token t =>
      rw [List.cons_append, spansFrom, spansFrom, ih]
      rfl

/-- Characters outside of tokens only move the places on. -/
lemma spansFrom_chars (start : ℕ) (cs : List Char) (ps : List Piece) :
    spansFrom start (cs.map .char ++ ps) = spansFrom (start + byteSize cs) ps := by
  induction cs generalizing start with
  | nil => simp [byteSize]
  | cons c cs ih => rw [List.map_cons, List.cons_append, spansFrom, ih, byteSize, Nat.add_assoc]

/-! ### Runs of the scanner -/

/-- The tokens ahead of a scanner. -/
def Scanner.left (s : Scanner) : List Span := spansFrom s.pos (pieces s.ahead)

/-- What is left after a move, with the token that it has found. -/
def Move.left : Move → List Span
  | .stop => []
  | .skip next => next.left
  | .found span next => span :: next.left

/-- **One move** leaves the tokens to be found as they are: what it goes past
has no tokens but the one it finds. -/
lemma Scanner.left_eq_of_move (s : Scanner) : s.left = s.move.left := by
  rw [Scanner.move]
  split
  · next hsplit =>
    rw [Scanner.left, pieces_of_splitOpening?_eq_none hsplit, ← List.append_nil (s.ahead.map _),
      spansFrom_chars]
    rfl
  · next before after hsplit =>
    have hleft : s.left = spansFrom (s.pos + byteSize before) (pieces ('\x7b' :: '%' :: after)) := by
      rw [Scanner.left, (pieces_of_splitOpening?_eq_some hsplit).2, spansFrom_chars]
    simp only
    split
    · next hdrop =>
      -- no closing brace ahead
      have hno : '\x7d' ∉ '\x7b' :: '%' :: after := by simpa using closing_notMem hdrop
      rw [hleft, pieces_of_no_closing hno, ← List.append_nil (List.map _ _), spansFrom_chars]
      rfl
    · next d ys hdrop =>
      obtain ⟨inner, rest, hinner, rfl⟩ := exists_closing (by rw [hdrop]; simp)
      rw [dropWhile_closing hinner] at hdrop
      obtain ⟨-, rfl⟩ := List.cons.inj hdrop
      rw [hleft, takeWhile_closing hinner]
      split
      · next skipped hlast =>
        -- the last opening mark in front of the brace
        have hlast' : beforeLastOpening? ('\x7b' :: '%' :: inner) =
            some ('\x7b' :: '%' :: skipped) := by simp [beforeLastOpening?, hlast]
        have hinner' : '\x7d' ∉ '\x7b' :: '%' :: inner := by simpa using hinner
        have hpieces : pieces ('\x7b' :: '%' :: (inner ++ '\x7d' :: rest)) =
            ('\x7b' :: '%' :: skipped).map .char ++
              pieces ((inner ++ '\x7d' :: rest).drop skipped.length) :=
          pieces_of_beforeLastOpening?_eq_some hinner' hlast'
        rw [hpieces, spansFrom_chars, byteSize_opening, ← Nat.add_assoc]
        rfl
      · next hlast =>
        split
        · next hbody =>
          -- the brace closes a token
          have hread : Token.read? ('\x7b' :: '%' :: (inner ++ '\x7d' :: rest)) =
              some (⟨inner.dropLast⟩, rest) := by rw [read?_closing hinner, if_pos hbody]
          have hstop : s.pos + byteSize before + byteSize (Token.raw ⟨inner.dropLast⟩) =
              s.pos + byteSize before + 2 + byteSize inner + 1 := by
            rw [Token.raw_dropLast hbody.1, byteSize_opening, byteSize_closing]
            omega
          rw [pieces_of_read? hread, spansFrom, hstop]
          rfl
        · next hbody =>
          -- the brace closes nothing
          have hread : Token.read? ('\x7b' :: '%' :: (inner ++ '\x7d' :: rest)) = none := by
            rw [read?_closing hinner, if_neg hbody]
          rw [pieces_char hread, pieces_char (Token.read?_eq_none (by simp)),
            pieces_of_beforeLastOpening?_eq_none hlast, spansFrom, spansFrom, spansFrom_chars,
            byteSize_closing]
          rfl

/-- **A whole run** finds the tokens among the pieces of the text ahead. -/
theorem scanFrom_eq (s : Scanner) : scanFrom s = s.left := by
  fun_induction scanFrom s with
  | case1 s hmove => rw [s.left_eq_of_move, hmove, Move.left]
  | case2 s next hmove _ ih => rw [s.left_eq_of_move, hmove, Move.left, ih]
  | case3 s span next hmove _ ih => rw [s.left_eq_of_move, hmove, Move.left, ih]

/-- The scanner finds the tokens among the pieces of a text. -/
theorem scan_eq (text : String) : scan text = spansFrom 0 (pieces text.toList) := scanFrom_eq _

/-! ### The places of tokens -/

/-- The place of some proper token in a text: the bytes before it, and those up
to its end. -/
def Span.Marks (span : Span) (text : String) : Prop :=
  (∃ k, span.token.Proper k ∧ span.token.key = String.ofList k) ∧
    ∃ before after : String, text = before ++ span.token.rawText ++ after ∧
      span.start = before.utf8ByteSize ∧
      span.stop = (before ++ span.token.rawText).utf8ByteSize

/-- The spans of pieces, each after the pieces in front of it. -/
lemma mem_spansFrom_iff {start : ℕ} {ps : List Piece} {span : Span} :
    span ∈ spansFrom start ps ↔ ∃ as t bs, ps = as ++ .token t :: bs ∧
      span = ⟨start + byteSize (as.flatMap Piece.raw),
        start + byteSize (as.flatMap Piece.raw ++ t.raw), t⟩ := by
  constructor
  · intro h
    induction ps generalizing start with
    | nil => simp [spansFrom] at h
    | cons p ps ih =>
      cases p with
      | char c =>
        obtain ⟨as, t, bs, rfl, rfl⟩ := ih h
        refine ⟨.char c :: as, t, bs, rfl, ?_⟩
        simp [Piece.raw, byteSize, Nat.add_assoc]
      | token u =>
        rcases List.mem_cons.mp h with rfl | h
        · exact ⟨[], u, ps, rfl, rfl⟩
        · obtain ⟨as, t, bs, rfl, rfl⟩ := ih h
          refine ⟨.token u :: as, t, bs, rfl, ?_⟩
          simp [Piece.raw, byteSize_append, Nat.add_assoc]
  · rintro ⟨as, t, bs, rfl, rfl⟩
    rw [spansFrom_append, spansFrom, byteSize_append, Nat.add_assoc]
    simp

/-- The scanner reports the places of the proper tokens in a text. -/
lemma mem_scan_iff {text : String} {span : Span} : span ∈ scan text ↔ span.Marks text := by
  rw [scan_eq, mem_spansFrom_iff]
  constructor
  · rintro ⟨as, t, bs, hps, rfl⟩
    have hmem : .token t ∈ pieces text.toList := by rw [hps]; simp
    obtain ⟨k, hk⟩ := proper_of_mem_pieces hmem
    have htext := raw_pieces text.toList
    rw [hps, List.flatMap_append, List.flatMap_cons] at htext
    refine ⟨⟨k, hk, by rw [Token.key, hk.trim_eq]⟩, String.ofList (as.flatMap Piece.raw),
      String.ofList (bs.flatMap Piece.raw), ?_, ?_, ?_⟩
    · apply String.toList_inj.mp
      rw [← htext]
      simp [Token.rawText, Piece.raw]
    · rw [utf8ByteSize_ofList, Nat.zero_add]
    · rw [Token.rawText, ← String.ofList_append, utf8ByteSize_ofList]
      exact Nat.zero_add _
  · rintro ⟨⟨k, hk, -⟩, before, after, rfl, hstart, hstop⟩
    refine ⟨pieces before.toList, span.token, pieces after.toList, ?_, ?_⟩
    · rw [← pieces_append_token hk]
      simp [Token.rawText]
    · rw [raw_pieces, Nat.zero_add, Nat.zero_add, byteSize_toList, byteSize_append, byteSize_toList,
        ← hstart]
      rw [String.utf8ByteSize_append, Token.rawText, utf8ByteSize_ofList, ← hstart] at hstop
      rw [← hstop]

/-- The tokens of a text come in order, and apart from each other. -/
lemma pairwise_spansFrom (start : ℕ) (ps : List Piece) :
    (∀ span ∈ spansFrom start ps, start ≤ span.start) ∧
      (spansFrom start ps).Pairwise fun s s' => s.start < s'.start ∧ s.stop ≤ s'.start := by
  induction ps generalizing start with
  | nil => simp [spansFrom]
  | cons p ps ih =>
    cases p with
    | char c =>
      obtain ⟨hle, hpair⟩ := ih (start + c.utf8Size)
      exact ⟨fun span h => by have := hle span h; omega, hpair⟩
    | token t =>
      obtain ⟨hle, hpair⟩ := ih (start + byteSize t.raw)
      have hpos : 0 < byteSize t.raw := by
        by_contra h
        exact t.raw_ne_nil (eq_nil_of_byteSize_eq_zero (by omega))
      rw [spansFrom]
      refine ⟨?_, List.pairwise_cons.mpr ⟨fun span h => ?_, hpair⟩⟩
      · intro span h
        rcases List.mem_cons.mp h with rfl | h
        · exact Nat.le_refl _
        · have := hle span h
          omega
      · have := hle span h
        simp only
        omega

/-- The scanner reports a text that is one token as one span. -/
lemma scan_rawText {t : Token} {k : List Char} (h : t.Proper k) :
    scan t.rawText = [⟨0, t.rawText.utf8ByteSize, t⟩] := by
  rw [scan_eq, pieces_rawText h, spansFrom, spansFrom, Token.rawText, utf8ByteSize_ofList,
    Nat.zero_add]

/-- The single token of a text is one that takes up the whole text. -/
lemma single?_eq_some_iff {text : String} {span : Span} :
    single? text = some span ↔ span.Marks text ∧ text = span.token.rawText := by
  rw [← mem_scan_iff]
  constructor
  · intro h
    rw [single?] at h
    split at h
    · next first others hscan =>
      split at h
      · next hends =>
        obtain rfl := Option.some.inj h
        have hmem : first ∈ scan text := by rw [hscan]; exact List.mem_cons_self
        obtain ⟨-, before, after, htext, hstart, hstop⟩ := mem_scan_iff.mp hmem
        have hbefore : before = "" := by
          rw [← String.utf8ByteSize_eq_zero_iff, ← hstart, hends.1]
        have hafter : after = "" := by
          rw [← String.utf8ByteSize_eq_zero_iff]
          have hsize := congrArg String.utf8ByteSize htext
          rw [String.utf8ByteSize_append, ← hstop, ← hends.2] at hsize
          omega
        refine ⟨hmem, ?_⟩
        rw [htext, hbefore, hafter, String.empty_append, String.append_empty]
      · simp at h
    · simp at h
  · rintro ⟨hmem, htext⟩
    obtain ⟨⟨k, hk, -⟩, -⟩ := mem_scan_iff.mp hmem
    have hscan := scan_rawText hk
    rw [← htext] at hscan
    rw [hscan, List.mem_singleton] at hmem
    rw [single?, hscan]
    exact (if_pos ⟨rfl, rfl⟩).trans (congrArg some hmem.symm)

/-- **The scanner is exact**: it reports the proper tokens of a text, each at its
place, and nothing else; they come in order and do not overlap; and a text has
a single token when it is one token from end to end. -/
theorem scan_exact (text : String) :
    (∀ span, span ∈ scan text ↔ span.Marks text) ∧
      ((scan text).Pairwise fun s s' => s.start < s'.start ∧ s.stop ≤ s'.start) ∧
      (∀ span, single? text = some span ↔ span.Marks text ∧ text = span.token.rawText) ∧
      ((single? text).isSome = true ↔
        ∃ (t : Token) (k : List Char), t.Proper k ∧ text = t.rawText) := by
  refine ⟨fun span => mem_scan_iff, ?_, fun span => single?_eq_some_iff, ?_⟩
  · rw [scan_eq]
    exact (pairwise_spansFrom 0 _).2
  · constructor
    · intro h
      obtain ⟨span, hspan⟩ := Option.isSome_iff_exists.mp h
      obtain ⟨⟨⟨k, hk, -⟩, -⟩, htext⟩ := single?_eq_some_iff.mp hspan
      exact ⟨span.token, k, hk, htext⟩
    · rintro ⟨t, k, hk, rfl⟩
      rw [single?, scan_rawText hk]
      simp

/-- Of two opening marks in front of a closing brace, the last one counts. -/
example : (scan "x \x7b%a \x7b%b%\x7d y").map (·.start) = [6] := by decide +kernel

end Placeholder

end PageTree
