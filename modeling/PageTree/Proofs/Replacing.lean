/-
Replacing the tokens of a text.

What replaces a token is not read again, but a later replacement reads the whole
text, so it makes a difference whether a token is formed where a new part meets what
stands around it. If none is, the later replacement acts on the parts alone, and two
replacements are one. This is so when every opening mark starts a token and the new
parts are not empty and hold none of the characters that tokens are made of.

* `tokens`, `mem_tokens_iff`: the tokens of a text;
* `hasOpening_iff`: opening marks, as pairs of characters in a text;
* `substitute_congr`, `substitute_eq_self`: replacements that agree on them;
* `Seamless`, `Seamless.substitute_substitute`: **two replacements** in a row;
* `seamless_of_wellOpened`: texts in which no token is formed.
-/
import Mathlib.Data.List.Infix
import PageTree.Proofs.Literals

namespace PageTree

namespace Placeholder

variable {text : String} {t : Token} {f g : Token → String}

/-! ### The tokens of a text -/

/-- The tokens that the scanner finds in a text, in order. -/
def tokens (text : String) : List Token := (scan text).map Span.token

/-- The tokens of a text are those among its pieces. -/
lemma mem_tokens_iff : t ∈ tokens text ↔ .token t ∈ pieces text.toList := by
  rw [tokens, scan_eq, List.mem_map]
  constructor
  · rintro ⟨span, hspan, rfl⟩
    obtain ⟨as, u, bs, hpieces, rfl⟩ := mem_spansFrom_iff.mp hspan
    simp [hpieces]
  · intro h
    obtain ⟨as, bs, hpieces⟩ := List.append_of_mem h
    exact ⟨_, mem_spansFrom_iff.mpr ⟨as, t, bs, hpieces, rfl⟩, rfl⟩

/-- The tokens of a text are the proper tokens that are written in it. -/
lemma mem_tokens_iff_exists :
    t ∈ tokens text ↔
      (∃ k, t.Proper k) ∧ ∃ before after, text.toList = before ++ (t.raw ++ after) := by
  rw [mem_tokens_iff]
  constructor
  · intro h
    obtain ⟨as, bs, hpieces⟩ := List.append_of_mem h
    refine ⟨proper_of_mem_pieces h, as.flatMap Piece.raw, bs.flatMap Piece.raw, ?_⟩
    conv_lhs => rw [← raw_pieces text.toList, hpieces]
    simp [Piece.raw]
  · rintro ⟨⟨k, hk⟩, before, after, htext⟩
    rw [htext, pieces_append_token hk]
    simp

/-- A text without opening braces has no tokens. -/
lemma pieces_of_no_opening {cs : List Char} (h : '\x7b' ∉ cs) : pieces cs = cs.map .char := by
  induction cs with
  | nil => exact pieces_nil
  | cons c rest ih =>
    rw [List.mem_cons, not_or] at h
    rw [pieces_char (Token.read?_eq_none fun hc => h.1 hc.1.symm), ih h.2]
    rfl

/-- A token starts with an opening mark. -/
lemma hasOpening_of_mem_pieces {cs : List Char} (h : .token t ∈ pieces cs) :
    hasOpening cs = true := by
  obtain ⟨as, bs, hpieces⟩ := List.append_of_mem h
  have hcs : cs = as.flatMap Piece.raw ++ (t.raw ++ bs.flatMap Piece.raw) := by
    conv_lhs => rw [← raw_pieces cs, hpieces]
    simp [Piece.raw]
  rw [hcs]
  induction as.flatMap Piece.raw with
  | nil => simp [Token.raw, hasOpening]
  | cons c before ih =>
    rw [List.cons_append, hasOpening, ih, Bool.or_true]

/-- An opening mark is a pair of characters in a text. -/
lemma hasOpening_iff {cs : List Char} : hasOpening cs = true ↔ ['\x7b', '%'] <:+: cs := by
  induction cs with
  | nil => simp [hasOpening]
  | cons c cs ih => simp [hasOpening, Text.pair_infix_cons_iff, ih]

/-! ### Replacements that agree -/

/-- A replacement is known by what becomes of the tokens of the text. -/
lemma substitute_congr (h : ∀ t ∈ tokens text, f t = g t) :
    substitute f text = substitute g text := by
  rw [substitute_eq_weave, substitute_eq_weave]
  congr 1
  exact List.map_congr_left fun span hspan => h span.token (List.mem_map_of_mem hspan)

/-- A text in which every token is replaced by itself. -/
lemma substitute_eq_self (h : ∀ t ∈ tokens text, f t = t.rawText) : substitute f text = text := by
  rw [substitute_congr h, substitute_eq_weave, weave_rawText]

lemma mem_tokens_rawText_iff {k : List Char} (h : t.Proper k) {u : Token} :
    u ∈ tokens t.rawText ↔ u = t := by
  rw [mem_tokens_iff, pieces_rawText h, List.mem_singleton, Piece.token.injEq]

lemma substitute_rawText {k : List Char} (h : t.Proper k) (f : Token → String) :
    substitute f t.rawText = f t := by
  rw [substitute_eq, pieces_rawText h, List.flatMap_singleton, Piece.write, String.ofList_toList]

/-! ### Two replacements -/

/-- Whether a text has the pieces of its parts after its tokens are replaced, so that
no token is formed where the parts meet. -/
def Seamless (f : Token → String) (text : String) : Prop :=
  pieces (substitute f text).toList = (pieces text.toList).flatMap fun p => pieces (p.write f)

instance (f : Token → String) (text : String) : Decidable (Seamless f text) :=
  inferInstanceAs (Decidable (_ = _))

lemma pieces_singleton (c : Char) : pieces [c] = [.char c] := by
  rw [pieces_char (Token.read?_eq_none (by simp)), pieces_nil]

/-- **Two replacements** in a row, if no token is formed by the first one: the second
one acts on what the tokens have become. -/
theorem Seamless.substitute_substitute (h : Seamless f text) (g : Token → String) :
    substitute g (substitute f text) = substitute (fun t => substitute g (f t)) text := by
  have hparts : ∀ p : Piece, (pieces (p.write f)).flatMap (Piece.write g) =
      p.write fun t => substitute g (f t) := by
    intro p
    cases p with
    | char c => rw [Piece.write, pieces_singleton]; rfl
    | token t => rw [Piece.write, Piece.write, substitute_eq, String.toList_ofList]
  rw [substitute_eq, h, List.flatMap_assoc]
  simp only [hparts]
  exact (substitute_eq _ _).symm

/-- The tokens of such a text are those of what its tokens have become. -/
lemma Seamless.mem_tokens_iff (h : Seamless f text) :
    t ∈ tokens (substitute f text) ↔ ∃ u ∈ tokens text, t ∈ tokens (f u) := by
  rw [Placeholder.mem_tokens_iff, h, List.mem_flatMap]
  constructor
  · rintro ⟨p, hp, ht⟩
    cases p with
    | char c => simp [Piece.write, pieces_singleton] at ht
    | token u => exact ⟨u, Placeholder.mem_tokens_iff.mpr hp, Placeholder.mem_tokens_iff.mpr ht⟩
  · rintro ⟨u, hu, ht⟩
    exact ⟨.token u, Placeholder.mem_tokens_iff.mp hu, Placeholder.mem_tokens_iff.mp ht⟩

/-! ### Texts in which no token is formed -/

/-- Whether every opening mark in a text starts a token. -/
def WellOpened (cs : List Char) : Prop :=
  ∀ rest, rest <:+ cs → ['\x7b', '%'] <+: rest → (Token.read? rest).isSome = true

instance (cs : List Char) : Decidable (WellOpened cs) :=
  decidable_of_iff
    (∀ rest ∈ cs.tails, ['\x7b', '%'] <+: rest → (Token.read? rest).isSome = true)
    (by simp only [WellOpened, List.mem_tails])

lemma WellOpened.of_suffix {as bs : List Char} (h : WellOpened bs) (hsuffix : as <:+ bs) :
    WellOpened as :=
  fun rest hrest => h rest (hrest.trans hsuffix)

/-- Whether a text is not empty and holds none of the characters that tokens are made
of. -/
def Inert (text : String) : Prop := text ≠ "" ∧ IsKey text.toList

instance (text : String) : Decidable (Inert text) := inferInstanceAs (Decidable (_ ∧ _))

lemma Inert.no_opening (h : Inert text) : '\x7b' ∉ text.toList := fun hmem => (h.2 _ hmem).2.1 rfl

/-- An inert text has no tokens. -/
lemma Inert.tokens_eq_nil (h : Inert text) : tokens text = [] := by
  refine List.eq_nil_iff_forall_not_mem.mpr fun t ht => ?_
  rw [mem_tokens_iff, pieces_of_no_opening h.no_opening] at ht
  simp at ht

/-- An inert text in front of another one. -/
lemma pieces_append_of_inert (h : Inert text) (rest : List Char) :
    pieces (text.toList ++ rest) = pieces text.toList ++ pieces rest := by
  have hno := h.no_opening
  rw [pieces_of_no_opening hno]
  generalize text.toList = cs at hno
  induction cs with
  | nil => rfl
  | cons c cs ih =>
    rw [List.mem_cons, not_or] at hno
    rw [List.cons_append, pieces_char (Token.read?_eq_none fun hc => hno.1 hc.1.symm), ih hno.2]
    rfl

/-- What a piece becomes starts with a percent sign only if the piece does. -/
lemma head?_write_ne {p : Piece} (hp : p.raw.head? ≠ some '%')
    (hf : ∀ t, p = .token t → f t = t.rawText ∨ Inert (f t)) :
    ∃ c rest, p.write f = c :: rest ∧ c ≠ '%' := by
  cases p with
  | char c => exact ⟨c, [], rfl, fun hc => hp (by rw [hc]; rfl)⟩
  | token t =>
    rcases hf t rfl with hkept | ⟨hne, hkey⟩
    · refine ⟨'\x7b', ('%' :: t.body ++ ['%', '\x7d']), ?_, by decide⟩
      rw [Piece.write, hkept, Token.rawText, String.toList_ofList]
      rfl
    · obtain ⟨c, rest, hcs⟩ :=
        List.exists_cons_of_ne_nil (fun hnil => hne (String.toList_eq_nil_iff.mp hnil))
      exact ⟨c, rest, hcs, (hkey c (by rw [hcs]; exact List.mem_cons_self)).1⟩

/-- The pieces of a text after a replacement that puts in the tokens themselves or
inert texts. -/
lemma pieces_flatMap_write {cs : List Char} (hopen : WellOpened cs)
    (hf : ∀ t, .token t ∈ pieces cs → f t = t.rawText ∨ Inert (f t)) :
    pieces ((pieces cs).flatMap (Piece.write f)) =
      (pieces cs).flatMap fun p => pieces (p.write f) := by
  fun_induction pieces cs with
  | case1 => exact pieces_nil
  | case2 c rest t after hread _ ih =>
    obtain ⟨⟨k, hk⟩, hcs⟩ := Token.eq_of_read? hread
    have hafter : WellOpened after := hopen.of_suffix ⟨t.raw, hcs.symm⟩
    rw [List.flatMap_cons, List.flatMap_cons,
      ← ih hafter fun u hu => hf u (List.mem_cons_of_mem _ hu)]
    rcases hf t List.mem_cons_self with hkept | hinert
    · rw [Piece.write, hkept, Token.rawText, String.toList_ofList, pieces_token hk,
        ← List.append_nil t.raw, pieces_token hk, pieces_nil]
      rfl
    · exact pieces_append_of_inert hinert _
  | case3 c rest hread ih =>
    have hrest : WellOpened rest := hopen.of_suffix (List.suffix_cons c rest)
    rw [List.flatMap_cons, List.flatMap_cons,
      ← ih hrest fun u hu => hf u (List.mem_cons_of_mem _ hu)]
    have hhead : ¬ (c = '\x7b' ∧ rest.head? = some '%') := by
      rintro ⟨rfl, hhead⟩
      obtain ⟨rest', rfl⟩ : ∃ rest', rest = '%' :: rest' := by
        cases rest with
        | nil => simp at hhead
        | cons d rest' => exact ⟨rest', by rw [Option.some.inj hhead]⟩
      have hsome := hopen _ List.suffix_rfl ⟨rest', rfl⟩
      rw [hread] at hsome
      exact absurd hsome (by simp)
    -- the piece after `c` does not turn it into an opening mark
    have hhead' : ¬ (c = '\x7b' ∧ ((pieces rest).flatMap (Piece.write f)).head? = some '%') := by
      rintro ⟨hc, hhead'⟩
      have hraw := raw_pieces rest
      cases hpieces : pieces rest with
      | nil => simp [hpieces] at hhead'
      | cons p ps =>
        rw [hpieces] at hraw hhead'
        have hp : p.raw.head? ≠ some '%' := by
          intro hp
          refine hhead ⟨hc, ?_⟩
          rw [← hraw, List.flatMap_cons, List.head?_append, hp]
          rfl
        have hmem : ∀ u, p = .token u → f u = u.rawText ∨ Inert (f u) := by
          intro u hu
          exact hf u (List.mem_cons_of_mem _ (by rw [hpieces, hu]; exact List.mem_cons_self))
        obtain ⟨d, ds, hwrite, hd⟩ := head?_write_ne hp hmem
        rw [List.flatMap_cons, hwrite] at hhead'
        exact hd (Option.some.inj hhead')
    rw [Piece.write, List.singleton_append, pieces_char (Token.read?_eq_none hhead'),
      pieces_singleton]
    rfl

/-- No token is formed in a text whose opening marks all start tokens, if these stay
or become inert texts. -/
theorem seamless_of_wellOpened (hopen : WellOpened text.toList)
    (hf : ∀ t ∈ tokens text, f t = t.rawText ∨ Inert (f t)) : Seamless f text := by
  rw [Seamless, substitute_eq, String.toList_ofList]
  exact pieces_flatMap_write hopen fun t ht => hf t (Placeholder.mem_tokens_iff.mpr ht)

/-- A token is formed around one that is replaced. -/
example : ¬ Seamless (fun _ => "c") "\x7b%a\x7b%b%\x7d%\x7d" := by decide +kernel

end Placeholder

end PageTree
