/-
What the removal of left-over tokens cuts out of a page.

A cut is a token, or an attribute whose whole value is a token: a blank, a name,
an equals sign and the token in quotes. Cuts that overlap share their token, so
a page is the cuts in it with the characters between them, and it can be read
from left to right: a cut at the front goes, and any other character stays.

* `Cut`: the texts that are cut out;
* `stripChars_cut`, `stripChars_cons`: the step from the left;
* `strip_induction`: a page read from the left;
* `Cut.inside`: a cut that starts inside another one ends inside it;
* `CutAcross`, `stripChars_append`: two texts put together lose what each of
  them loses, unless a cut runs from the one into the other;
* `length_stripChars_lt`: in this case they lose more;
* `strip_append_iff`: both directions.
-/
import Mathlib.Tactic.Common
import PageTree.Proofs.Pieces
import PageTree.Cleanup

namespace PageTree

namespace Cleanup

open Placeholder

/-! ### Attributes in front of a token -/

/-- The start of an attribute up to its value: a blank, a name, an equals sign
and a quote. -/
def AttributeStart (l : List Char) : Prop :=
  ∃ blank name, Text.isAsciiBlank blank = true ∧ name ≠ [] ∧ (∀ c ∈ name, isNameChar c = true) ∧
    l = blank :: (name ++ ['=', '"'])

/-- A blank is no character of a name. -/
lemma isNameChar_of_isAsciiBlank {c : Char} (h : Text.isAsciiBlank c = true) :
    isNameChar c = false := by
  simp only [Text.isAsciiBlank, Bool.or_eq_true, decide_eq_true_eq] at h
  rcases h with (((rfl | rfl) | rfl) | rfl) | rfl <;> decide

/-- Neither braces nor percent signs stand in front of the value of an
attribute. -/
lemma AttributeStart.notMem {l : List Char} (h : AttributeStart l) {c : Char}
    (hc : c = '\x7b' ∨ c = '\x7d') : c ∉ l := by
  obtain ⟨blank, name, hblank, -, hname, rfl⟩ := h
  intro hmem
  simp only [List.mem_cons, List.mem_append, List.not_mem_nil, or_false] at hmem
  rcases hmem with rfl | hmem | rfl | rfl
  · rcases hc with rfl | rfl <;> exact absurd hblank (by decide)
  · have := hname c hmem
    rcases hc with rfl | rfl <;> exact absurd this (by decide)
  · exact absurd hc (by decide)
  · exact absurd hc (by decide)

/-- The look back from a token finds the start of an attribute. -/
lemma beforeAttribute?_eq_some_iff {reversed before : List Char} :
    beforeAttribute? reversed = some before ↔
      ∃ l, AttributeStart l ∧ reversed = l.reverse ++ before := by
  constructor
  · intro h
    unfold beforeAttribute? at h
    split at h
    · next rest =>
      simp only at h
      split at h
      · next c after hdrop =>
        split at h
        · next hcond =>
          obtain rfl := Option.some.inj h
          refine ⟨c :: ((rest.takeWhile isNameChar).reverse ++ ['=', '"']),
            ⟨c, _, hcond.2, by simpa using hcond.1, ?_, rfl⟩, ?_⟩
          · intro d hd
            exact List.mem_takeWhile_imp (List.mem_reverse.mp hd)
          · have := List.takeWhile_append_dropWhile (p := isNameChar) (l := rest)
            rw [hdrop] at this
            conv_lhs => rw [← this]
            simp
        · simp at h
      · simp at h
    · simp at h
  · rintro ⟨l, ⟨blank, name, hblank, hne, hname, rfl⟩, rfl⟩
    have hrev : ∀ c ∈ name.reverse, isNameChar c = true := fun c hc =>
      hname c (List.mem_reverse.mp hc)
    have hstop := isNameChar_of_isAsciiBlank hblank
    simp only [List.reverse_cons, List.reverse_append, List.reverse_nil, List.nil_append,
      List.cons_append, List.append_assoc, beforeAttribute?]
    rw [List.takeWhile_append_of_pos hrev, List.dropWhile_append_of_pos hrev,
      List.takeWhile_cons_of_neg (by simp [hstop]), List.dropWhile_cons_of_neg (by simp [hstop])]
    simp [hne, hblank]

/-- A character further back is not seen, unless the attribute starts with
it. -/
lemma beforeAttribute?_concat {p : List Char} {c : Char} (h : ¬ AttributeStart (c :: p.reverse)) :
    beforeAttribute? (p ++ [c]) = (beforeAttribute? p).map (· ++ [c]) := by
  cases hp : beforeAttribute? p with
  | some before =>
    obtain ⟨l, hl, rfl⟩ := beforeAttribute?_eq_some_iff.mp hp
    exact beforeAttribute?_eq_some_iff.mpr ⟨l, hl, by simp⟩
  | none =>
    rw [Option.map_none, Option.eq_none_iff_forall_ne_some]
    intro before hbefore
    obtain ⟨l, hl, heq⟩ := beforeAttribute?_eq_some_iff.mp hbefore
    rcases List.eq_nil_or_concat before with rfl | ⟨before, d, rfl⟩
    · have hl' : l = c :: p.reverse := by
        rw [← List.reverse_reverse l, ← List.append_nil l.reverse, ← heq]
        simp
      exact h (hl' ▸ hl)
    · rw [List.concat_eq_append, ← List.append_assoc, List.append_singleton_inj] at heq
      rw [beforeAttribute?_eq_some_iff.mpr ⟨l, hl, heq.1⟩] at hp
      exact absurd hp (by simp)

/-! ### Cuts -/

/-- The texts that are cut out of a page. -/
inductive Cut : List Char → Prop
  /-- A token. -/
  | token {t : Token} {k : List Char} (h : t.Proper k) : Cut t.raw
  /-- An attribute whose whole value is a token. -/
  | quoted {l : List Char} (hl : AttributeStart l) {t : Token} {k : List Char}
      (h : t.Proper k) : Cut (l ++ t.raw ++ ['"'])

/-- Whether no cut is at the front of a text. -/
def NoCut (cs : List Char) : Prop := ∀ k rest, Cut k → cs ≠ k ++ rest

lemma NoCut.read?_eq_none {cs : List Char} (h : NoCut cs) : Token.read? cs = none := by
  rcases hread : Token.read? cs with _ | ⟨t, rest⟩
  · rfl
  · obtain ⟨⟨k, hk⟩, heq⟩ := Token.eq_of_read? hread
    exact absurd heq (h _ _ (.token hk))

/-- No cut is at the front of a text with no cut at its front when more text
follows. -/
lemma NoCut.of_append {as bs : List Char} (h : NoCut (as ++ bs)) : NoCut as :=
  fun k rest hk heq => h k (rest ++ bs) hk (by rw [heq, List.append_assoc])

/-! ### Reading from the left -/

/-- A token that is the whole value of an attribute goes with the attribute. -/
lemma stripFrom_attribute {p before : List Char} (h : beforeAttribute? p = some before)
    (t : Token) (ps : List Piece) :
    stripFrom p (.token t :: .char '"' :: ps) = before.reverse ++ stripFrom [] ps := by
  rw [stripFrom]
  simp [h]

/-- Any other token goes alone. -/
lemma stripFrom_token {p : List Char} {ps : List Piece}
    (h : ∀ rest, ps = .char '"' :: rest → beforeAttribute? p = none) (t : Token) :
    stripFrom p (.token t :: ps) = p.reverse ++ stripFrom [] ps := by
  cases ps with
  | nil => simp [stripFrom]
  | cons piece ps =>
    cases piece with
    | token u => simp [stripFrom]
    | char c =>
      have hquote : ∀ before, beforeAttribute? p = some before → c ≠ '"' := by
        rintro before hbefore rfl
        rw [h ps rfl] at hbefore
        exact absurd hbefore (by simp)
      simp only [stripFrom]
      split
      · next before hbefore => rw [if_neg (hquote before hbefore)]
      · rfl

/-- Characters wait for a token behind them. -/
lemma stripFrom_chars (pending cs : List Char) (ps : List Piece) :
    stripFrom pending (cs.map .char ++ ps) = stripFrom (cs.reverse ++ pending) ps := by
  induction cs generalizing pending with
  | nil => rfl
  | cons c cs ih => rw [List.map_cons, List.cons_append, stripFrom, ih]; simp

/-- The first of the waiting characters stays, unless it starts an attribute
whose whole value is the next token. -/
lemma stripFrom_concat {p : List Char} {ps : List Piece} {c : Char}
    (h : ∀ u t rest, ps = u.map .char ++ .token t :: .char '"' :: rest →
      ¬ AttributeStart (c :: (p.reverse ++ u))) :
    stripFrom (p ++ [c]) ps = c :: stripFrom p ps := by
  induction ps generalizing p with
  | nil => simp [stripFrom]
  | cons piece ps ih =>
    cases piece with
    | char d =>
      rw [stripFrom, stripFrom, ← List.cons_append]
      refine ih fun u t rest heq => ?_
      have := h (d :: u) t rest (by rw [heq]; rfl)
      simpa using this
    | token t =>
      by_cases hquote : ∃ rest, ps = .char '"' :: rest
      · obtain ⟨rest, rfl⟩ := hquote
        have hstart : ¬ AttributeStart (c :: p.reverse) := by
          simpa using h [] t rest rfl
        cases hp : beforeAttribute? p with
        | some before =>
          have hpc : beforeAttribute? (p ++ [c]) = some (before ++ [c]) := by
            rw [beforeAttribute?_concat hstart, hp]
            rfl
          rw [stripFrom_attribute hp, stripFrom_attribute hpc]
          simp
        | none =>
          have hpc : beforeAttribute? (p ++ [c]) = none := by
            rw [beforeAttribute?_concat hstart, hp]
            rfl
          rw [stripFrom_token fun _ _ => hp, stripFrom_token fun _ _ => hpc]
          simp
      · have hno : ∀ q, ∀ rest, ps = .char '"' :: rest → beforeAttribute? q = none :=
          fun q rest heq => absurd ⟨rest, heq⟩ hquote
        rw [stripFrom_token (hno p), stripFrom_token (hno (p ++ [c]))]
        simp

lemma stripChars_nil : stripChars [] = [] := by rw [stripChars, pieces_nil, stripFrom]; rfl

/-- A cut at the front of a text goes. -/
lemma stripChars_cut {k : List Char} (hk : Cut k) (rest : List Char) :
    stripChars (k ++ rest) = stripChars rest := by
  cases hk with
  | token h =>
    rw [stripChars, pieces_token h, stripFrom_token fun _ _ => rfl]
    rfl
  | @quoted l hl t key h =>
    have hpieces : pieces (l ++ t.raw ++ ['"'] ++ rest) =
        l.map .char ++ .token t :: .char '"' :: pieces rest := by
      rw [List.append_assoc, List.append_assoc, pieces_append_token h,
        pieces_of_no_closing (hl.notMem (.inr rfl)), List.cons_append, List.nil_append,
        pieces_char (Token.read?_eq_none (by simp))]
    have hlook : beforeAttribute? (l.reverse ++ []) = some [] :=
      beforeAttribute?_eq_some_iff.mpr ⟨l, hl, rfl⟩
    rw [stripChars, hpieces, stripFrom_chars, stripFrom_attribute hlook]
    rfl

/-- A character that starts no cut stays. -/
lemma stripChars_cons {c : Char} {rest : List Char} (h : NoCut (c :: rest)) :
    stripChars (c :: rest) = c :: stripChars rest := by
  rw [stripChars, pieces_char h.read?_eq_none, stripFrom, ← List.nil_append [c]]
  refine stripFrom_concat fun u t ps heq hl => ?_
  have hmem : .token t ∈ pieces rest := by rw [heq]; simp
  obtain ⟨key, hkey⟩ := proper_of_mem_pieces hmem
  have hrest := raw_pieces rest
  rw [heq] at hrest
  refine h _ (ps.flatMap Piece.raw) (.quoted hl hkey) ?_
  rw [← hrest]
  simp [Piece.raw, List.flatMap_map]

lemma Cut.ne_nil {k : List Char} (hk : Cut k) : k ≠ [] := by
  cases hk with
  | token h => exact Token.raw_ne_nil _
  | quoted hl h => simp

/-- A cut has one opening brace, in an opening mark at its front or after the start of an
attribute. -/
lemma Cut.exists_opening {k : List Char} (hk : Cut k) :
    ∃ l rest, (l = [] ∨ AttributeStart l) ∧ k = l ++ '\x7b' :: '%' :: rest ∧
      '\x7b' ∉ l ∧ '\x7b' ∉ rest := by
  have hrest : ∀ {t : Token} {key : List Char}, t.Proper key →
      '\x7b' ∉ t.body ++ ['%', '\x7d'] := by
    intro t key ht hmem
    exact ht.opening_notMem_tail (List.mem_cons_of_mem _ hmem)
  cases hk with
  | @token t key ht =>
    exact ⟨[], _, .inl rfl, rfl, List.not_mem_nil, hrest ht⟩
  | @quoted l hl t key ht =>
    refine ⟨l, t.body ++ ['%', '\x7d', '"'], .inr hl, by simp [Token.raw], hl.notMem (.inl rfl), ?_⟩
    intro hmem
    refine hrest ht ?_
    simpa using hmem

/-- An opening brace further on in a cut comes after the start of an attribute. -/
lemma Cut.attributeStart {before after : List Char} (h : Cut (before ++ '\x7b' :: after))
    (hne : before ≠ []) : AttributeStart before := by
  obtain ⟨l, rest, hl, heq, hl', hrest⟩ := h.exists_opening
  have hbehind : '\x7b' ∉ '%' :: rest := by simp [hrest]
  obtain ⟨rfl, -⟩ := (List.append_cons_inj_of_notMem hl' hbehind).mp heq.symm
  exact hl.resolve_left hne

/-- A property of texts holds of all of them if it passes on to a text from what is
behind its first character, which no cut starts with, and from what is behind a cut at
its front. -/
@[elab_as_elim]
theorem strip_induction {P : List Char → Prop} (nil : P [])
    (cons : ∀ c rest, NoCut (c :: rest) → P rest → P (c :: rest))
    (cut : ∀ k rest, Cut k → P rest → P (k ++ rest)) (cs : List Char) : P cs := by
  induction hn : cs.length using Nat.strong_induction_on generalizing cs with
  | _ n ih =>
    cases cs with
    | nil => exact nil
    | cons c rest =>
      by_cases hfront : NoCut (c :: rest)
      · exact cons c rest hfront (ih rest.length (by simp at hn; omega) rest rfl)
      · simp only [NoCut, not_forall, not_not] at hfront
        obtain ⟨k, rest', hk, hfront⟩ := hfront
        have hpos := List.length_pos_iff.mpr hk.ne_nil
        rw [hfront, List.length_append] at hn
        rw [hfront]
        exact cut k rest' hk (ih rest'.length (by omega) rest' rfl)

/-- Nothing is added to a page. -/
lemma length_stripChars_le (cs : List Char) : (stripChars cs).length ≤ cs.length := by
  induction cs using strip_induction with
  | nil => rw [stripChars_nil]
  | cons c rest hfront ih =>
    rw [stripChars_cons hfront]
    simpa using ih
  | cut k rest hk ih =>
    rw [stripChars_cut hk, List.length_append]
    omega

/-! ### Cuts that overlap -/

/-- The first character of a cut is an opening brace or a blank. -/
lemma Cut.head_ne_quote {k : List Char} (hk : Cut k) (rest : List Char) : k ≠ '"' :: rest := by
  rintro rfl
  generalize hcut : '"' :: rest = k at hk
  cases hk with
  | token h => exact absurd (List.cons.inj hcut).1 (by decide)
  | quoted hl h =>
    obtain ⟨blank, name, hblank, -, -, rfl⟩ := hl
    rw [← (List.cons.inj hcut).1] at hblank
    exact absurd hblank (by decide)

/-- The tokens at the front of a text are the same. -/
lemma raw_inj {t t' : Token} {k k' rest rest' : List Char} (ht : t.Proper k) (ht' : t'.Proper k')
    (h : t.raw ++ rest = t'.raw ++ rest') : t.raw = t'.raw ∧ rest = rest' := by
  have hread := Token.read?_raw_append ht rest
  rw [h, Token.read?_raw_append ht'] at hread
  simp only [Option.some.injEq, Prod.mk.injEq] at hread
  exact ⟨by rw [hread.1], hread.2.symm⟩

/-- The starts of two attributes at the front of a text are the same. -/
lemma AttributeStart.inj {l l' rest rest' : List Char} (hl : AttributeStart l)
    (hl' : AttributeStart l') (h : l ++ rest = l' ++ rest') : l = l' := by
  obtain ⟨blank, name, -, -, hname, rfl⟩ := hl
  obtain ⟨blank', name', -, -, hname', rfl⟩ := hl'
  have hread : ∀ xs ys : List Char, (∀ c ∈ xs, isNameChar c = true) →
      (xs ++ '=' :: ys).takeWhile isNameChar = xs := by
    intro xs ys hxs
    rw [List.takeWhile_append_of_pos hxs, List.takeWhile_cons_of_neg (by decide), List.append_nil]
  simp only [List.cons_append, List.append_assoc, List.nil_append, List.cons.injEq] at h
  obtain ⟨rfl, h⟩ := h
  have hnames := congrArg (List.takeWhile isNameChar) h
  rw [hread _ _ hname, hread _ _ hname'] at hnames
  rw [hnames]

/-- There is only one cut at the front of a text. -/
lemma Cut.inj {k k' rest rest' : List Char} (hk : Cut k) (hk' : Cut k')
    (h : k ++ rest = k' ++ rest') : k = k' := by
  have hdiffer : ∀ (t : Token) (l xs ys : List Char), AttributeStart l →
      t.raw ++ xs ≠ l ++ ys := by
    rintro t l xs ys ⟨blank, name, hblank, -, -, rfl⟩ heq
    rw [← (List.cons.inj heq).1] at hblank
    exact absurd hblank (by decide)
  cases hk with
  | token ht =>
    cases hk' with
    | token ht' => exact (raw_inj ht ht' h).1
    | quoted hl' ht' => exact absurd (by simpa using h) (hdiffer _ _ _ _ hl')
  | quoted hl ht =>
    cases hk' with
    | token ht' => exact absurd (by simpa using h.symm) (hdiffer _ _ _ _ hl)
    | quoted hl' ht' =>
      simp only [List.append_assoc] at h
      obtain rfl := hl.inj hl' h
      rw [(raw_inj ht ht' (List.append_cancel_left h)).1]

/-- If a cut goes on after a closing brace in it, then it is an attribute, and
what comes after the brace is its quote. -/
lemma Cut.of_closing {e m : List Char} (hs : Cut (e ++ m)) (hm : m ≠ []) (hmem : '\x7d' ∈ e) :
    '\x7b' ∈ e ∧ ∃ e', e = e' ++ ['\x7d'] := by
  have hlast : ∀ {t : Token} {k : List Char}, t.Proper k →
      t.raw = '\x7b' :: '%' :: (t.body ++ ['%']) ++ ['\x7d'] ∧
        '\x7d' ∉ '\x7b' :: '%' :: (t.body ++ ['%']) := by
    intro t k ht
    exact ⟨by simp [Token.raw], by simpa using ht.closing_notMem_body⟩
  obtain ⟨m', d, rfl⟩ := (List.eq_nil_or_concat m).resolve_left hm
  rw [List.concat_eq_append, ← List.append_assoc] at hs
  generalize hcut : e ++ m' ++ [d] = s at hs
  cases hs with
  | token ht =>
    -- the only closing brace of a token is its last character
    obtain ⟨hraw, hno⟩ := hlast ht
    rw [hraw, List.append_singleton_inj] at hcut
    rw [← hcut.1] at hno
    exact absurd (List.mem_append_left m' hmem) hno
  | quoted hl ht =>
    rw [List.append_singleton_inj] at hcut
    obtain ⟨hraw, hno⟩ := hlast ht
    rcases List.eq_nil_or_concat m' with rfl | ⟨m'', d', rfl⟩
    · rw [List.append_nil] at hcut
      rw [hcut.1, hraw]
      exact ⟨by simp, _, (List.append_assoc _ _ _).symm⟩
    · rw [hraw, List.concat_eq_append, ← List.append_assoc, ← List.append_assoc,
        List.append_singleton_inj] at hcut
      have hmem' := List.mem_append_left m'' hmem
      rw [hcut.1.1] at hmem'
      rcases List.mem_append.mp hmem' with hmem' | hmem'
      · exact absurd hmem' (hl.notMem (.inr rfl))
      · exact absurd hmem' hno

/-- The end of a text that is left after a proper part of it holds the last
characters. -/
lemma exists_append_singleton {d e xs : List Char} {c : Char} (he : e ≠ [])
    (h : d ++ e = xs ++ [c]) : ∃ e', e = e' ++ [c] ∧ d ++ e' = xs := by
  obtain ⟨e', c', rfl⟩ := (List.eq_nil_or_concat e).resolve_left he
  rw [List.concat_eq_append, ← List.append_assoc, List.append_singleton_inj] at h
  exact ⟨e', by rw [h.2, List.concat_eq_append], h.1⟩

/-- A cut that starts inside another one ends inside it. -/
lemma Cut.inside {d e s z w : List Char} (hk : Cut (d ++ e)) (hd : d ≠ []) (he : e ≠ [])
    (hs : Cut s) (h : e ++ z = s ++ w) : ∃ e', e = s ++ e' := by
  rcases append_eq_append_cases h with ⟨e', he', -⟩ | ⟨m, hm, rfl, -⟩
  · exact ⟨e', he'⟩
  · exfalso
    obtain ⟨c, d, rfl⟩ := List.exists_cons_of_ne_nil hd
    generalize hcut : c :: d ++ e = k at hk
    cases hk with
    | @token t key ht =>
      -- the end of a token holds its closing brace, but no opening brace
      have hraw : c :: d ++ e = ('\x7b' :: '%' :: (t.body ++ ['%'])) ++ ['\x7d'] := by
        rw [hcut]
        simp [Token.raw]
      obtain ⟨e', rfl, -⟩ := exists_append_singleton he hraw
      have hopening := (hs.of_closing hm (by simp)).1
      apply ht.opening_notMem_tail
      rw [← hcut, List.cons_append, List.tail_cons]
      exact List.mem_append_right d hopening
    | @quoted l hl t key ht =>
      obtain ⟨e', rfl, he'⟩ := exists_append_singleton he hcut
      rcases List.eq_nil_or_concat e' with rfl | ⟨e'', c', rfl⟩
      · -- no cut starts with the quote
        exact hs.head_ne_quote m rfl
      · have hraw : c :: d ++ e''.concat c' =
            (l ++ '\x7b' :: '%' :: (t.body ++ ['%'])) ++ ['\x7d'] := by
          rw [he']
          simp [Token.raw]
        obtain ⟨e₀, he₀, -⟩ := exists_append_singleton (by simp) hraw
        obtain ⟨e₁, he₁⟩ := (hs.of_closing hm (by rw [he₀]; simp)).2
        rw [List.append_singleton_inj] at he₁
        exact absurd he₁.2 (by decide)

/-! ### Texts put together -/

/-- Whether a cut starts in a text and ends in the next one. -/
def CutAcross (as bs : List Char) : Prop :=
  ∃ a₁ c₁ c₂ b₂, Cut (c₁ ++ c₂) ∧ c₁ ≠ [] ∧ c₂ ≠ [] ∧ as = a₁ ++ c₁ ∧ bs = c₂ ++ b₂

lemma CutAcross.append_left {as bs : List Char} (h : CutAcross as bs) (xs : List Char) :
    CutAcross (xs ++ as) bs := by
  obtain ⟨a₁, c₁, c₂, b₂, hcut, h₁, h₂, rfl, rfl⟩ := h
  exact ⟨xs ++ a₁, c₁, c₂, b₂, hcut, h₁, h₂, by simp, rfl⟩

/-- **Two texts put together** lose what each of them loses, unless a cut runs
from the one into the other. -/
theorem stripChars_append {as bs : List Char} (h : ¬ CutAcross as bs) :
    stripChars (as ++ bs) = stripChars as ++ stripChars bs := by
  induction hcs : as ++ bs using strip_induction generalizing as with
  | nil =>
    obtain ⟨rfl, rfl⟩ := List.append_eq_nil_iff.mp hcs
    rw [stripChars_nil, List.nil_append]
  | cons c rest hfront ih =>
    cases as with
    | nil => rw [stripChars_nil, List.nil_append, ← hcs, List.nil_append]
    | cons d as =>
      obtain ⟨rfl, rfl⟩ := List.cons.inj hcs
      have hacross : ¬ CutAcross as bs := fun hacross => h (hacross.append_left [d])
      have hleft : NoCut (d :: as) := NoCut.of_append (by simpa using hfront)
      rw [stripChars_cons hfront, stripChars_cons hleft, ih hacross rfl, List.cons_append]
  | cut k rest hk ih =>
    rcases append_eq_append_cases hcs with ⟨as', rfl, hrest⟩ | ⟨c₂, hc₂, rfl, hbs⟩
    · have hacross : ¬ CutAcross as' bs := fun hacross => h (hacross.append_left k)
      rw [stripChars_cut hk, stripChars_cut hk, ih hacross hrest.symm]
    · rcases eq_or_ne as [] with rfl | has
      · rw [stripChars_nil, hbs]
        rfl
      · exact absurd ⟨[], as, c₂, rest, hk, has, hc₂, rfl, hbs⟩ h

/-- What is left around a cut. -/
lemma stripChars_around {as k bs : List Char} (hk : Cut k) (h : ¬ CutAcross as (k ++ bs)) :
    stripChars (as ++ (k ++ bs)) = stripChars as ++ stripChars bs := by
  rw [stripChars_append h, stripChars_cut hk]

/-- No cut is at the front of the first part of a cut. -/
lemma Cut.noCut_left {c₁ c₂ : List Char} (h : Cut (c₁ ++ c₂)) (hne : c₂ ≠ []) : NoCut c₁ := by
  rintro k rest hk rfl
  have hfront : k ++ (rest ++ c₂) = k ++ rest ++ c₂ ++ [] := by simp
  have hlen := congrArg List.length (hk.inj h hfront)
  have hpos := List.length_pos_iff.mpr hne
  simp only [List.length_append] at hlen
  omega

/-- The last part of a cut loses nothing of what comes after it. -/
lemma Cut.stripChars_right {c₁ c₂ : List Char} (h : Cut (c₁ ++ c₂)) (hne : c₁ ≠ [])
    (rest : List Char) : stripChars (c₂ ++ rest) = stripChars c₂ ++ stripChars rest := by
  refine stripChars_append ?_
  rintro ⟨a₁, d₁, d₂, b₂, hcut, hd₁, hd₂, rfl, -⟩
  rw [← List.append_assoc] at h
  obtain ⟨e', he⟩ := h.inside (z := d₂) (w := []) (by simp [hne]) hd₁ hcut (by simp)
  have hlen := congrArg List.length he
  have hpos := List.length_pos_iff.mpr hd₂
  simp only [List.length_append] at hlen
  omega

/-- Two texts put together lose more than each of them, if a cut that starts the
first runs across. -/
lemma Cut.length_stripChars_lt {c₁ c₂ : List Char} (h : Cut (c₁ ++ c₂)) (h₁ : c₁ ≠ [])
    (h₂ : c₂ ≠ []) (rest : List Char) :
    (stripChars (c₁ ++ (c₂ ++ rest))).length <
      (stripChars c₁).length + (stripChars (c₂ ++ rest)).length := by
  have hjoin : stripChars (c₁ ++ (c₂ ++ rest)) = stripChars rest := by
    rw [← List.append_assoc, stripChars_cut h]
  obtain ⟨c, d, rfl⟩ := List.exists_cons_of_ne_nil h₁
  rw [hjoin, h.stripChars_right h₁, stripChars_cons (h.noCut_left h₂), List.length_cons,
    List.length_append]
  omega

/-- **Two texts put together lose more** than each of them, if a cut runs from
the one into the other. -/
theorem length_stripChars_lt {as bs : List Char} (h : CutAcross as bs) :
    (stripChars (as ++ bs)).length < (stripChars as).length + (stripChars bs).length := by
  obtain ⟨a₁, c₁, c₂, b₂, hcut, h₁, h₂, rfl, rfl⟩ := h
  induction hcs : a₁ ++ c₁ ++ (c₂ ++ b₂) using strip_induction generalizing a₁ with
  | nil => simp [h₁] at hcs
  | cons c rest hfront ih =>
    cases a₁ with
    | nil => exact absurd (by rw [← hcs]; simp) (hfront (c₁ ++ c₂) b₂ hcut)
    | cons d a₁ =>
      obtain ⟨rfl, rfl⟩ := List.cons.inj hcs
      have hleft : NoCut (d :: (a₁ ++ c₁)) := NoCut.of_append (by simpa using hfront)
      have := ih a₁ rfl
      rw [List.cons_append, stripChars_cons hfront, stripChars_cons hleft, List.length_cons,
        List.length_cons]
      omega
  | cut k rest hk ih =>
    rcases eq_or_ne a₁ [] with rfl | hne
    · rw [← hcs]
      exact hcut.length_stripChars_lt h₁ h₂ b₂
    · rcases append_eq_append_cases hcs with ⟨as', has, hrest⟩ | ⟨e, he, rfl, hbs⟩
      · rcases append_eq_append_cases has with ⟨a₂, rfl, rfl⟩ | ⟨e, he, rfl, hc₁⟩
        · -- the cut at the front ends before the one that runs across starts
          have := ih a₂ hrest.symm
          rw [stripChars_cut hk, List.append_assoc k, stripChars_cut hk]
          exact this
        · -- it cannot end inside the one that runs across
          rw [hc₁, List.append_assoc] at hcut
          obtain ⟨e', he'⟩ := hk.inside (z := as' ++ c₂) (w := []) hne he hcut (by simp)
          have hlen := congrArg List.length he'
          have hpos := List.length_pos_iff.mpr h₂
          simp only [List.length_append] at hlen
          omega
      · -- the cut at the front runs across itself
        rw [hbs, List.append_assoc]
        exact hk.length_stripChars_lt (by simp [h₁]) he rest

/-- **What two texts put together lose** is what each of them loses exactly when
no cut runs from the one into the other. -/
theorem strip_append_iff (a b : String) :
    strip (a ++ b) = strip a ++ strip b ↔ ¬ CutAcross a.toList b.toList := by
  have hchars : strip (a ++ b) = strip a ++ strip b ↔
      stripChars (a.toList ++ b.toList) = stripChars a.toList ++ stripChars b.toList := by
    rw [strip, strip, strip, ← String.toList_inj]
    simp
  rw [hchars]
  constructor
  · intro heq hacross
    have hlt := length_stripChars_lt hacross
    rw [heq, List.length_append] at hlt
    omega
  · exact stripChars_append

/-- Attributes side by side go one by one. -/
example : strip "<a href=\"\x7b%a%\x7d\" title=\"\x7b%b%\x7d\">" = "<a>" := by decide +kernel

end Cleanup

end PageTree
