/-
Texts as tokens and characters.

A proper token is written by its key alone: the marks, and between them the key
with percent signs on either side. Its first character is its only opening
brace and its last one its only closing brace, so two tokens in a text are
either the same or apart, and the pieces of a text are its tokens with the
characters between them.

* `Token.Proper`, `proper_iff`: the written form of tokens, against the check
  of bodies;
* `KeepsMarks.exists_raw`: a token in a text whose characters are written in another way;
* `read?_raw_append`, `eq_of_read?`: the token at the front of a text;
* `TokenAcross`, `pieces_append`: two texts put together have the pieces of
  both, unless a token runs from the one into the other;
* `pieces_append_token`: no reading of a text misses a token in it.
-/
import Mathlib.Data.List.Basic
import Mathlib.Data.List.TakeWhile
import Mathlib.Tactic.Common
import PageTree.Placeholder
import PageTree.Proofs.Characters

namespace PageTree

namespace Placeholder

/-! ### Proper tokens -/

/-- A text without percent signs and braces. -/
def IsKey (k : List Char) : Prop := ∀ c ∈ k, c ≠ '%' ∧ c ≠ '\x7b' ∧ c ≠ '\x7d'

instance (k : List Char) : Decidable (IsKey k) :=
  List.decidableBAll (fun c => c ≠ '%' ∧ c ≠ '\x7b' ∧ c ≠ '\x7d') k

/-- The written form of a token with a key: what stands between its marks is
not empty, and is the key between percent signs. -/
def Token.Proper (t : Token) (k : List Char) : Prop :=
  IsKey k ∧ t.body ≠ [] ∧
    ∃ l r, t.body = List.replicate l '%' ++ k ++ List.replicate r '%'

/-- A key is what is left of it between percent signs. -/
lemma trim_replicate_append {k : List Char} (hk : IsKey k) (l r : ℕ) :
    trim (List.replicate l '%' ++ k ++ List.replicate r '%') = k := by
  have hkept : ∀ c ∈ k, decide (c = '%') = false := fun c hc => decide_eq_false (hk c hc).1
  rw [trim, Text.trimEnds_append (by simp) (by simp)]
  exact Text.trimEnds_eq_self (fun c hc => hkept c (List.mem_of_head? hc))
    fun c hc => hkept c (List.mem_of_getLast? hc)

/-- The percent signs that trimming takes off. -/
lemma exists_replicate_trim (cs : List Char) :
    ∃ l r, cs = List.replicate l '%' ++ trim cs ++ List.replicate r '%' := by
  have key : ∀ xs : List Char, ∃ n, xs = List.replicate n '%' ++ xs.dropWhile (· = '%') := by
    intro xs
    refine ⟨(xs.takeWhile (· = '%')).length, ?_⟩
    conv_lhs => rw [← List.takeWhile_append_dropWhile (p := (· = '%')) (l := xs)]
    congr 1
    refine List.eq_replicate_of_mem fun c hc => ?_
    simpa using List.mem_takeWhile_imp hc
  obtain ⟨l, hl⟩ := key cs
  obtain ⟨r, hr⟩ := key (cs.dropWhile (· = '%')).reverse
  refine ⟨l, r, ?_⟩
  conv_lhs => rw [hl]
  rw [List.append_assoc]
  congr 1
  rw [← List.reverse_inj, hr, trim, Text.trimEnds]
  simp

/-- The check of bodies accepts the written forms. -/
lemma isBody_iff {t : Token} : isBody t.body = true ↔ ∃ k, t.Proper k := by
  constructor
  · intro h
    simp only [isBody, Bool.and_eq_true, decide_eq_true_eq, List.all_eq_true] at h
    refine ⟨trim t.body, fun c hc => ?_, h.1, exists_replicate_trim t.body⟩
    simpa [and_assoc] using h.2 c hc
  · rintro ⟨k, hk, hne, l, r, hbody⟩
    have htrim : trim t.body = k := by rw [hbody, trim_replicate_append hk]
    simp only [isBody, Bool.and_eq_true, decide_eq_true_eq, List.all_eq_true]
    refine ⟨hne, fun c hc => ?_⟩
    rw [htrim] at hc
    simpa [and_assoc] using hk c hc

namespace Token

variable {t : Token} {k : List Char}

/-- The key that a token names is the one it is written with. -/
lemma Proper.trim_eq (h : t.Proper k) : trim t.body = k := by
  obtain ⟨hk, -, l, r, hbody⟩ := h
  rw [hbody, trim_replicate_append hk]

/-- No brace stands between the marks of a token. -/
lemma Proper.ne_brace (h : t.Proper k) : ∀ c ∈ t.body, c ≠ '\x7b' ∧ c ≠ '\x7d' := by
  obtain ⟨hk, -, l, r, hbody⟩ := h
  intro c hc
  rw [hbody] at hc
  simp only [List.mem_append, List.mem_replicate] at hc
  rcases hc with (⟨-, rfl⟩ | hc) | ⟨-, rfl⟩
  · decide
  · exact (hk c hc).2
  · decide

/-- The only opening brace of a token is its first character. -/
lemma Proper.opening_notMem_tail (h : t.Proper k) : '\x7b' ∉ t.raw.tail := by
  intro hmem
  simp only [raw, List.cons_append, List.tail_cons, List.mem_cons, List.mem_append] at hmem
  rcases hmem with hmem | hmem | hmem | hmem | hmem
  · exact absurd hmem (by decide)
  · exact (h.ne_brace _ hmem).1 rfl
  · exact absurd hmem (by decide)
  · exact absurd hmem (by decide)
  · exact absurd hmem (by simp)

/-- The closing brace of a token is the first one after its opening mark. -/
lemma Proper.closing_notMem_body (h : t.Proper k) : '\x7d' ∉ t.body ++ ['%'] := by
  intro hmem
  rcases List.mem_append.mp hmem with hmem | hmem
  · exact (h.ne_brace _ hmem).2 rfl
  · exact absurd hmem (by decide)

lemma raw_ne_nil (t : Token) : t.raw ≠ [] := by simp [raw]

end Token

/-! ### Tokens written in another way -/

/-- Whether characters are written so that the marks of tokens stay what they are and come
in nowhere else. -/
structure KeepsMarks (write : Char → List Char) : Prop where
  percent : write '%' = ['%']
  opening : write '\x7b' = ['\x7b']
  closing : write '\x7d' = ['\x7d']
  ne_nil : ∀ c, write c ≠ []
  isKey : ∀ c, c ≠ '%' ∧ c ≠ '\x7b' ∧ c ≠ '\x7d' → IsKey (write c)

/-- A token is written as a token. -/
lemma KeepsMarks.exists_raw {write : Char → List Char} (hwrite : KeepsMarks write) {t : Token}
    {k : List Char} (h : t.Proper k) :
    ∃ u k', Token.Proper u k' ∧ t.raw.flatMap write = u.raw := by
  obtain ⟨hk, hne, l, r, hbody⟩ := h
  have hpercent : ∀ n, (List.replicate n '%').flatMap write = List.replicate n '%' := by
    intro n
    induction n with
    | zero => rfl
    | succ n ih => rw [List.replicate_succ, List.flatMap_cons, ih, hwrite.percent]; rfl
  refine ⟨⟨t.body.flatMap write⟩, k.flatMap write, ⟨?_, ?_, l, r, ?_⟩, ?_⟩
  · intro c hc
    obtain ⟨d, hd, hc⟩ := List.mem_flatMap.mp hc
    exact hwrite.isKey d (hk d hd) c hc
  · obtain ⟨c, rest, hcons⟩ := List.exists_cons_of_ne_nil hne
    rw [hcons, List.flatMap_cons]
    exact List.append_ne_nil_of_left_ne_nil (hwrite.ne_nil c) _
  · rw [hbody, List.flatMap_append, List.flatMap_append, hpercent, hpercent]
  · simp only [Token.raw, List.cons_append, List.flatMap_cons, List.flatMap_append,
      List.flatMap_nil, hwrite.percent, hwrite.opening, hwrite.closing]
    rfl

/-! ### The token at the front of a text -/

/-- Reading up to the first closing brace. -/
lemma takeWhile_closing {xs ys : List Char} (h : '\x7d' ∉ xs) :
    (xs ++ '\x7d' :: ys).takeWhile (· ≠ '\x7d') = xs := by
  rw [List.takeWhile_append_of_pos fun c hc => by simpa using ne_of_mem_of_not_mem hc h]
  simp

/-- What is left from the first closing brace. -/
lemma dropWhile_closing {xs ys : List Char} (h : '\x7d' ∉ xs) :
    (xs ++ '\x7d' :: ys).dropWhile (· ≠ '\x7d') = '\x7d' :: ys := by
  rw [List.dropWhile_append_of_pos fun c hc => by simpa using ne_of_mem_of_not_mem hc h]
  simp

/-- There is no closing brace if nothing is left after reading up to it. -/
lemma closing_notMem {cs : List Char} (h : cs.dropWhile (· ≠ '\x7d') = []) : '\x7d' ∉ cs := by
  intro hmem
  simpa using List.dropWhile_eq_nil_iff.mp h _ hmem

/-- A text splits at its first closing brace. -/
lemma exists_closing {cs : List Char} (h : cs.dropWhile (· ≠ '\x7d') ≠ []) :
    ∃ xs ys, '\x7d' ∉ xs ∧ cs = xs ++ '\x7d' :: ys := by
  have hmem : '\x7d' ∈ cs := by
    by_contra hno
    refine h (List.dropWhile_eq_nil_iff.mpr fun c hc => ?_)
    simpa using ne_of_mem_of_not_mem hc hno
  obtain ⟨xs, ys, heq, hxs⟩ := List.eq_append_cons_of_mem hmem
  exact ⟨xs, ys, hxs, heq⟩

namespace Token

/-- The written form of a token, by what stands between its opening mark and its
closing brace. -/
lemma raw_dropLast {inner : List Char} (h : inner.getLast? = some '%') :
    raw ⟨inner.dropLast⟩ = '\x7b' :: '%' :: (inner ++ ['\x7d']) := by
  have hlast := List.dropLast_append_getLast? _ (Option.mem_def.mpr h)
  conv_rhs => rw [← hlast]
  simp [raw]

/-- A token that is written down is read. -/
lemma read?_raw_append {t : Token} {k : List Char} (h : t.Proper k) (rest : List Char) :
    read? (t.raw ++ rest) = some (t, rest) := by
  have hraw : t.raw ++ rest = '\x7b' :: '%' :: ((t.body ++ ['%']) ++ '\x7d' :: rest) := by
    simp [raw]
  rw [hraw, read?]
  simp only [takeWhile_closing h.closing_notMem_body, dropWhile_closing h.closing_notMem_body]
  simp [isBody_iff.mpr ⟨k, h⟩]

/-- What is read is a token that is written down. -/
lemma eq_of_read? {cs rest : List Char} {t : Token} (h : read? cs = some (t, rest)) :
    (∃ k, t.Proper k) ∧ cs = t.raw ++ rest := by
  unfold read? at h
  split at h
  · rename_i after
    simp only at h
    split at h
    · simp at h
    · next d ys hdrop =>
      obtain ⟨inner, ys, hinner, rfl⟩ := exists_closing (by rw [hdrop]; simp)
      rw [dropWhile_closing hinner] at hdrop
      rw [takeWhile_closing hinner] at h
      split at h
      · next hbody =>
        simp only [Option.some.injEq, Prod.mk.injEq] at h
        obtain ⟨rfl, rfl⟩ := h
        refine ⟨isBody_iff.mp hbody.2, ?_⟩
        rw [raw_dropLast hbody.1, (List.cons.inj hdrop).2]
        simp
      · simp at h
  · simp at h

/-- No token starts where the mark of a token does not stand. -/
lemma read?_eq_none {c : Char} {rest : List Char}
    (h : ¬ (c = '\x7b' ∧ rest.head? = some '%')) : read? (c :: rest) = none := by
  unfold read?
  split
  · next heq =>
    simp only [List.cons.injEq] at heq
    exact absurd ⟨heq.1, by rw [heq.2]; rfl⟩ h
  · rfl

end Token

/-! ### Pieces -/

lemma pieces_nil : pieces [] = [] := by rw [pieces]

lemma pieces_of_read? {cs rest : List Char} {t : Token} (h : Token.read? cs = some (t, rest)) :
    pieces cs = .token t :: pieces rest := by
  cases cs with
  | nil => simp [Token.read?] at h
  | cons c cs =>
    rw [pieces]
    split
    · next heq =>
      rw [h] at heq
      simp only [Option.some.injEq, Prod.mk.injEq] at heq
      rw [heq.1, heq.2]
    · next heq => simp [h] at heq

lemma pieces_char {c : Char} {rest : List Char} (h : Token.read? (c :: rest) = none) :
    pieces (c :: rest) = .char c :: pieces rest := by
  rw [pieces]
  split
  · next heq => simp [h] at heq
  · rfl

lemma pieces_token {t : Token} {k : List Char} (h : t.Proper k) (rest : List Char) :
    pieces (t.raw ++ rest) = .token t :: pieces rest :=
  pieces_of_read? (Token.read?_raw_append h rest)

/-- A token on its own. -/
lemma pieces_rawText {t : Token} {k : List Char} (h : t.Proper k) :
    pieces t.rawText.toList = [.token t] := by
  rw [Token.rawText, String.toList_ofList, ← List.append_nil t.raw, pieces_token h, pieces_nil]

/-- The pieces of a text make it up. -/
lemma raw_pieces (cs : List Char) : (pieces cs).flatMap Piece.raw = cs := by
  fun_induction pieces cs with
  | case1 => rfl
  | case2 c rest t after h _ ih =>
    rw [List.flatMap_cons, ih, (Token.eq_of_read? h).2]
    rfl
  | case3 c rest h ih => rw [List.flatMap_cons, ih]; rfl

/-- Only proper tokens are pieces. -/
lemma proper_of_mem_pieces {cs : List Char} {t : Token} (h : .token t ∈ pieces cs) :
    ∃ k, t.Proper k := by
  fun_induction pieces cs with
  | case1 => simp at h
  | case2 c rest u after hread _ ih =>
    rcases List.mem_cons.mp h with heq | hmem
    · rw [Piece.token.inj heq]
      exact (Token.eq_of_read? hread).1
    · exact ih hmem
  | case3 c rest _ ih =>
    rcases List.mem_cons.mp h with heq | hmem
    · exact absurd heq (by simp)
    · exact ih hmem

/-- A text without closing braces has no tokens. -/
lemma pieces_of_no_closing {cs : List Char} (h : '\x7d' ∉ cs) : pieces cs = cs.map .char := by
  fun_induction pieces cs with
  | case1 => rfl
  | case2 c rest t after hread _ ih =>
    rw [(Token.eq_of_read? hread).2] at h
    exact absurd (by simp [Token.raw]) h
  | case3 c rest _ ih =>
    rw [List.map_cons, ih fun hmem => h (List.mem_cons_of_mem c hmem)]

/-! ### Texts put together -/

/-- What is at the front of two texts put together is at the front of the
first, or runs across. -/
lemma append_eq_append_cases {as bs k rest : List Char} (h : as ++ bs = k ++ rest) :
    (∃ as', as = k ++ as' ∧ rest = as' ++ bs) ∨
      ∃ c, c ≠ [] ∧ k = as ++ c ∧ bs = c ++ rest := by
  rcases List.append_eq_append_iff.mp h with ⟨c, hk, hbs⟩ | ⟨as', has, hrest⟩
  · rcases eq_or_ne c [] with rfl | hne
    · exact .inl ⟨[], by simpa using hk.symm, by simpa using hbs.symm⟩
    · exact .inr ⟨c, hne, hk, hbs⟩
  · exact .inl ⟨as', has, hrest⟩

/-- Whether a token starts in a text and ends in the next one. -/
def TokenAcross (a b : List Char) : Prop :=
  ∃ (t : Token) (k a₁ c₁ c₂ b₂ : List Char), t.Proper k ∧ t.raw = c₁ ++ c₂ ∧ c₁ ≠ [] ∧ c₂ ≠ [] ∧
    a = a₁ ++ c₁ ∧ b = c₂ ++ b₂

lemma TokenAcross.append_left {a b : List Char} (h : TokenAcross a b) (xs : List Char) :
    TokenAcross (xs ++ a) b := by
  obtain ⟨t, k, a₁, c₁, c₂, b₂, hk, hraw, h₁, h₂, rfl, rfl⟩ := h
  exact ⟨t, k, xs ++ a₁, c₁, c₂, b₂, hk, hraw, h₁, h₂, by simp, rfl⟩

/-- No token is at the front of two texts put together if none is at the front of
the first, unless a token runs across. -/
lemma read?_append_eq_none {a b : List Char} (hne : a ≠ []) (h : ¬ TokenAcross a b)
    (hread : Token.read? a = none) : Token.read? (a ++ b) = none := by
  rcases hab : Token.read? (a ++ b) with _ | ⟨t, rest⟩
  · rfl
  · obtain ⟨⟨k, hk⟩, heq⟩ := Token.eq_of_read? hab
    rcases append_eq_append_cases heq with ⟨a', ha, -⟩ | ⟨c₂, hc₂, hraw, hb⟩
    · rw [ha, Token.read?_raw_append hk] at hread
      exact absurd hread (by simp)
    · exact absurd ⟨t, k, [], a, c₂, rest, hk, hraw, hne, hc₂, rfl, hb⟩ h

/-- Two texts put together have the pieces of the first and then those of the
second, unless a token runs across. -/
theorem pieces_append {a b : List Char} (h : ¬ TokenAcross a b) :
    pieces (a ++ b) = pieces a ++ pieces b := by
  fun_induction pieces a with
  | case1 => rfl
  | case2 c rest t after hread _ ih =>
    obtain ⟨⟨k, hk⟩, heq⟩ := Token.eq_of_read? hread
    rw [heq] at h ⊢
    rw [List.append_assoc, pieces_token hk, ih fun hacross => h (hacross.append_left _)]
    rfl
  | case3 c rest hread ih =>
    have hnone := read?_append_eq_none (by simp) h hread
    rw [List.cons_append] at hnone ⊢
    rw [pieces_char hnone, ih fun hacross => h (hacross.append_left [c])]
    rfl

/-- No token runs into another one. -/
lemma not_tokenAcross_raw {t : Token} (before after : List Char) :
    ¬ TokenAcross before (t.raw ++ after) := by
  rintro ⟨u, k, a₁, c₁, c₂, b₂, hk, hraw, h₁, h₂, -, hb⟩
  apply hk.opening_notMem_tail
  obtain ⟨d, c₁, rfl⟩ := List.exists_cons_of_ne_nil h₁
  obtain ⟨e, c₂, rfl⟩ := List.exists_cons_of_ne_nil h₂
  rw [Token.raw] at hb
  simp only [List.cons_append, List.cons.injEq] at hb
  rw [hraw, ← hb.1]
  simp

/-- A token that stands in a text is one of its pieces. -/
theorem pieces_append_token {t : Token} {k : List Char} (h : t.Proper k)
    (before after : List Char) :
    pieces (before ++ (t.raw ++ after)) = pieces before ++ .token t :: pieces after := by
  rw [pieces_append (not_tokenAcross_raw before after), pieces_token h]

end Placeholder

end PageTree
