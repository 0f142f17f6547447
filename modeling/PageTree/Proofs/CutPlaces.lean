/-
The places that the removal of left-over tokens cuts out of a page.

Every token takes a stretch of the page with it: itself, or the attribute whose whole
value it is. A pass over the tokens keeps what is between the end of the last stretch
and the start of the next one, and looks back for attributes in the whole text. It
need not guard against stretches that overlap: what it has cut out ends with a closing
brace or with a quote behind one, and no attribute in front of a token holds either of
them.

* `removal`: the stretch of a token; `attributeStart?_eq_some_iff`: which one it is;
* `sweep`, `verdicts`: the pass over the tokens, with the cases that guard against
  overlaps;
* `Closed.beforeAttribute?_append`: the look back ends where the last stretch ends;
* `keeps_stripFrom`: what the pass has kept after a whole run;
* `strip_removes`: **what is cut out**, and that the guards are never needed.
-/
import Mathlib.Data.List.Infix
import PageTree.Proofs.Cuts
import PageTree.Proofs.Scan

namespace PageTree

namespace Cleanup

open Placeholder

variable {cs front pending rest : List Char} {t : Token}

/-! ### Parts of a text by their places -/

/-- A stretch of a text: the bytes before it, and those up to its end. -/
structure Stretch where
  start : ℕ
  stop : ℕ

/-- The characters of a text with the bytes before them. -/
def offsets (start : ℕ) : List Char → List (ℕ × Char)
  | [] => []
  | c :: rest => (start, c) :: offsets (start + c.utf8Size) rest

/-- The characters of a text that start between two places. -/
def slice (cs : List Char) (start stop : ℕ) : List Char :=
  ((offsets 0 cs).filter fun p => start ≤ p.1 ∧ p.1 < stop).map Prod.snd

/-- The characters of a text that are in none of some stretches. -/
def outside (stretches : List Stretch) (cs : List Char) : List Char :=
  ((offsets 0 cs).filter fun p => ∀ s ∈ stretches, p.1 < s.start ∨ s.stop ≤ p.1).map Prod.snd

lemma offsets_append (start : ℕ) (as bs : List Char) :
    offsets start (as ++ bs) = offsets start as ++ offsets (start + byteSize as) bs := by
  induction as generalizing start with
  | nil => simp [offsets, byteSize]
  | cons c as ih => simp [offsets, byteSize, ih, Nat.add_assoc]

lemma map_snd_offsets (start : ℕ) (cs : List Char) : (offsets start cs).map Prod.snd = cs := by
  induction cs generalizing start with
  | nil => rfl
  | cons c cs ih => rw [offsets, List.map_cons, ih]

/-- The characters of a text start in it. -/
lemma lt_of_mem_offsets {start : ℕ} {p : ℕ × Char} (h : p ∈ offsets start cs) :
    start ≤ p.1 ∧ p.1 < start + byteSize cs := by
  induction cs generalizing start with
  | nil => simp [offsets] at h
  | cons c cs ih =>
    have hpos := c.utf8Size_pos
    rw [offsets, List.mem_cons] at h
    rw [byteSize]
    rcases h with rfl | h
    · simp only
      omega
    · have := ih h
      omega

/-- The characters of a text come in order. -/
lemma pairwise_offsets (start : ℕ) (cs : List Char) :
    (offsets start cs).Pairwise fun p q => p.1 < q.1 := by
  induction cs generalizing start with
  | nil => exact .nil
  | cons c cs ih =>
    refine List.pairwise_cons.mpr ⟨fun q hq => ?_, ih _⟩
    have := lt_of_mem_offsets hq
    have := c.utf8Size_pos
    simp only
    omega

/-- A part of a text, by its places. -/
lemma slice_append (as bs cs : List Char) :
    slice (as ++ (bs ++ cs)) (byteSize as) (byteSize (as ++ bs)) = bs := by
  have hfront : (offsets 0 as).filter
      (fun p => byteSize as ≤ p.1 ∧ p.1 < byteSize (as ++ bs)) = [] := by
    refine List.filter_eq_nil_iff.mpr fun p hp => ?_
    have := lt_of_mem_offsets hp
    simp
    omega
  have hpart : (offsets (byteSize as) bs).filter
      (fun p => byteSize as ≤ p.1 ∧ p.1 < byteSize (as ++ bs)) = offsets (byteSize as) bs := by
    refine List.filter_eq_self.mpr fun p hp => ?_
    have := lt_of_mem_offsets hp
    rw [byteSize_append]
    simpa using this
  have hback : (offsets (byteSize as + byteSize bs) cs).filter
      (fun p => byteSize as ≤ p.1 ∧ p.1 < byteSize (as ++ bs)) = [] := by
    refine List.filter_eq_nil_iff.mpr fun p hp => ?_
    have := lt_of_mem_offsets hp
    rw [byteSize_append]
    simp
    omega
  rw [slice, offsets_append, offsets_append, Nat.zero_add, List.filter_append, List.filter_append,
    hfront, hpart, hback, List.nil_append, List.append_nil, map_snd_offsets]

lemma slice_front (as bs : List Char) : slice (as ++ bs) 0 (byteSize as) = as :=
  slice_append [] as bs

lemma slice_back (as bs : List Char) :
    slice (as ++ bs) (byteSize as) (byteSize (as ++ bs)) = bs := by
  have h := slice_append as bs []
  rwa [List.append_nil] at h

lemma byteSize_reverse (cs : List Char) : byteSize cs.reverse = byteSize cs := by
  induction cs with
  | nil => rfl
  | cons c cs ih => simp [byteSize_append, byteSize, ih, Nat.add_comm]

/-! ### The stretch of a token -/

/-- The place where the attribute starts whose whole value is a token, if there is one.
The attribute is looked for in all of the text before the token. -/
def attributeStart? (cs : List Char) (span : Span) : Option ℕ :=
  if (slice cs span.stop (byteSize cs)).head? = some '"' then
    (beforeAttribute? (slice cs 0 span.start).reverse).map byteSize
  else none

/-- What a token takes with it: the attribute whose whole value it is, up to the quote
behind the token, or else the token alone. -/
def removal (cs : List Char) (span : Span) : Stretch :=
  match attributeStart? cs span with
  | some start => ⟨start, span.stop + 1⟩
  | none => ⟨span.start, span.stop⟩

/-- Whether a token is the whole value of an attribute that starts at some place: a
blank, a name, an equals sign and a quote before the token, and a quote behind it. -/
def IsValueOf (cs : List Char) (span : Span) (start : ℕ) : Prop :=
  ∃ front l rest, AttributeStart l ∧ cs = front ++ (l ++ (span.token.raw ++ '"' :: rest)) ∧
    start = byteSize front ∧ span.start = byteSize (front ++ l)

/-- A token behind some text, with its place. -/
def spanAt (before : List Char) (t : Token) : Span :=
  ⟨byteSize before, byteSize before + byteSize t.raw, t⟩

lemma attributeStart?_at (before : List Char) (t : Token) (rest : List Char) :
    attributeStart? (before ++ (t.raw ++ rest)) (spanAt before t) =
      if rest.head? = some '"' then (beforeAttribute? before.reverse).map byteSize else none := by
  have hrest : slice (before ++ (t.raw ++ rest)) (byteSize before + byteSize t.raw)
      (byteSize (before ++ (t.raw ++ rest))) = rest := by
    rw [← byteSize_append, ← List.append_assoc]
    exact slice_back _ _
  simp only [attributeStart?, spanAt, hrest, slice_front]

/-- **The stretch of a token** starts at an attribute exactly when the token is the whole
value of it. -/
lemma attributeStart?_eq_some_iff {before : List Char} {start : ℕ} :
    attributeStart? (before ++ (t.raw ++ rest)) (spanAt before t) = some start ↔
      IsValueOf (before ++ (t.raw ++ rest)) (spanAt before t) start := by
  rw [attributeStart?_at]
  constructor
  · intro h
    split at h
    · next hquote =>
      obtain ⟨reversed, hbefore, rfl⟩ := Option.map_eq_some_iff.mp h
      obtain ⟨l, hl, heq⟩ := beforeAttribute?_eq_some_iff.mp hbefore
      obtain ⟨rest, rfl⟩ := List.head?_eq_some_iff.mp hquote
      obtain rfl : before = reversed.reverse ++ l := by
        rw [← List.reverse_inj, heq]
        simp
      exact ⟨reversed.reverse, l, rest, hl, by simp [spanAt], (byteSize_reverse _).symm, rfl⟩
    · simp at h
  · rintro ⟨front, l, rest', hl, heq, rfl, hstart⟩
    obtain rfl : front ++ l = before := by
      have h := slice_front before (t.raw ++ rest)
      have hsize : byteSize before = byteSize (front ++ l) := hstart
      rwa [heq, hsize, ← List.append_assoc, slice_front] at h
    rw [List.append_assoc, List.append_cancel_left_eq, List.append_cancel_left_eq] at heq
    obtain rfl := List.append_cancel_left heq
    have hbefore : beforeAttribute? (front ++ l).reverse = some front.reverse :=
      beforeAttribute?_eq_some_iff.mpr ⟨l, hl, by simp⟩
    rw [List.head?_cons, if_pos rfl, hbefore, Option.map_some, byteSize_reverse]

/-! ### The pass over the tokens -/

/-- What the pass does with a token. -/
inductive Verdict where
  /-- The token starts in what is cut out already, and is passed over. -/
  | skip
  /-- The attribute that starts at a place is cut out. -/
  | attribute (start : ℕ)
  /-- The token is cut out. -/
  | token
  /-- There is an attribute that starts in what is cut out already, so only the token
  is cut out. -/
  | late
deriving DecidableEq

/-- What the pass does with a token, if it has cut out text up to some place. -/
def verdict (cs : List Char) (last : ℕ) (span : Span) : Verdict :=
  if span.start < last then .skip
  else
    match attributeStart? cs span with
    | some start => if last ≤ start then .attribute start else .late
    | none => .token

/-- Where the text ends that is kept in front of a token. -/
def Verdict.keepsTo (last : ℕ) (span : Span) : Verdict → ℕ
  | .skip => last
  | .attribute start => start
  | .token | .late => span.start

/-- Where the pass goes on behind a token. -/
def Verdict.next (last : ℕ) (span : Span) : Verdict → ℕ
  | .skip => last
  | .attribute _ => span.stop + 1
  | .token | .late => span.stop

/-- What a pass over some tokens keeps of a text from some place on. -/
def sweep (cs : List Char) (last : ℕ) : List Span → List Char
  | [] => slice cs last (byteSize cs)
  | span :: rest =>
    let v := verdict cs last span
    slice cs last (v.keepsTo last span) ++ sweep cs (v.next last span) rest

/-- What the pass does with each token. -/
def verdicts (cs : List Char) (last : ℕ) : List Span → List Verdict
  | [] => []
  | span :: rest =>
    let v := verdict cs last span
    v :: verdicts cs (v.next last span) rest

/-! ### Runs of the pass -/

/-- What is in front of the place where the pass goes on: nothing, or text that ends
with a closing brace, or with a quote behind one. -/
def Closed (front : List Char) : Prop :=
  front = [] ∨ ∃ f, front = f ++ ['\x7d'] ∨ front = f ++ ['\x7d', '"']

/-- **The look back** from a token ends where the last stretch ends. -/
lemma Closed.beforeAttribute?_append (h : Closed front) (pending : List Char) :
    beforeAttribute? (pending ++ front.reverse) =
      (beforeAttribute? pending).map (· ++ front.reverse) := by
  refine Option.ext fun before => ?_
  rw [Option.map_eq_some_iff]
  simp only [beforeAttribute?_eq_some_iff]
  constructor
  · rintro ⟨l, hl, heq⟩
    rcases append_eq_append_cases heq with ⟨as, has, rfl⟩ | ⟨c, hc, hrev, hfront⟩
    · exact ⟨as, ⟨l, hl, has⟩, rfl⟩
    · exfalso
      have hbrace : '\x7d' ∉ l.reverse := fun hmem =>
        hl.notMem (.inr rfl) (List.mem_reverse.mp hmem)
      obtain ⟨d, c, rfl⟩ := List.exists_cons_of_ne_nil hc
      rcases h with rfl | ⟨f, rfl | rfl⟩
      · simp at hfront
      · -- the brace would stand in the attribute
        rw [List.reverse_append, List.reverse_singleton] at hfront
        obtain ⟨rfl, -⟩ := List.cons.inj hfront
        exact hbrace (hrev ▸ by simp)
      · have hreverse : (f ++ ['\x7d', '"']).reverse = '"' :: '\x7d' :: f.reverse := by simp
        rw [hreverse] at hfront
        obtain ⟨rfl, hrest⟩ := List.cons.inj hfront
        cases c with
        | nil =>
          -- the attribute would start with the quote
          obtain ⟨blank, name, hblank, -, -, rfl⟩ := hl
          rw [List.reverse_cons, List.append_singleton_inj] at hrev
          rw [hrev.2] at hblank
          exact absurd hblank (by decide)
        | cons e c =>
          obtain rfl : '\x7d' = e := (List.cons.inj hrest).1
          exact hbrace (hrev ▸ by simp)
  · rintro ⟨b, ⟨l, hl, rfl⟩, rfl⟩
    exact ⟨l, hl, List.append_assoc _ _ _⟩

/-- Whether the pass does not have to guard against what is cut out already. -/
def Verdict.IsFree : Verdict → Prop
  | .attribute _ | .token => True
  | .skip | .late => False

/-- **One step** with a token that goes with its attribute. -/
lemma verdict_attribute {before rest : List Char} (hfront : Closed front)
    (hbefore : beforeAttribute? pending = some before) :
    verdict (front ++ pending.reverse ++ (t.raw ++ '"' :: rest)) (byteSize front)
      (spanAt (front ++ pending.reverse) t) = .attribute (byteSize (front ++ before.reverse)) := by
  have hlook : beforeAttribute? (front ++ pending.reverse).reverse =
      some (before ++ front.reverse) := by
    rw [List.reverse_append, List.reverse_reverse, hfront.beforeAttribute?_append, hbefore]
    rfl
  have hsize : byteSize (before ++ front.reverse) = byteSize (front ++ before.reverse) := by
    rw [← byteSize_reverse, List.reverse_append, List.reverse_reverse]
  have hstart : ¬ (spanAt (front ++ pending.reverse) t).start < byteSize front := by
    rw [spanAt, byteSize_append]
    simp
  rw [verdict, if_neg hstart, attributeStart?_at, List.head?_cons, if_pos rfl, hlook,
    Option.map_some, hsize]
  exact if_pos (by rw [byteSize_append]; omega)

/-- **One step** with any other token. -/
lemma verdict_token (hfront : Closed front)
    (hbefore : rest.head? = some '"' → beforeAttribute? pending = none) :
    verdict (front ++ pending.reverse ++ (t.raw ++ rest)) (byteSize front)
      (spanAt (front ++ pending.reverse) t) = .token := by
  have hlook : (if rest.head? = some '"' then
      (beforeAttribute? (front ++ pending.reverse).reverse).map byteSize else none) = none := by
    split
    · next hquote =>
      rw [List.reverse_append, List.reverse_reverse, hfront.beforeAttribute?_append, hbefore hquote]
      rfl
    · rfl
  have hstart : ¬ (spanAt (front ++ pending.reverse) t).start < byteSize front := by
    rw [spanAt, byteSize_append]
    simp
  rw [verdict, if_neg hstart, attributeStart?_at, hlook]

/-- Whether the pass over some tokens, behind some text, is free with every token and
keeps some text. -/
def Keeps (cs front : List Char) (spans : List Span) (kept : List Char) : Prop :=
  sweep cs (byteSize front) spans = kept ∧ ∀ v ∈ verdicts cs (byteSize front) spans, v.IsFree

lemma Keeps.attribute {before kept : List Char} {spans : List Span} (hfront : Closed front)
    (hbefore : beforeAttribute? pending = some before)
    (hcs : cs = front ++ pending.reverse ++ (t.raw ++ '"' :: rest))
    (h : Keeps cs (front ++ pending.reverse ++ t.raw ++ ['"']) spans kept) :
    Keeps cs front (spanAt (front ++ pending.reverse) t :: spans) (before.reverse ++ kept) := by
  have hverdict : verdict cs (byteSize front) (spanAt (front ++ pending.reverse) t) =
      .attribute (byteSize (front ++ before.reverse)) := by
    rw [hcs]
    exact verdict_attribute hfront hbefore
  obtain ⟨l, -, rfl⟩ := beforeAttribute?_eq_some_iff.mp hbefore
  have hslice :
      slice cs (byteSize front) (byteSize (front ++ before.reverse)) = before.reverse := by
    rw [hcs]
    simpa using slice_append front before.reverse (l ++ (t.raw ++ '"' :: rest))
  have hnext : byteSize (front ++ (l.reverse ++ before).reverse) + byteSize t.raw + 1 =
      byteSize (front ++ (l.reverse ++ before).reverse ++ t.raw ++ ['"']) := by
    rw [byteSize_append _ ['"'], byteSize_append _ t.raw]
    rfl
  obtain ⟨hkept, hfree⟩ := h
  rw [← hnext] at hkept hfree
  refine ⟨?_, ?_⟩
  · rw [sweep, hverdict, ← hkept]
    exact congrArg (· ++ _) hslice
  · rw [verdicts, hverdict]
    exact List.forall_mem_cons.mpr ⟨trivial, hfree⟩

lemma Keeps.token {kept : List Char} {spans : List Span} (hfront : Closed front)
    (hbefore : rest.head? = some '"' → beforeAttribute? pending = none)
    (hcs : cs = front ++ pending.reverse ++ (t.raw ++ rest))
    (h : Keeps cs (front ++ pending.reverse ++ t.raw) spans kept) :
    Keeps cs front (spanAt (front ++ pending.reverse) t :: spans) (pending.reverse ++ kept) := by
  have hverdict := verdict_token (t := t) hfront hbefore
  rw [← hcs] at hverdict
  have hslice :
      slice cs (byteSize front) (byteSize (front ++ pending.reverse)) = pending.reverse := by
    rw [hcs, List.append_assoc]
    exact slice_append front pending.reverse (t.raw ++ rest)
  obtain ⟨hkept, hfree⟩ := h
  rw [byteSize_append _ t.raw] at hkept hfree
  refine ⟨?_, ?_⟩
  · rw [sweep, hverdict, ← hkept]
    exact congrArg (· ++ _) hslice
  · rw [verdicts, hverdict]
    exact List.forall_mem_cons.mpr ⟨trivial, hfree⟩

/-- Text that ends with a token is closed. -/
lemma closed_append_raw (front : List Char) (t : Token) : Closed (front ++ t.raw) :=
  .inr ⟨front ++ '\x7b' :: '%' :: (t.body ++ ['%']), .inl (by simp [Token.raw])⟩

lemma closed_append_raw_quote (front : List Char) (t : Token) : Closed (front ++ t.raw ++ ['"']) :=
  .inr ⟨front ++ '\x7b' :: '%' :: (t.body ++ ['%']), .inr (by simp [Token.raw])⟩

/-- Pieces whose text starts with a quote start with this quote. -/
lemma exists_of_head?_raw {ps : List Piece} (h : (ps.flatMap Piece.raw).head? = some '"') :
    ∃ rest, ps = .char '"' :: rest := by
  cases ps with
  | nil => simp at h
  | cons p rest =>
    cases p with
    | char c =>
      obtain rfl : c = '"' := Option.some.inj h
      exact ⟨rest, rfl⟩
    | token t => exact absurd (Option.some.inj h) (by decide)

/-- **A whole run**: the pass keeps what is left when the pieces of the text are read one
by one, and it is free with every token. -/
theorem keeps_stripFrom (hfront : Closed front) (pending : List Char) (ps : List Piece)
    (hcs : cs = front ++ pending.reverse ++ ps.flatMap Piece.raw) :
    Keeps cs front (spansFrom (byteSize (front ++ pending.reverse)) ps) (stripFrom pending ps) := by
  induction hn : ps.length using Nat.strong_induction_on generalizing front pending ps with
  | _ n ih =>
    cases ps with
    | nil =>
      refine ⟨?_, by simp [spansFrom, verdicts]⟩
      rw [hcs, List.flatMap_nil, List.append_nil]
      exact slice_back front pending.reverse
    | cons p ps =>
      rw [List.length_cons] at hn
      cases p with
      | char c =>
        have hpending : front ++ pending.reverse ++ [c] = front ++ (c :: pending).reverse := by simp
        have h := ih ps.length (by omega) hfront (c :: pending) ps
          (by rw [hcs, ← hpending]; simp [Piece.raw]) rfl
        rw [← hpending, byteSize_append _ [c]] at h
        rw [spansFrom, stripFrom]
        exact h
      | token t =>
        rw [List.flatMap_cons, Piece.raw] at hcs
        have hstop := byteSize_append (front ++ pending.reverse) t.raw
        by_cases hquote : ∃ before rest, beforeAttribute? pending = some before ∧
            ps = .char '"' :: rest
        · obtain ⟨before, rest, hbefore, rfl⟩ := hquote
          rw [List.length_cons] at hn
          have h := ih rest.length (by omega) (closed_append_raw_quote (front ++ pending.reverse) t)
            [] rest (by rw [hcs]; simp [Piece.raw]) rfl
          rw [List.reverse_nil, List.append_nil, byteSize_append _ ['"'], hstop] at h
          rw [stripFrom_attribute hbefore]
          exact .attribute hfront hbefore hcs h
        · have hnone : ∀ rest, ps = .char '"' :: rest → beforeAttribute? pending = none := by
            intro rest hps
            rw [Option.eq_none_iff_forall_ne_some]
            exact fun before hbefore => hquote ⟨before, rest, hbefore, hps⟩
          have h := ih ps.length (by omega) (closed_append_raw (front ++ pending.reverse) t) [] ps
            (by rw [hcs]; simp) rfl
          rw [List.reverse_nil, List.append_nil, hstop] at h
          rw [stripFrom_token hnone]
          refine .token hfront (fun hhead => ?_) hcs h
          obtain ⟨rest, hps⟩ := exists_of_head?_raw hhead
          exact hnone rest hps

/-! ### Stretches that are cut out -/

/-- Whether some stretches come one behind the other, from some place on. -/
def Ordered (last : ℕ) : List Stretch → Prop
  | [] => True
  | s :: rest => last ≤ s.start ∧ s.start < s.stop ∧ Ordered s.stop rest

/-- The text between some stretches, from some place on. -/
def between (cs : List Char) (last : ℕ) : List Stretch → List Char
  | [] => slice cs last (byteSize cs)
  | s :: rest => slice cs last s.start ++ between cs s.stop rest

lemma Ordered.le_start {last : ℕ} {stretches : List Stretch} (h : Ordered last stretches) :
    ∀ s ∈ stretches, last ≤ s.start := by
  induction stretches generalizing last with
  | nil => simp
  | cons s rest ih =>
    obtain ⟨hle, hlt, hrest⟩ := h
    refine List.forall_mem_cons.mpr ⟨hle, fun s' hs' => ?_⟩
    have := ih hrest s' hs'
    omega

lemma Ordered.pairwise {last : ℕ} {stretches : List Stretch} (h : Ordered last stretches) :
    stretches.Pairwise fun s s' => s.stop ≤ s'.start := by
  induction stretches generalizing last with
  | nil => exact .nil
  | cons s rest ih => exact List.pairwise_cons.mpr ⟨h.2.2.le_start, ih h.2.2⟩

/-- Two parts of an ordered list are apart if the one is before the other. -/
lemma filter_or_of_pairwise {α : Type} {r : α → α → Prop} {p q : α → Bool} {l : List α}
    (hl : l.Pairwise r) (hpq : ∀ a b, r a b → q a = true → p b = false)
    (hdisjoint : ∀ a, p a = true → q a = false) :
    l.filter (fun a => p a || q a) = l.filter p ++ l.filter q := by
  induction l with
  | nil => rfl
  | cons a l ih =>
    obtain ⟨ha, hl⟩ := List.pairwise_cons.mp hl
    cases hq : q a with
    | true =>
      have hp : p a = false := by
        by_contra hp
        simp [hdisjoint a (by simpa using hp)] at hq
      have hnone : l.filter p = [] :=
        List.filter_eq_nil_iff.mpr fun b hb => by simp [hpq a b (ha b hb) hq]
      simp [hp, hq, ih hl, hnone]
    | false => cases hp : p a <;> simp [hp, hq, ih hl]

/-- The text between some stretches is what is in none of them. -/
lemma between_eq {last : ℕ} {stretches : List Stretch} (h : Ordered last stretches) :
    between cs last stretches =
      ((offsets 0 cs).filter fun p =>
        last ≤ p.1 ∧ ∀ s ∈ stretches, p.1 < s.start ∨ s.stop ≤ p.1).map Prod.snd := by
  induction stretches generalizing last with
  | nil =>
    rw [between, slice]
    congr 1
    refine List.filter_congr fun p hp => ?_
    have := lt_of_mem_offsets hp
    simp
    omega
  | cons s rest ih =>
    obtain ⟨hle, hlt, hrest⟩ := h
    rw [between, slice, ih hrest, ← List.map_append,
      ← filter_or_of_pairwise (pairwise_offsets 0 cs)]
    · congr 1
      refine List.filter_congr fun p _ => ?_
      rw [← Bool.decide_or, decide_eq_decide, List.forall_mem_cons]
      constructor
      · rintro (⟨hlast, hbefore⟩ | ⟨hstop, hothers⟩)
        · refine ⟨hlast, .inl hbefore, fun s' hs' => .inl ?_⟩
          have := hrest.le_start s' hs'
          omega
        · exact ⟨by omega, .inr hstop, hothers⟩
      · rintro ⟨hlast, hbefore | hstop, hothers⟩
        · exact .inl ⟨hlast, hbefore⟩
        · exact .inr ⟨hstop, hothers⟩
    · intro p q hpq hq
      simp at hq ⊢
      omega
    · intro p hp
      simp at hp ⊢
      omega

/-- The tokens of a text, with what is before and behind them. -/
lemma exists_of_mem_scan {html : String} {span : Span} (h : span ∈ scan html) :
    ∃ before t rest, html.toList = before ++ (t.raw ++ rest) ∧ span = spanAt before t := by
  rw [scan_eq, mem_spansFrom_iff] at h
  obtain ⟨as, t, bs, hpieces, rfl⟩ := h
  refine ⟨as.flatMap Piece.raw, t, bs.flatMap Piece.raw, ?_, ?_⟩
  · rw [← raw_pieces html.toList, hpieces]
    simp [Piece.raw]
  · rw [Nat.zero_add, Nat.zero_add, byteSize_append]
    rfl

/-- The stretch of a token holds the token, and lies in the text. -/
lemma removal_bounds (before : List Char) (t : Token) (rest : List Char) :
    let cs := before ++ (t.raw ++ rest)
    let span := spanAt before t
    (removal cs span).start ≤ span.start ∧ span.stop ≤ (removal cs span).stop ∧
      (removal cs span).stop ≤ byteSize cs := by
  intro cs span
  have hsize : byteSize cs = span.stop + byteSize rest := by
    rw [byteSize_append, byteSize_append, ← Nat.add_assoc]
    rfl
  rw [removal]
  cases hattribute : attributeStart? cs span with
  | none => exact ⟨Nat.le_refl _, Nat.le_refl _, by rw [hsize]; exact Nat.le_add_right _ _⟩
  | some start =>
    obtain ⟨front, l, rest', -, heq, rfl, hstart⟩ := attributeStart?_eq_some_iff.mp hattribute
    refine ⟨?_, Nat.le_succ _, ?_⟩
    · rw [hstart, byteSize_append]
      exact Nat.le_add_right _ _
    · -- the quote behind the token
      have hcs : cs = front ++ l ++ (t.raw ++ '"' :: rest') := by rw [List.append_assoc]; exact heq
      have hquote : byteSize cs = span.start + (byteSize t.raw + (1 + byteSize rest')) := by
        rw [hcs, byteSize_append (front ++ l), ← hstart, byteSize_append]
        rfl
      have hstop : span.stop = span.start + byteSize t.raw := rfl
      simp only
      omega

/-- The stretches of the tokens that the scanner finds. -/
lemma removal_of_mem_scan {html : String} {span : Span} (h : span ∈ scan html) :
    (removal html.toList span).start ≤ span.start ∧
      span.stop ≤ (removal html.toList span).stop ∧
      (removal html.toList span).stop ≤ html.utf8ByteSize ∧
      ∀ start, attributeStart? html.toList span = some start ↔
        IsValueOf html.toList span start := by
  obtain ⟨before, t, rest, heq, rfl⟩ := exists_of_mem_scan h
  rw [← byteSize_toList, heq]
  obtain ⟨hstart, hstop, hsize⟩ := removal_bounds before t rest
  exact ⟨hstart, hstop, hsize, fun _ => attributeStart?_eq_some_iff⟩

/-- Something is cut out for every token. -/
lemma removal_start_lt_stop {html : String} {span : Span} (h : span ∈ scan html) :
    (removal html.toList span).start < (removal html.toList span).stop := by
  obtain ⟨hstart, hstop, -, -⟩ := removal_of_mem_scan h
  obtain ⟨before, t, rest, -, rfl⟩ := exists_of_mem_scan h
  have hpos : byteSize t.raw ≠ 0 := fun hzero => t.raw_ne_nil (eq_nil_of_byteSize_eq_zero hzero)
  simp only [spanAt] at hstart hstop ⊢
  omega

/-- A pass that is free with every token cuts out their stretches, one behind the
other. -/
lemma ordered_of_isFree {last : ℕ} {spans : List Span}
    (hlt : ∀ span ∈ spans, (removal cs span).start < (removal cs span).stop)
    (h : ∀ v ∈ verdicts cs last spans, v.IsFree) :
    Ordered last (spans.map (removal cs)) ∧
      sweep cs last spans = between cs last (spans.map (removal cs)) := by
  induction spans generalizing last with
  | nil => exact ⟨trivial, rfl⟩
  | cons span rest ih =>
    rw [List.forall_mem_cons] at hlt
    rw [verdicts, List.forall_mem_cons] at h
    obtain ⟨hfree, h⟩ := h
    obtain ⟨hordered, hsweep⟩ := ih hlt.2 h
    have hremoval : last ≤ (removal cs span).start ∧
        (verdict cs last span).keepsTo last span = (removal cs span).start ∧
        (verdict cs last span).next last span = (removal cs span).stop := by
      revert hfree
      rw [verdict, removal]
      split
      · exact False.elim
      · next hlast =>
        cases attributeStart? cs span with
        | none => exact fun _ => ⟨Nat.le_of_not_lt hlast, rfl, rfl⟩
        | some start =>
          simp only
          split
          · next hstart => exact fun _ => ⟨hstart, rfl, rfl⟩
          · exact False.elim
    obtain ⟨hlast, hkeeps, hnext⟩ := hremoval
    rw [hnext] at hordered hsweep
    refine ⟨⟨hlast, hlt.1, hordered⟩, ?_⟩
    rw [List.map_cons, between, sweep, hkeeps, hnext, hsweep]

/-- **What is cut out** of a page: a stretch for each token in it, which is the attribute
whose whole value the token is, from its blank to its quote, and else the token alone.
The stretches are apart, in order, and lie in the page. The pass over the tokens keeps
just what is in none of them; it never meets a token that starts in what is cut out
already, nor an attribute that does. -/
theorem strip_removes (html : String) :
    (strip html).toList = outside ((scan html).map (removal html.toList)) html.toList ∧
      ((scan html).map (removal html.toList)).Pairwise (fun s s' => s.stop ≤ s'.start) ∧
      (∀ span ∈ scan html, (removal html.toList span).start ≤ span.start ∧
        span.stop ≤ (removal html.toList span).stop ∧
        (removal html.toList span).stop ≤ html.utf8ByteSize ∧
        ∀ start, attributeStart? html.toList span = some start ↔
          IsValueOf html.toList span start) ∧
      (strip html).toList = sweep html.toList 0 (scan html) ∧
      ∀ v ∈ verdicts html.toList 0 (scan html), v ≠ .skip ∧ v ≠ .late := by
  have hrun : Keeps html.toList [] (scan html) (stripChars html.toList) := by
    rw [scan_eq]
    exact keeps_stripFrom (.inl rfl) [] (pieces html.toList) (raw_pieces _).symm
  obtain ⟨hsweep, hfree⟩ := hrun
  have hstrip : (strip html).toList = sweep html.toList 0 (scan html) := by
    rw [strip, String.toList_ofList]
    exact hsweep.symm
  obtain ⟨hordered, hbetween⟩ := ordered_of_isFree (fun _ h => removal_start_lt_stop h) hfree
  refine ⟨?_, hordered.pairwise, fun span h => removal_of_mem_scan h, hstrip, fun v hv => ?_⟩
  · rw [hstrip, outside]
    simpa [byteSize] using hbetween.trans (between_eq hordered)
  · have := hfree v hv
    constructor <;> rintro rfl <;> exact this

end Cleanup

end PageTree
