/-
Tokens in a page from which the tokens that were left are removed.

The removal reads the page once. Every token of the page goes, but what stood before a
cut now meets what stood behind it, and the two may make up a new token: in
`\x7b%a\x7b%b%\x7dc%\x7d` the inner token goes and the outer one is made up. This is
the only way in which a token is left, and where none is, nothing more is removed by
reading the page again. Minimizing neither makes up a token nor breaks one.

* `Rejoined`: texts that make up a token where something is cut out of them;
* `hasToken_stripChars_iff`: **tokens that are left**;
* `hasToken_minimizeChars_iff`: tokens in a minimized text;
* `strip_leaves_iff`: **tokens in a finished page**.
-/
import PageTree.Proofs.Assembly
import PageTree.Proofs.Minimizing
import PageTree.Proofs.Replacing

namespace PageTree

namespace Placeholder

/-- Whether a token is written in a text. -/
def HasToken (cs : List Char) : Prop :=
  ∃ (t : Token) (k before after : List Char), t.Proper k ∧ cs = before ++ (t.raw ++ after)

variable {as bs cs : List Char}

lemma HasToken.append_left (h : HasToken bs) (as : List Char) : HasToken (as ++ bs) := by
  obtain ⟨t, k, before, after, hk, rfl⟩ := h
  exact ⟨t, k, as ++ before, after, hk, by simp⟩

lemma HasToken.append_right (h : HasToken as) (bs : List Char) : HasToken (as ++ bs) := by
  obtain ⟨t, k, before, after, hk, rfl⟩ := h
  exact ⟨t, k, before, after ++ bs, hk, by simp⟩

/-- A token across two texts is one in both of them together. -/
lemma TokenAcross.hasToken (h : TokenAcross as bs) : HasToken (as ++ bs) := by
  obtain ⟨t, k, a₁, c₁, c₂, b₂, hk, hraw, -, -, rfl, rfl⟩ := h
  exact ⟨t, k, a₁, b₂, hk, by simp [hraw]⟩

/-- The scanner finds nothing in a text without tokens. -/
lemma scan_eq_nil_iff {text : String} : scan text = [] ↔ ¬ HasToken text.toList := by
  rw [← List.map_eq_nil_iff (f := Span.token), ← tokens, List.eq_nil_iff_forall_not_mem]
  simp only [mem_tokens_iff_exists, HasToken]
  constructor
  · rintro h ⟨t, k, before, after, hk, heq⟩
    exact h t ⟨⟨k, hk⟩, before, after, heq⟩
  · rintro h t ⟨⟨k, hk⟩, before, after, heq⟩
    exact h ⟨t, k, before, after, hk, heq⟩

end Placeholder

namespace Cleanup

open Placeholder
open Text (isAsciiBlank)

variable {as bs cs k : List Char} {c : Char}

/-! ### The first cut -/

lemma Cut.hasToken (h : Cut k) : HasToken k := by
  cases h with
  | @token t key h => exact ⟨t, key, [], [], h, by simp⟩
  | @quoted l hl t key h => exact ⟨t, key, l, ['"'], h, by simp⟩

/-- No cut runs across where a character is that starts no cut. -/
lemma not_cutAcross_cons (hfront : NoCut (c :: (as ++ bs))) (h : ¬ CutAcross as bs) :
    ¬ CutAcross (c :: as) bs := by
  rintro ⟨a₁, c₁, c₂, b₂, hcut, h₁, h₂, has, rfl⟩
  cases a₁ with
  | nil =>
    refine hfront (c₁ ++ c₂) b₂ hcut ?_
    rw [← List.cons_append, has]
    simp
  | cons d a₁ => exact h ⟨a₁, c₁, c₂, b₂, hcut, h₁, h₂, (List.cons.inj has).2, rfl⟩

/-- No cut that starts in another one runs out of it. -/
lemma not_cutAcross_append (hk : Cut k) (h : ¬ CutAcross as bs) : ¬ CutAcross (k ++ as) bs := by
  rintro ⟨a₁, c₁, c₂, b₂, hcut, h₁, h₂, has, rfl⟩
  rcases append_eq_append_cases has with ⟨m, rfl, rfl⟩ | ⟨c, -, rfl, rfl⟩
  · have hlonger : ∀ e', m ≠ m ++ as ++ c₂ ++ e' := by
      intro e' heq
      have hlen := congrArg List.length heq
      have hpos := List.length_pos_iff.mpr h₂
      simp only [List.length_append] at hlen
      omega
    have hfront : m ++ (as ++ c₂) = m ++ as ++ c₂ ++ [] := by simp
    rcases eq_or_ne a₁ [] with rfl | ha₁
    · rw [List.nil_append] at hk
      exact hlonger [] (by rw [List.append_nil]; exact hk.inj hcut hfront)
    · rcases eq_or_ne m [] with rfl | hm
      · exact h ⟨[], as, c₂, b₂, hcut, h₁, h₂, rfl, rfl⟩
      · obtain ⟨e', he'⟩ := hk.inside ha₁ hm hcut hfront
        exact hlonger e' he'
  · exact h ⟨c, c₁, c₂, b₂, hcut, h₁, h₂, rfl, rfl⟩

/-- The first cut in a page, if there is one, and what is before it and behind it. -/
lemma exists_first_cut (cs : List Char) :
    (¬ HasToken cs ∧ stripChars cs = cs) ∨
      ∃ as k bs, cs = as ++ (k ++ bs) ∧ Cut k ∧ ¬ CutAcross as (k ++ bs) ∧ stripChars as = as := by
  induction cs using strip_induction with
  | nil =>
    refine .inl ⟨?_, stripChars_nil⟩
    rintro ⟨t, k, before, after, -, heq⟩
    simp [t.raw_ne_nil] at heq
  | cons c rest hfront ih =>
    rcases ih with ⟨hnone, hrest⟩ | ⟨as, k, bs, rfl, hk, hacross, has⟩
    · refine .inl ⟨?_, by rw [stripChars_cons hfront, hrest]⟩
      rintro ⟨t, k, before, after, hk, heq⟩
      cases before with
      | nil => exact hfront _ _ (.token hk) heq
      | cons d before => exact hnone ⟨t, k, before, after, hk, (List.cons.inj heq).2⟩
    · refine .inr ⟨c :: as, k, bs, rfl, hk, not_cutAcross_cons hfront hacross, ?_⟩
      rw [stripChars_cons (NoCut.of_append (by simpa using hfront)), has]
  | cut k rest hk _ =>
    refine .inr ⟨[], k, rest, rfl, hk, ?_, stripChars_nil⟩
    rintro ⟨a₁, c₁, c₂, b₂, -, h₁, -, heq, -⟩
    simp [h₁] at heq

/-! ### Tokens that are left -/

/-- Whether something is cut out of a text between two parts that make up a token
together, once the cuts in them are gone. The cut is the longest one at its place. -/
def Rejoined (cs : List Char) : Prop :=
  ∃ as k bs, cs = as ++ (k ++ bs) ∧ Cut k ∧ ¬ CutAcross as (k ++ bs) ∧
    TokenAcross (stripChars as) (stripChars bs)

/-- **Tokens that are left** are those that are made up where something is cut out. -/
theorem hasToken_stripChars_iff (cs : List Char) : HasToken (stripChars cs) ↔ Rejoined cs := by
  constructor
  · intro h
    induction cs using strip_induction with
    | nil =>
      obtain ⟨t, k, before, after, -, heq⟩ := h
      rw [stripChars_nil] at heq
      simp [t.raw_ne_nil] at heq
    | cons c rest hfront ih =>
      rw [stripChars_cons hfront] at h
      obtain ⟨t, key, before, after, hkey, heq⟩ := h
      cases before with
      | cons d before =>
        obtain ⟨as, k, bs, rfl, hk, hacross, htoken⟩ :=
          ih ⟨t, key, before, after, hkey, (List.cons.inj heq).2⟩
        refine ⟨c :: as, k, bs, rfl, hk, not_cutAcross_cons hfront hacross, ?_⟩
        rw [stripChars_cons (NoCut.of_append (by simpa using hfront))]
        exact htoken.append_left [c]
      | nil =>
        -- a token at the front can only be made up at the first cut
        have hread : ∀ ys, c :: rest ≠ t.raw ++ ys := fun ys => hfront _ ys (.token hkey)
        rw [← stripChars_cons hfront, List.nil_append] at heq
        rcases exists_first_cut (c :: rest) with ⟨-, hself⟩ | ⟨as, k, bs, hcs, hk, hacross, has⟩
        · exact absurd (hself.symm.trans heq) (hread after)
        · rw [hcs, stripChars_around hk hacross, has] at heq
          rcases append_eq_append_cases heq with ⟨as', rfl, -⟩ | ⟨c₂, hc₂, hraw, hbs⟩
          · exact absurd (by rw [hcs, List.append_assoc]) (hread (as' ++ (k ++ bs)))
          · have hne : as ≠ [] := by
              rintro rfl
              exact hfront k bs hk hcs
            exact ⟨as, k, bs, hcs, hk, hacross,
              t, key, [], as, c₂, after, hkey, hraw, hne, hc₂, has, hbs⟩
    | cut k rest hk ih =>
      rw [stripChars_cut hk] at h
      obtain ⟨as, k', bs, rfl, hk', hacross, htoken⟩ := ih h
      refine ⟨k ++ as, k', bs, by simp, hk', not_cutAcross_append hk hacross, ?_⟩
      rwa [stripChars_cut hk]
  · rintro ⟨as, k, bs, rfl, hk, hacross, htoken⟩
    rw [stripChars_around hk hacross]
    exact htoken.hasToken

/-- **A text stays as it is** exactly when no token is in it. -/
theorem stripChars_eq_self_iff (cs : List Char) : stripChars cs = cs ↔ ¬ HasToken cs := by
  constructor
  · intro hself htoken
    rcases exists_first_cut cs with ⟨hnone, -⟩ | ⟨as, k, bs, rfl, hk, hacross, has⟩
    · exact hnone htoken
    · rw [stripChars_around hk hacross, has, List.append_cancel_left_eq] at hself
      have hle := length_stripChars_le bs
      have hpos := List.length_pos_iff.mpr hk.ne_nil
      rw [hself, List.length_append] at hle
      omega
  · intro hnone
    rcases exists_first_cut cs with ⟨-, hself⟩ | ⟨as, k, bs, rfl, hk, -, -⟩
    · exact hself
    · exact absurd ((hk.hasToken.append_right bs).append_left as) hnone

/-! ### Tokens in a minimized text -/

section Minimized

variable {xs ys : List Char} {d : Char} {last : Option Char} {blank : Bool}

/-- Characters with nothing between them stay side by side. -/
lemma minimizeFrom_some_cons (hd : isAsciiBlank d = false) (c : Char) (bs : List Char) :
    minimizeFrom (some c) false (d :: bs) = d :: minimizeFrom (some d) false bs := by
  rw [minimizeFrom_cons hd]
  rfl

/-- A character in a minimized text, found in the text. -/
lemma exists_of_minimizeFrom_eq (hd : isAsciiBlank d = false)
    (h : minimizeFrom last blank cs = xs ++ d :: ys) :
    ∃ as bs, cs = as ++ d :: bs ∧ minimizeFrom last blank (as ++ [d]) = xs ++ [d] ∧
      minimizeFrom (some d) false bs = ys := by
  induction cs generalizing last blank xs with
  | nil => simp [minimizeFrom] at h
  | cons c cs ih =>
    cases hc : isAsciiBlank c with
    | true =>
      rw [minimizeFrom_blank hc] at h
      obtain ⟨as, bs, rfl, has, hbs⟩ := ih h
      exact ⟨c :: as, bs, rfl, by rw [List.cons_append, minimizeFrom_blank hc, has], hbs⟩
    | false =>
      rw [minimizeFrom_cons hc] at h
      rcases append_eq_append_cases h.symm with ⟨zs, rfl, hzs⟩ | ⟨zs, hne, hzs, hys⟩
      · cases zs with
        | nil =>
          obtain ⟨rfl, hcs⟩ := List.cons.inj hzs
          have hsingle : minimizeFrom last blank ([] ++ [c]) = before last blank c ++ [c] :=
            minimizeFrom_cons hc []
          exact ⟨[], cs, rfl, by rw [hsingle, List.append_nil], hcs⟩
        | cons z zs =>
          obtain ⟨rfl, hcs⟩ := List.cons.inj hzs
          obtain ⟨as, bs, rfl, has, hbs⟩ := ih hcs
          exact ⟨c :: as, bs, rfl, by rw [List.cons_append, minimizeFrom_cons hc, has]; simp, hbs⟩
      · -- only blanks are put in front of a character
        obtain ⟨z, zs, rfl⟩ := List.exists_cons_of_ne_nil hne
        obtain ⟨rfl, -⟩ := List.cons.inj hys
        have hblank := isBlankRun_before last blank c d (by rw [hzs]; simp)
        rw [hd] at hblank
        exact absurd hblank Bool.false_ne_true

/-- Blanks between two characters leave a space, if it is not dropped. -/
lemma eq_nil_of_minimizeFrom_eq (hd : isAsciiBlank d = false)
    (hkept : isDropped (some c) (some d) = false)
    (h : minimizeFrom (some c) false (as ++ [d]) = [d]) : as = [] := by
  have hsolid := congrArg solid h
  rw [solid_minimizeFrom, solid_append] at hsolid
  have hblanks : IsBlankRun as :=
    solid_eq_nil_iff.mp (List.append_cancel_right (hsolid.trans (List.nil_append _).symm))
  by_contra hne
  have hspace : before (some c) true d = [' '] := if_pos ⟨rfl, by simp, hkept⟩
  rw [minimizeFrom_blanks hblanks, minimizeFrom_cons hd, List.isEmpty_eq_false_iff.mpr hne,
    Bool.not_false, Bool.or_true, hspace] at h
  simp at h

/-- Characters side by side in a minimized text are so in the text, if a space would stay
between them. -/
lemma exists_of_minimizeFrom_some_eq (hd : isAsciiBlank d = false)
    (hkept : isDropped (some c) (some d) = false)
    (h : minimizeFrom (some c) false cs = d :: ys) :
    ∃ bs, cs = d :: bs ∧ minimizeFrom (some d) false bs = ys := by
  rw [← List.nil_append (d :: ys)] at h
  obtain ⟨as, bs, rfl, has, hbs⟩ := exists_of_minimizeFrom_eq hd h
  obtain rfl := eq_nil_of_minimizeFrom_eq hd hkept has
  exact ⟨bs, rfl, hbs⟩

/-- Percent signs side by side in a minimized text are so in the text. -/
lemma minimizeFrom_replicate (n : ℕ) (bs : List Char) :
    minimizeFrom (some '%') false (List.replicate n '%' ++ bs) =
      List.replicate n '%' ++ minimizeFrom (some '%') false bs := by
  induction n with
  | zero => rfl
  | succ n ih => rw [List.replicate_succ, List.cons_append, minimizeFrom_some_cons rfl, ih]; rfl

lemma exists_of_minimizeFrom_eq_replicate (n : ℕ)
    (h : minimizeFrom (some '%') false cs = List.replicate n '%' ++ ys) :
    ∃ bs, cs = List.replicate n '%' ++ bs ∧ minimizeFrom (some '%') false bs = ys := by
  induction n generalizing cs with
  | zero => exact ⟨cs, rfl, h⟩
  | succ n ih =>
    obtain ⟨rest, rfl, hrest⟩ := exists_of_minimizeFrom_some_eq rfl (by decide) h
    obtain ⟨bs, rfl, hbs⟩ := ih hrest
    exact ⟨bs, rfl, hbs⟩

lemma isKey_solid_iff : IsKey (solid cs) ↔ IsKey cs := by
  refine ⟨fun h c hc => ?_, fun h c hc => h c (List.mem_of_mem_filter hc)⟩
  cases hblank : isAsciiBlank c with
  | false => exact h c (List.mem_filter.mpr ⟨hc, by simp [hblank]⟩)
  | true =>
    refine ⟨?_, ?_, ?_⟩ <;> rintro rfl <;> exact absurd hblank (by decide)

/-- What is between two percent signs is a key just when it is one in the minimized text,
and it is not minimized to nothing. -/
lemma isKey_iff_of_minimizeFrom {k' : List Char}
    (h : minimizeFrom (some '%') false (k ++ ['%']) = k' ++ ['%']) :
    (IsKey k' ↔ IsKey k) ∧ (k' = [] ↔ k = []) := by
  have hsolid := congrArg solid h
  rw [solid_minimizeFrom, solid_append, solid_append] at hsolid
  refine ⟨?_, ?_, ?_⟩
  · rw [← isKey_solid_iff, ← List.append_cancel_right hsolid, isKey_solid_iff]
  · rintro rfl
    exact eq_nil_of_minimizeFrom_eq rfl (by decide) h
  · rintro rfl
    exact (List.append_cancel_right (h.symm.trans (List.nil_append _).symm))

/-- A token, by its marks, the percent signs next to them, and its key. -/
lemma hasToken_iff :
    HasToken cs ↔ ∃ before l k r after, IsKey k ∧ (l ≠ 0 ∨ k ≠ [] ∨ r ≠ 0) ∧
      cs = before ++ '\x7b' :: '%' :: (List.replicate l '%' ++ (k ++ '%' ::
        (List.replicate r '%' ++ '\x7d' :: after))) := by
  have hraw : ∀ l k r after,
      Token.raw ⟨List.replicate l '%' ++ k ++ List.replicate r '%'⟩ ++ after =
        '\x7b' :: '%' :: (List.replicate l '%' ++ (k ++ '%' ::
          (List.replicate r '%' ++ '\x7d' :: after))) := by
    intro l k r after
    have hpercent : List.replicate r '%' ++ ['%'] = '%' :: List.replicate r '%' := by
      rw [← List.replicate_succ', List.replicate_succ]
    calc _ = '\x7b' :: '%' :: (List.replicate l '%' ++ (k ++
            ((List.replicate r '%' ++ ['%']) ++ '\x7d' :: after))) := by simp [Token.raw]
      _ = _ := by rw [hpercent]; rfl
  have hbody : ∀ l r (k : List Char), List.replicate l '%' ++ k ++ List.replicate r '%' ≠ [] ↔
      l ≠ 0 ∨ k ≠ [] ∨ r ≠ 0 := by
    intro l r k
    simp only [ne_eq, List.append_eq_nil_iff, List.replicate_eq_nil_iff]
    tauto
  constructor
  · rintro ⟨⟨body⟩, k, before, after, ⟨hk, hne, l, r, rfl⟩, rfl⟩
    exact ⟨before, l, k, r, after, hk, (hbody l r k).mp hne, by rw [hraw]⟩
  · rintro ⟨before, l, k, r, after, hk, hne, rfl⟩
    exact ⟨⟨_⟩, k, before, after, ⟨hk, (hbody l r k).mpr hne, l, r, rfl⟩, by rw [hraw]⟩

/-- **Minimizing** neither makes up a token nor breaks one. -/
theorem hasToken_minimizeChars_iff (cs : List Char) :
    HasToken (minimizeChars cs) ↔ HasToken cs := by
  rw [hasToken_iff, hasToken_iff, minimizeChars_eq]
  constructor
  · rintro ⟨before, l, k', r, after, hk', hne, h⟩
    obtain ⟨front, cs₁, rfl, -, h₁⟩ := exists_of_minimizeFrom_eq rfl h
    obtain ⟨cs₂, rfl, h₂⟩ := exists_of_minimizeFrom_some_eq rfl (by decide) h₁
    obtain ⟨cs₃, rfl, h₃⟩ := exists_of_minimizeFrom_eq_replicate l h₂
    obtain ⟨k, cs₄, rfl, hk, h₄⟩ := exists_of_minimizeFrom_eq rfl h₃
    obtain ⟨cs₅, rfl, h₅⟩ := exists_of_minimizeFrom_eq_replicate r h₄
    obtain ⟨rest, rfl, -⟩ := exists_of_minimizeFrom_some_eq rfl (by decide) h₅
    obtain ⟨hkey, hnil⟩ := isKey_iff_of_minimizeFrom hk
    exact ⟨front, l, k, r, rest, hkey.mp hk', by rwa [ne_eq k', hnil] at hne, rfl⟩
  · rintro ⟨before, l, k, r, after, hk, hne, rfl⟩
    obtain ⟨front, hfront, -⟩ := exists_minimizeFrom_concat (c := '\x7b') rfl none false before
    obtain ⟨k', hk', -⟩ := exists_minimizeFrom_concat (c := '%') rfl (some '%') false k
    obtain ⟨hkey, hnil⟩ := isKey_iff_of_minimizeFrom hk'
    refine ⟨front, l, k', r, minimizeFrom (some '\x7d') false after, hkey.mpr hk,
      by rwa [ne_eq k', hnil], ?_⟩
    rw [minimizeFrom_append_cons rfl, hfront, minimizeFrom_some_cons rfl, minimizeFrom_replicate,
      minimizeFrom_append_cons rfl, hk', minimizeFrom_replicate, minimizeFrom_some_cons rfl]
    simp

end Minimized

/-! ### Finished pages -/

/-- Tokens after the passes over a page, the removal of tokens being one of them. -/
lemma scan_finish_eq_nil_iff (minimizing : Bool) (page : String) :
    scan (finish true minimizing page) = [] ↔ ¬ Rejoined page.toList := by
  have hstrip : scan (strip page) = [] ↔ ¬ Rejoined page.toList := by
    rw [scan_eq_nil_iff, strip, String.toList_ofList, hasToken_stripChars_iff]
  cases minimizing with
  | false => exact hstrip
  | true =>
    show scan (minimize (strip page)) = [] ↔ _
    rw [← hstrip, scan_eq_nil_iff, scan_eq_nil_iff, minimize, String.toList_ofList,
      hasToken_minimizeChars_iff]

/-- **Tokens in a finished page**: the removal leaves none, and changes nothing when it is
done again, exactly when no token is made up where something is cut out; and the same
goes for every page that is finished with the removal, minimized or not. -/
theorem strip_leaves_iff (html : String) :
    (scan (strip html) = [] ↔ ¬ Rejoined html.toList) ∧
      (strip (strip html) = strip html ↔ ¬ Rejoined html.toList) ∧
      ∀ (r : Renderer) (nodes : List Node), r.options.stripUnused = true →
        (scan (r.page nodes).text = [] ↔ ¬ Rejoined (r.draft nodes).toList) := by
  refine ⟨scan_finish_eq_nil_iff false html, ?_, fun r nodes hstrip => ?_⟩
  · have hchars : strip (strip html) = strip html ↔
        stripChars (stripChars html.toList) = stripChars html.toList := by
      rw [strip, strip, String.toList_ofList, String.ofList_inj]
    rw [hchars, stripChars_eq_self_iff, hasToken_stripChars_iff]
  · have hpage : (r.page nodes).text =
        finish r.options.stripUnused r.options.minimize (r.draft nodes) := rfl
    rw [hpage, hstrip, scan_finish_eq_nil_iff]

/-- The removal leaves a token behind: what stands around a token in the key of another one
makes up a token when the inner one is gone. -/
theorem not_scan_strip_eq_nil : ¬ ∀ html : String, scan (strip html) = [] := by
  intro h
  have hnested := h "<p>\x7b%a\x7b%b%\x7dc%\x7d</p>"
  revert hnested
  decide +kernel

end Cleanup

end PageTree
