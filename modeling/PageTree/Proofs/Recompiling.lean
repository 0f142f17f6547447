/-
Compiling twice.

If the texts of what tokens refer to have no tokens, one pass replaces every token that
names something. A second pass may still change a string: where a value was put in, its
text and what stands around it may make up a token that was not there before. So the
second pass changes nothing exactly if it leaves every compiled string alone, and that
is so if no token is formed where the texts of values were put in.

* `Json.escaped_infix_print`: the strings of a value in its JSON text;
* `Value.tokenFree_of_tokens_text`: a value whose text has no tokens has none in it;
* `Store.compileAll_eq_self_iff`: settings that compiling leaves alone;
* `Store.compile?_again_iff`: **compiling twice**;
* `Store.not_compile?_again`: a token that is formed by the first pass.
-/
import PageTree.Proofs.CompileOrder

namespace PageTree

open Placeholder

/-! ### Tokens in JSON text -/

namespace Json

/-- A hexadecimal digit of a byte below the blank. -/
lemma hexDigit_ne {n : ℕ} (h : n < 16) :
    hexDigit n ≠ '%' ∧ hexDigit n ≠ '\x7b' ∧ hexDigit n ≠ '\x7d' := by
  revert n
  decide

/-- Quoting brings in none of the characters that tokens are made of. -/
lemma isKey_escapeChar {c : Char} (h : c ≠ '%' ∧ c ≠ '\x7b' ∧ c ≠ '\x7d') :
    IsKey (escapeChar c) := by
  have hlow := hexDigit_ne (Nat.mod_lt c.toNat (by decide : 16 > 0))
  rw [escapeChar]
  split_ifs with _ _ _ _ _ _ _ hsmall
  · decide
  · decide
  · decide
  · decide
  · decide
  · decide
  · decide
  · have hhigh := hexDigit_ne (show c.toNat / 16 < 16 by omega)
    simp only [IsKey, List.forall_mem_cons]
    exact ⟨by decide, by decide, by decide, by decide, hhigh, hlow, by simp⟩
  · simpa [IsKey] using h

/-- Quoting keeps the marks of tokens. -/
lemma keepsMarks_escapeChar : KeepsMarks escapeChar where
  percent := rfl
  opening := rfl
  closing := rfl
  ne_nil c := by
    rw [escapeChar]
    split_ifs <;> simp
  isKey _ h := isKey_escapeChar h

lemma escaped_infix_quote (s : String) : s.toList.flatMap escapeChar <:+: (quote s).toList := by
  simp only [quote, String.toList_append, String.toList_ofList]
  exact List.infix_append _ _ _

mutual

/-- Every string of a value stands in its JSON text, in quotes. -/
theorem escaped_infix_print : ∀ {v : Value} {s : String}, s ∈ v.strings →
    s.toList.flatMap escapeChar <:+: (print v).toList
  | .null, _, h | .bool _, _, h | .num _, _, h => absurd h List.not_mem_nil
  | .str _, _, h => List.mem_singleton.mp h ▸ escaped_infix_quote _
  | .arr items, _, h => by
    simp only [print, String.toList_append]
    exact (escaped_infix_printItems h).trans (List.infix_append _ _ _)
  | .obj entries, _, h => by
    simp only [print, String.toList_append]
    exact (escaped_infix_printEntries h).trans (List.infix_append _ _ _)

theorem escaped_infix_printItems : ∀ {items : List Value} {s : String},
    s ∈ Value.itemStrings items → s.toList.flatMap escapeChar <:+: (printItems items).toList
  | [], _, h => absurd h List.not_mem_nil
  | [v], _, h => by
    rw [Value.itemStrings, Value.itemStrings, List.append_nil] at h
    exact escaped_infix_print h
  | v :: w :: rest, _, h => by
    rw [Value.itemStrings, List.mem_append] at h
    simp only [printItems, String.toList_append]
    rcases h with h | h
    · exact (escaped_infix_print h).trans
        ((List.prefix_append _ _).isInfix.trans (List.prefix_append _ _).isInfix)
    · exact (escaped_infix_printItems h).trans (List.suffix_append _ _).isInfix

theorem escaped_infix_printEntries : ∀ {entries : Mapping} {s : String},
    s ∈ Value.entryStrings entries → s.toList.flatMap escapeChar <:+: (printEntries entries).toList
  | [], _, h => absurd h List.not_mem_nil
  | [(k, v)], _, h => by
    rw [Value.entryStrings, Value.entryStrings, List.append_nil] at h
    simp only [printEntries, String.toList_append]
    exact (escaped_infix_print h).trans (List.suffix_append _ _).isInfix
  | (k, v) :: e :: rest, _, h => by
    rw [Value.entryStrings, List.mem_append] at h
    simp only [printEntries, String.toList_append]
    rcases h with h | h
    · exact (escaped_infix_print h).trans ((List.suffix_append _ _).isInfix.trans
        ((List.prefix_append _ _).isInfix.trans (List.prefix_append _ _).isInfix))
    · exact (escaped_infix_printEntries h).trans (List.suffix_append _ _).isInfix

end

/-- A value with a token in a string has a token in its JSON text. -/
lemma tokens_print_ne_nil {v : Value} {s : String} {t : Placeholder.Token} (hs : s ∈ v.strings)
    (ht : t ∈ tokens s) : tokens (print v) ≠ [] := by
  obtain ⟨⟨k, hk⟩, before, after, hbefore⟩ := mem_tokens_iff_exists.mp ht
  obtain ⟨u, k', hu, hraw⟩ := keepsMarks_escapeChar.exists_raw hk
  obtain ⟨left, right, hprint⟩ := escaped_infix_print hs
  rw [hbefore, List.flatMap_append, List.flatMap_append, hraw] at hprint
  have hmem : u ∈ tokens (print v) := by
    refine mem_tokens_iff_exists.mpr ⟨⟨k', hu⟩, left ++ before.flatMap escapeChar,
      after.flatMap escapeChar ++ right, ?_⟩
    rw [← hprint]
    simp only [List.append_assoc]
  exact List.ne_nil_of_mem hmem

end Json

/-- A value whose text has no tokens has none in any string. -/
lemma Value.tokenFree_of_tokens_text {v : Value} (h : tokens v.text = []) : v.TokenFree := by
  intro s hs
  refine List.eq_nil_iff_forall_not_mem.mpr fun t ht => ?_
  cases v with
  | null | bool _ | num _ => exact absurd hs List.not_mem_nil
  | str text =>
    obtain rfl := List.mem_singleton.mp hs
    exact List.ne_nil_of_mem ht h
  | arr items => exact Json.tokens_print_ne_nil hs ht h
  | obj entries => exact Json.tokens_print_ne_nil hs ht h

namespace Store

open Value

variable {m : Mapping}

/-! ### Settings that compiling leaves alone -/

/-- The string at a place stays while those at other places are compiled. -/
lemma at?_foldl_compileAt {place : List Step} {s : String} {places : List (List Step)}
    (hs : (Value.obj m).at? place = some (.str s)) (hplace : place ∉ places) :
    (Value.obj (places.foldl compileAt m)).at? place = some (.str s) := by
  induction places generalizing m with
  | nil => exact hs
  | cons other rest ih =>
    rw [List.mem_cons, not_or] at hplace
    exact ih (at?_compileAt_of_ne hs hplace.1) hplace.2

/-- If strings are compiled one after the other, each of them once, and in the end
nothing has changed, then nothing has changed on the way. -/
lemma compileAt_eq_self_of_foldl {places : List (List Step)} (hnodup : places.Nodup)
    (h : places.foldl compileAt m = m) : ∀ place ∈ places, compileAt m place = m := by
  induction places with
  | nil => exact fun place hplace => absurd hplace List.not_mem_nil
  | cons place rest ih =>
    rw [List.nodup_cons] at hnodup
    rw [List.foldl_cons] at h
    have hfirst : compileAt m place = m := by
      refine compileAt_eq_self fun s hs => ?_
      have hlast := at?_foldl_compileAt (at?_compileAt_self hs) hnodup.1
      rw [h, hs] at hlast
      exact (Value.str.inj (Option.some.inj hlast)).symm
    rw [hfirst] at h
    exact List.forall_mem_cons.mpr ⟨hfirst, ih hnodup.2 h⟩

/-- Settings in which every string is what becomes of it stay. -/
lemma compileAll_eq_self (h : ∀ text ∈ entryStrings m, compileText m text = text) :
    compileAll m = m := by
  have hstay : ∀ place, compileAt m place = m := by
    intro place
    exact compileAt_eq_self fun s hs => h s (mem_strings_of_at? hs)
  rw [compileAll]
  induction stringPlaces (.obj m) with
  | nil => rfl
  | cons place rest ih => rw [List.foldl_cons, hstay, ih]

/-- **Settings that compiling leaves alone** are those in which every string is what
becomes of it. -/
theorem compileAll_eq_self_iff (hd : DistinctEntries m) :
    compileAll m = m ↔ ∀ text ∈ entryStrings m, compileText m text = text := by
  constructor
  · intro h text htext
    have hstay := compileAt_eq_self_of_foldl (nodup_stringPlaces (v := .obj m) hd) h
    obtain ⟨place, hplace⟩ := exists_at?_of_mem_strings (v := .obj m) hd htext
    cases hopen : hasOpening text.toList with
    | false => exact compileText_of_tokens_eq_nil (tokens_eq_nil_of_hasOpening hopen)
    | true =>
      have hafter := at?_compileAt_self hplace
      rw [hstay place (mem_stringPlaces hplace hopen), hplace] at hafter
      exact (Value.str.inj (Option.some.inj hafter)).symm
  · exact compileAll_eq_self

/-! ### Compiling twice -/

/-- Whether what the tokens in the strings of some settings refer to, where it exists,
has a text without tokens. -/
def TextsResolved (m : Mapping) : Prop :=
  ∀ text ∈ entryStrings m, ∀ t ∈ tokens text, ∀ v ∈ Mapping.lookup? m (KeyPath.split t.key),
    tokens v.text = []

instance (m : Mapping) : Decidable (TextsResolved m) := List.decidableBAll _ _

lemma TextsResolved.resolved (h : TextsResolved m) : Resolved m :=
  fun text htext t ht v hv => tokenFree_of_tokens_text (h text htext t ht v hv)

/-- A compiled string stays if no token was formed in it. -/
lemma compileText_simultaneous (h : TextsResolved m) {text : String}
    (htext : text ∈ entryStrings m) (hseam : Seamless (replacement m) text) :
    compileText (simultaneous m) (compileText m text) = compileText m text := by
  have hshape : RewordedEntries (fun _ _ => True) m (simultaneous m) :=
    rewordedEntries_simultaneous fun _ _ => trivial
  have hstay : ∀ t ∈ tokens text,
      compileText (simultaneous m) (replacement m t) = replacement m t := by
    intro t ht
    have hrel := hshape.lookup? (KeyPath.split t.key)
    cases hv : Mapping.lookup? m (KeyPath.split t.key) with
    | some v =>
      simp only [replacement, hv]
      exact compileText_of_tokens_eq_nil (h text htext t ht v hv)
    | none =>
      -- a token that names nothing is kept, and names nothing in the compiled settings
      obtain ⟨⟨k, hk⟩, -⟩ := mem_tokens_iff_exists.mp ht
      rw [hv] at hrel
      simp only [replacement, hv]
      rw [compileText_eq, substitute_rawText hk, replacement, eq_none_of_rel hrel]
  calc compileText (simultaneous m) (compileText m text)
      = substitute (fun t => compileText (simultaneous m) (replacement m t)) text :=
        hseam.substitute_substitute _
    _ = compileText m text := substitute_congr hstay

/-- **Compiling twice**: if the texts of what tokens refer to have no tokens, a second
pass over the compiled settings changes nothing exactly if each of their strings is what
becomes of it; and so it is if no token is formed where the texts of values are put
in. -/
theorem compile?_again_iff {s : Store} (hmut : s.mutable = true) (hd : DistinctEntries s.settings)
    (hres : TextsResolved s.settings) :
    ∃ once : Store, s.compile? = .ok once ∧
      (once.compile? = .ok once ↔
        ∀ text ∈ entryStrings once.settings, compileText once.settings text = text) ∧
      ((∀ text ∈ entryStrings s.settings, Seamless (replacement s.settings) text) →
        once.compile? = .ok once) := by
  have hcompile : s.compile? = .ok { s with settings := simultaneous s.settings } := by
    rw [compile?, guarded, if_pos hmut, compileAll_eq_simultaneous hd hres.resolved]
  have hreworded : RewordedEntries (fun text text' => text' = compileText s.settings text)
      s.settings (simultaneous s.settings) := rewordedEntries_simultaneous fun _ _ => rfl
  have hagain : ({ s with settings := simultaneous s.settings } : Store).compile? =
      .ok { s with settings := simultaneous s.settings } ↔
        ∀ text ∈ entryStrings (simultaneous s.settings),
          compileText (simultaneous s.settings) text = text := by
    rw [← compileAll_eq_self_iff (hreworded.distinct hd), compile?, guarded, if_pos hmut]
    simp
  refine ⟨_, hcompile, hagain, fun hseam => hagain.mpr fun text' htext' => ?_⟩
  obtain ⟨text, htext, rfl⟩ := hreworded.exists_of_mem htext'
  exact compileText_simultaneous hres htext (hseam text htext)

/-- Settings with references to a string, to a mapping and to nothing. -/
theorem compile?_again_iff_linked :
    let s : Store := ⟨linkedSettings, true⟩
    s.mutable = true ∧ DistinctEntries s.settings ∧ TextsResolved s.settings ∧
      (∀ text ∈ entryStrings s.settings, Seamless (replacement s.settings) text) ∧
      ∃ once : Store, s.compile? = .ok once ∧
        (once.compile? = .ok once ↔
          ∀ text ∈ entryStrings once.settings, compileText once.settings text = text) ∧
        ((∀ text ∈ entryStrings s.settings, Seamless (replacement s.settings) text) →
          once.compile? = .ok once) := by
  intro s
  have hd : DistinctEntries s.settings := by decide
  have hres : TextsResolved s.settings := by decide +kernel
  exact ⟨rfl, hd, hres, by decide +kernel, compile?_again_iff rfl hd hres⟩

/-- The text of a value that is put in and what stands around it make up a token, which
the second pass replaces. -/
theorem not_compile?_again :
    let s : Store :=
      ⟨[("b", .str "c"), ("ac", .str "z"), ("t", .str "\x7b%a\x7b%b%\x7d%\x7d")], true⟩
    s.mutable = true ∧ DistinctEntries s.settings ∧ TextsResolved s.settings ∧
      ∃ once twice : Store, s.compile? = .ok once ∧ once.compile? = .ok twice ∧
        once.get? "t" = some (.str "\x7b%ac%\x7d") ∧ twice.get? "t" = some (.str "z") := by
  intro s
  refine ⟨rfl, by decide, by decide +kernel, { s with settings := compileAll s.settings },
    { s with settings := compileAll (compileAll s.settings) }, rfl, rfl, ?_, ?_⟩
  · decide +kernel
  · decide +kernel

end Store

end PageTree
