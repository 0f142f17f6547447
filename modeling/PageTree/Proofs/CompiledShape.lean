/-
The shape of compiled settings.

Compiling changes nothing but the texts of strings. The places of the strings that may
hold a token are collected before the first of them is compiled, and the settings change
while these places are followed; but every step leaves all keys, their order and the
lengths of sequences as they are, so each place still leads to its string when its turn
comes, and to the text that it had at first.

* `Store.KeptWithoutToken`: what may become of a string;
* `Store.compile?_keeps_shape`: **the shape** of compiled settings.
-/
import PageTree.Proofs.Recompiling

namespace PageTree

namespace Store

open Value Placeholder

variable {m : Mapping}

/-- Whether a string is kept if it has no token. -/
def KeptWithoutToken (s s' : String) : Prop := tokens s = [] → s' = s

/-- Strings without tokens are kept at every moment of compiling. -/
lemma kept_foldl_compileAt (places : List (List Step)) :
    RewordedEntries KeptWithoutToken m (places.foldl compileAt m) := by
  refine reworded_foldl_compileAt (fun _ _ => rfl) (fun a b c hab hbc ha => ?_)
    (fun m' _ s => compileText_of_tokens_eq_nil) places
  have hb : b = a := hab ha
  rw [hbc (hb ▸ ha), hb]

/-- The string at a listed place is there, with its first text, when its turn comes. -/
lemma exists_str_at_turn (hd : DistinctEntries m) {done later : List (List Step)}
    {place : List Step} (h : stringPlaces (.obj m) = done ++ place :: later) :
    ∃ text, (Value.obj m).at? place = some (.str text) ∧
      (Value.obj (done.foldl compileAt m)).at? place = some (.str text) := by
  have hmem : place ∈ stringPlaces (.obj m) := by simp [h]
  obtain ⟨text, htext⟩ := exists_str_of_mem_stringPlaces (v := .obj m) hd hmem
  have hnodup := nodup_stringPlaces (v := .obj m) hd
  rw [h, List.nodup_append] at hnodup
  have hnew : place ∉ done := fun hdone => hnodup.2.2 _ hdone _ List.mem_cons_self rfl
  exact ⟨text, htext, at?_foldl_compileAt htext hnew⟩

/-- **The shape** of compiled settings: a store that may be changed is compiled to one that
differs from it in strings alone, all keys and their order, the lengths of sequences and
the other values being the same at every level, and strings without tokens are kept. This
holds at every moment of compiling. So a path exists afterwards exactly if it existed
before, and where a string was listed at the start there is a string when its turn comes,
with the text that it had at the start. -/
theorem compile?_keeps_shape {s : Store} (hmut : s.mutable = true)
    (hd : DistinctEntries s.settings) :
    ∃ s', s.compile? = .ok s' ∧ s'.mutable = true ∧
      RewordedEntries KeptWithoutToken s.settings s'.settings ∧
      (∀ path, s'.has path = s.has path) ∧
      ∀ done place later, stringPlaces (.obj s.settings) = done ++ place :: later →
        RewordedEntries KeptWithoutToken s.settings (done.foldl compileAt s.settings) ∧
        ∃ text, (Value.obj s.settings).at? place = some (.str text) ∧
          (Value.obj (done.foldl compileAt s.settings)).at? place = some (.str text) := by
  have hshape : RewordedEntries KeptWithoutToken s.settings (compileAll s.settings) :=
    kept_foldl_compileAt _
  exact ⟨{ s with settings := compileAll s.settings }, if_pos hmut, hmut, hshape,
    fun path => isSome_of_rel (hshape.lookup? (KeyPath.split path)),
    fun done place later h => ⟨kept_foldl_compileAt done, exists_str_at_turn hd h⟩⟩

/-- Settings in which strings refer to each other, to a sequence that they stand in and to
nothing, under keys that look like paths and indices. -/
def entangledSettings : Mapping :=
  [("0", .arr [.str "\x7b%0%\x7d", .str "plain", .obj [("a.b", .str "\x7b%loop%\x7d")]]),
    ("loop", .str "\x7b%0.2%\x7d and \x7b%missing%\x7d"), ("on", .bool true)]

/-- These settings, when the second of their strings is taken. -/
theorem compile?_keeps_shape_entangled :
    let s : Store := ⟨entangledSettings, true⟩
    s.mutable = true ∧ DistinctEntries s.settings ∧
    ∃ s', s.compile? = .ok s' ∧ s'.mutable = true ∧
      RewordedEntries KeptWithoutToken s.settings s'.settings ∧
      (∀ path, s'.has path = s.has path) ∧
      RewordedEntries KeptWithoutToken s.settings
        ([[.key "0", .index 0]].foldl compileAt s.settings) ∧
      ∃ text, (Value.obj s.settings).at? [.key "0", .index 2, .key "a.b"] = some (.str text) ∧
        (Value.obj ([[.key "0", .index 0]].foldl compileAt s.settings)).at?
          [.key "0", .index 2, .key "a.b"] = some (.str text) := by
  intro s
  have hd : DistinctEntries s.settings := by decide
  have hplaces : stringPlaces (.obj s.settings) =
      [[.key "0", .index 0]] ++ [.key "0", .index 2, .key "a.b"] :: [[.key "loop"]] := by
    decide +kernel
  obtain ⟨s', hcompile, hmut, hshape, hhas, hturn⟩ := compile?_keeps_shape (s := s) rfl hd
  exact ⟨rfl, hd, s', hcompile, hmut, hshape, hhas, hturn _ _ _ hplaces⟩

end Store

end PageTree
