/-
Independent seeds.

Two mappings that have no leaf in common, nor one below a leaf of the other, may be
loaded one after the other in either order, if what their tokens refer to are plain
texts. Each load compiles all settings, so a token of the first mapping is replaced at
once if the value is there already, and by the second load if it is not. Either way it
becomes what the merged mappings say, since compiling the first mapping neither touches
a value that is referred to nor makes or breaks a token.

* `Value.leafPaths`, `Mapping.Independent`: mappings without common leaves;
* `Mapping.Independent.alike_merge`: such mappings merged in either order;
* `Mapping.Independent.exists_lookup?_merge`: what they say after they are merged;
* `Store.PlainlyLinked`: tokens that refer to plain texts;
* `Store.Early`, `Store.Early.compileAll_eq`: strings that are compiled before another
  mapping is merged in;
* `Store.compileAll_merge_compileAll`: a compiled mapping with another one merged in;
* `Store.load?_comm`: **independent seeds** loaded in either order.
-/
import PageTree.Proofs.CompileOrder
import PageTree.Proofs.KeyOrder
import PageTree.Proofs.Merging

namespace PageTree

/-! ### Leaves -/

namespace Value

mutual

/-- The paths of the leaves of a value. All but mappings with entries are leaves. -/
def leafPaths : Value → List (List String)
  | .obj entries => if entries.isEmpty then [[]] else entryLeafPaths entries
  | .null | .bool _ | .num _ | .str _ | .arr _ => [[]]

/-- The paths of the leaves in the values of a mapping. -/
def entryLeafPaths : List (String × Value) → List (List String)
  | [] => []
  | (k, v) :: rest => (leafPaths v).map (k :: ·) ++ entryLeafPaths rest

end

variable {v : Value} {m : Mapping} {path : List String}

lemma mem_entryLeafPaths :
    path ∈ entryLeafPaths m ↔ ∃ e ∈ m, ∃ rest ∈ e.2.leafPaths, path = e.1 :: rest := by
  induction m with
  | nil => simp [entryLeafPaths]
  | cons e rest ih => simp [entryLeafPaths, ih, eq_comm]

/-- Every value has a leaf. -/
lemma exists_mem_leafPaths (v : Value) : ∃ path, path ∈ v.leafPaths := by
  induction v using Value.ind with
  | null | bool _ | num _ | str _ | arr _ _ => exact ⟨[], List.mem_singleton_self _⟩
  | obj m ih =>
    rw [leafPaths]
    cases m with
    | nil => exact ⟨[], List.mem_singleton_self _⟩
    | cons e rest =>
      obtain ⟨path, hpath⟩ := ih e List.mem_cons_self
      exact ⟨e.1 :: path, mem_entryLeafPaths.mpr ⟨e, List.mem_cons_self, path, hpath, rfl⟩⟩

/-- A value is a leaf or a mapping with entries. -/
lemma nil_mem_leafPaths_or (v : Value) :
    [] ∈ v.leafPaths ∨ ∃ m, v = .obj m ∧ v.leafPaths = entryLeafPaths m := by
  cases v with
  | obj m =>
    cases m with
    | nil => exact .inl (List.mem_singleton_self _)
    | cons e rest => exact .inr ⟨_, rfl, rfl⟩
  | null | bool _ | num _ | str _ | arr _ => exact .inl (List.mem_singleton_self _)

end Value

/-! ### Independent mappings -/

namespace Mapping

open Value

/-- Whether no leaf path of one mapping equals, extends or is extended by one of the
other. -/
def Independent (m n : Mapping) : Prop :=
  ∀ p ∈ entryLeafPaths m, ∀ q ∈ entryLeafPaths n, ¬ p <+: q ∧ ¬ q <+: p

instance (m n : Mapping) : Decidable (Independent m n) := List.decidableBAll _ _

variable {m n : Mapping}

lemma Independent.symm (h : Independent m n) : Independent n m :=
  fun q hq p hp => (h p hp q hq).symm

/-- A key of both mappings has mappings for values, and these are independent. -/
lemma Independent.exists_of_find? (h : Independent m n) {key : String} {v w : Value}
    (hv : find? m key = some v) (hw : find? n key = some w) :
    ∃ mv nw, v = .obj mv ∧ w = .obj nw ∧ Independent mv nw := by
  have hleaves : ∀ p ∈ v.leafPaths, ∀ q ∈ w.leafPaths, ¬ p <+: q ∧ ¬ q <+: p := by
    intro p hp q hq
    have hkey := h (key :: p) (mem_entryLeafPaths.mpr ⟨_, mem_of_find? hv, p, hp, rfl⟩)
      (key :: q) (mem_entryLeafPaths.mpr ⟨_, mem_of_find? hw, q, hq, rfl⟩)
    rwa [List.prefix_cons_inj, List.prefix_cons_inj] at hkey
  -- a leaf would be above every leaf of the other value
  obtain ⟨p, hp⟩ := exists_mem_leafPaths v
  obtain ⟨q, hq⟩ := exists_mem_leafPaths w
  rcases nil_mem_leafPaths_or v with hleaf | ⟨mv, rfl, hmv⟩
  · exact absurd List.nil_prefix (hleaves [] hleaf q hq).1
  rcases nil_mem_leafPaths_or w with hleaf | ⟨nw, rfl, hnw⟩
  · exact absurd List.nil_prefix (hleaves p hp [] hleaf).2
  rw [hmv, hnw] at hleaves
  exact ⟨mv, nw, rfl, rfl, hleaves⟩

/-- **Independent mappings** are merged in either order, up to the order of keys. -/
theorem Independent.alike_merge (h : Independent m n) (hm : DistinctEntries m)
    (hn : DistinctEntries n) : Alike (.obj (merge m n)) (.obj (merge n m)) := by
  induction hobj : Value.obj m using Value.ind generalizing m n with
  | null | bool _ | num _ | str _ | arr _ _ => cases hobj
  | obj entries ih =>
    obtain rfl := Value.obj.inj hobj
    refine alike_of_find? (DistinctEntries.mergeEntries hn hm).nodup
      (DistinctEntries.mergeEntries hm hn).nodup fun key => ?_
    rw [merge, merge, find?_mergeEntries hn.nodup, find?_mergeEntries hm.nodup]
    cases hv : find? m key with
    | none =>
      cases hw : find? n key with
      | none => exact .none
      | some w =>
        simp only [overlay_none]
        exact .some (.refl (hn.of_find? hw))
    | some v =>
      cases hw : find? n key with
      | none =>
        simp only [overlay_none]
        exact .some (.refl (hm.of_find? hv))
      | some w =>
        obtain ⟨mv, nw, rfl, rfl, hvw⟩ := h.exists_of_find? hv hw
        exact .some (ih _ (mem_of_find? hv) hvw (hm.of_find? hv) (hn.of_find? hw) rfl)

/-- What a mapping says along a path is there after an independent one is laid over it,
unless it has become part of a mapping. -/
lemma Independent.exists_lookup?_merge (h : Independent m n) (hn : DistinctEntries n)
    {path : List String} {v : Value} (hv : lookup? m path = some v) :
    ∃ w, lookup? (merge m n) path = some w ∧ (w.isScalar = true → w = v) := by
  induction path generalizing m n with
  | nil => cases hv
  | cons component rest ih =>
    rw [lookup?] at hv
    obtain ⟨u, hu, hv⟩ := Option.bind_eq_some_iff.mp hv
    rw [lookup?, merge, find?_mergeEntries hn.nodup, hu]
    cases hx : find? n component with
    | none => exact ⟨v, hv, fun _ => rfl⟩
    | some x =>
      obtain ⟨mu, nx, rfl, rfl, hux⟩ := h.exists_of_find? hu hx
      cases rest with
      | nil => exact ⟨.obj (merge mu nx), rfl, fun hscalar => by cases hscalar⟩
      | cons next rest => exact ih hux (hn.of_find? hx) hv

end Mapping

namespace Store

open Value Placeholder

variable {texts : List String} {text : String} {t : Token} {m n m' : Mapping}

/-! ### Tokens that refer to plain texts -/

/-- Whether in some texts every opening mark starts a token, and every token that names
a value of some settings names a scalar with an inert text. -/
structure PlainlyLinked (texts : List String) (m : Mapping) : Prop where
  opened : ∀ text ∈ texts, WellOpened text.toList
  inert : ∀ text ∈ texts, ∀ t ∈ tokens text, ∀ v ∈ Mapping.lookup? m (KeyPath.split t.key),
    v.isScalar = true ∧ Inert v.text

instance (texts : List String) (m : Mapping) : Decidable (PlainlyLinked texts m) :=
  decidable_of_iff
    ((∀ text ∈ texts, WellOpened text.toList) ∧
      ∀ text ∈ texts, ∀ t ∈ tokens text, ∀ v ∈ Mapping.lookup? m (KeyPath.split t.key),
        v.isScalar = true ∧ Inert v.text)
    ⟨fun h => ⟨h.1, h.2⟩, fun h => ⟨h.opened, h.inert⟩⟩

/-- A scalar with an inert text has no tokens. -/
lemma tokenFree_of_inert {v : Value} (hv : v.isScalar = true) (h : Inert v.text) :
    v.TokenFree := by
  intro s hs
  cases v with
  | null | arr _ | obj _ => cases hv
  | bool _ | num _ => exact absurd hs List.not_mem_nil
  | str text =>
    rw [List.mem_singleton.mp hs]
    exact h.tokens_eq_nil

namespace PlainlyLinked

lemma tokenFree (h : PlainlyLinked texts m) (htext : text ∈ texts) (ht : t ∈ tokens text)
    {v : Value} (hv : v ∈ Mapping.lookup? m (KeyPath.split t.key)) : v.TokenFree :=
  tokenFree_of_inert (h.inert text htext t ht v hv).1 (h.inert text htext t ht v hv).2

lemma resolved (h : PlainlyLinked texts m) (htexts : ∀ s ∈ entryStrings m, s ∈ texts) :
    Resolved m :=
  fun s hs _ ht _ hv => h.tokenFree (htexts s hs) ht hv

/-- A token stays or becomes an inert text. -/
lemma replacement_or (h : PlainlyLinked texts m) (htext : text ∈ texts) (ht : t ∈ tokens text) :
    replacement m t = t.rawText ∨ Inert (replacement m t) := by
  rw [replacement]
  cases hv : Mapping.lookup? m (KeyPath.split t.key) with
  | none => exact .inl rfl
  | some v => exact .inr (h.inert text htext t ht v hv).2

lemma seamless (h : PlainlyLinked texts m) (htext : text ∈ texts) :
    Seamless (replacement m) text :=
  seamless_of_wellOpened (h.opened text htext) fun _ ht => h.replacement_or htext ht

/-- Compiling brings in no tokens. -/
lemma mem_tokens_of_mem_compileText (h : PlainlyLinked texts m) (htext : text ∈ texts)
    (ht : t ∈ tokens (compileText m text)) : t ∈ tokens text := by
  obtain ⟨u, hu, ht⟩ := (h.seamless htext).mem_tokens_iff.mp ht
  rcases h.replacement_or htext hu with hkept | hinert
  · obtain ⟨⟨k, hk⟩, -⟩ := mem_tokens_iff_exists.mp hu
    rw [hkept, mem_tokens_rawText_iff hk] at ht
    exact ht ▸ hu
  · rw [hinert.tokens_eq_nil] at ht
    exact absurd ht List.not_mem_nil

/-- Tokens refer to the same scalars if keys are in another order. -/
lemma of_alike (h : PlainlyLinked texts m) (hm' : Alike (.obj m) (.obj m')) :
    PlainlyLinked texts m' := by
  refine ⟨h.opened, fun text htext t ht v hv => ?_⟩
  rw [hm'.lookup?_eq fun v hv => (h.inert text htext t ht v hv).1] at hv
  exact h.inert text htext t ht v hv

/-- Tokens refer to the same scalars before another mapping is laid over the settings,
or to nothing. -/
lemma of_merge (h : PlainlyLinked texts (Mapping.merge m n)) (hind : Mapping.Independent m n)
    (hn : DistinctEntries n) : PlainlyLinked texts m := by
  refine ⟨h.opened, fun text htext t ht v hv => ?_⟩
  obtain ⟨w, hw, hsame⟩ := hind.exists_lookup?_merge hn hv
  have hscalar := h.inert text htext t ht w hw
  rw [← hsame hscalar.1]
  exact hscalar

end PlainlyLinked

/-! ### A mapping compiled before another one is merged in -/

/-- Two ways to settings that a first mapping is part of: as it is, or compiled before
the rest is there. -/
structure Early (texts : List String) (m merged early : Mapping) : Prop where
  strings : ∀ s ∈ entryStrings merged, s ∈ texts
  linked : PlainlyLinked texts merged
  linked_first : PlainlyLinked texts m
  /-- What the first mapping says is there after the merge, unless it has become part
  of a mapping. -/
  lookup? : ∀ path v, Mapping.lookup? m path = some v →
    ∃ w, Mapping.lookup? merged path = some w ∧ (w.isScalar = true → w = v)
  /-- Nothing but strings is compiled. -/
  midway : RewordedEntries (Midway m) merged early

namespace Early

variable {merged early : Mapping}

/-- What tokens refer to is not touched when the first mapping is compiled. -/
lemma lookup?_eq (h : Early texts m merged early) (htext : text ∈ texts) (ht : t ∈ tokens text) :
    Mapping.lookup? early (KeyPath.split t.key) = Mapping.lookup? merged (KeyPath.split t.key) :=
  lookup?_eq_of_midway h.midway fun _ hv => h.linked.tokenFree htext ht hv

/-- A string that is not compiled before becomes what it would have become. -/
lemma compileText_eq (h : Early texts m merged early) (htext : text ∈ texts) :
    compileText early text = compileText merged text := by
  refine compileText_congr fun t ht => ?_
  rw [replacement, replacement, h.lookup?_eq htext ht]

/-- So does one that is. -/
lemma compileText_compileText (h : Early texts m merged early) (htext : text ∈ texts) :
    compileText early (compileText m text) = compileText merged text := by
  have htokens : ∀ t ∈ tokens text,
      compileText early (replacement m t) = replacement merged t := by
    intro t ht
    cases hv : Mapping.lookup? m (KeyPath.split t.key) with
    | some v =>
      -- the token is replaced before, by the text that the merged mappings say
      obtain ⟨w, hw, hsame⟩ := h.lookup? _ v hv
      obtain ⟨hscalar, hinert⟩ := h.linked.inert text htext t ht w hw
      obtain rfl := hsame hscalar
      rw [replacement, replacement, hv, hw]
      exact compileText_of_tokens_eq_nil hinert.tokens_eq_nil
    | none =>
      -- the token is kept, and replaced when all is compiled
      obtain ⟨⟨k, hk⟩, -⟩ := mem_tokens_iff_exists.mp ht
      have hkept : replacement m t = t.rawText := by rw [replacement, hv]
      rw [hkept, Store.compileText_eq, substitute_rawText hk, replacement, replacement,
        h.lookup?_eq htext ht]
  calc compileText early (compileText m text)
      = substitute (fun t => compileText early (replacement m t)) text :=
        (h.linked_first.seamless htext).substitute_substitute _
    _ = compileText merged text := substitute_congr htokens

/-- References are resolved in the settings that were compiled in part. -/
lemma resolved (h : Early texts m merged early) : Resolved early := by
  intro s' hs' t ht v hv
  obtain ⟨s, hs, hss'⟩ := h.midway.exists_of_mem hs'
  have htext : s ∈ texts := h.strings s hs
  have hmem : t ∈ tokens s := by
    rcases hss' with rfl | rfl
    · exact ht
    · exact h.linked_first.mem_tokens_of_mem_compileText htext ht
  rw [h.lookup?_eq htext hmem] at hv
  exact h.linked.tokenFree htext hmem hv

/-- **Both ways** lead to the same settings. -/
theorem compileAll_eq (h : Early texts m merged early) (hd : DistinctEntries early) :
    compileAll early = simultaneous merged := by
  rw [compileAll_eq_simultaneous hd h.resolved, simultaneous_eq, simultaneous_eq]
  refine h.midway.mapEntries_eq fun s hs s' hss' => ?_
  rcases hss' with rfl | rfl
  · exact h.compileText_eq (h.strings s' hs)
  · exact h.compileText_compileText (h.strings s hs)

end Early

/-- **A compiled mapping with another one merged in**, compiled again: all strings of
both mappings are compiled against both. -/
theorem compileAll_merge_compileAll (hm : DistinctEntries m) (hn : DistinctEntries n)
    (hind : Mapping.Independent m n) (hmt : ∀ s ∈ entryStrings m, s ∈ texts)
    (hnt : ∀ s ∈ entryStrings n, s ∈ texts) (h : PlainlyLinked texts (Mapping.merge m n)) :
    compileAll (Mapping.merge (compileAll m) n) = simultaneous (Mapping.merge m n) := by
  have hfirst : PlainlyLinked texts m := h.of_merge hind hn
  have hcompiled : compileAll m = simultaneous m :=
    compileAll_eq_simultaneous hm (hfirst.resolved hmt)
  have hmidway : RewordedEntries (Midway m) m (simultaneous m) :=
    rewordedEntries_simultaneous fun _ _ => .inr rfl
  have hearly : Early texts m (Mapping.merge m n) (Mapping.merge (simultaneous m) n) :=
    { strings := forall_strings_mergeEntries hnt hmt
      linked := h
      linked_first := hfirst
      lookup? := fun _ _ => hind.exists_lookup?_merge hn
      midway := (RewordedEntries.refl (fun _ => .inl rfl) n).mergeEntries hmidway }
  rw [hcompiled]
  exact hearly.compileAll_eq (hn.mergeEntries (hmidway.distinct hm))

/-! ### Either order -/

/-- Strings are compiled alike under alike settings. -/
lemma alike_simultaneous (h : PlainlyLinked texts m) (htexts : ∀ s ∈ entryStrings m, s ∈ texts)
    (hm' : Alike (.obj m) (.obj m')) : Alike (.obj (simultaneous m)) (.obj (simultaneous m')) := by
  rw [simultaneous_eq, simultaneous_eq]
  refine hm'.mapStrings fun s hs => compileText_congr fun t ht => ?_
  rw [replacement, replacement, hm'.lookup?_eq fun v hv => (h.inert s (htexts s hs) t ht v hv).1]

/-- Two mappings loaded into the empty store one after the other. -/
lemma load?_load?_empty {A : Mapping} (hA : DistinctEntries A) (B : Mapping) :
    (empty.load? A).bind (·.load? B) =
      .ok ⟨compileAll (Mapping.merge (compileAll (Mapping.expand A)) (Mapping.expand B)),
        true⟩ := by
  have hfirst : Mapping.merge [] (Mapping.expand A) = Mapping.expand A :=
    Mapping.merge_nil hA.expand.nodup
  calc (empty.load? A).bind (·.load? B)
      = .ok ⟨compileAll (Mapping.merge (compileAll (Mapping.merge [] (Mapping.expand A)))
          (Mapping.expand B)), true⟩ := rfl
    _ = _ := by rw [hfirst]

/-- **Independent seeds**: two mappings without common leaves are loaded into the empty
store one after the other, in either order, to settings that differ in the order of keys
alone, if in their strings every opening mark starts a token, and what tokens refer to
in the merged mappings is a scalar whose text is not empty and has no braces and percent
signs. -/
theorem load?_comm {A B : Mapping} (hA : DistinctEntries A) (hB : DistinctEntries B)
    (hind : Mapping.Independent (Mapping.expand A) (Mapping.expand B))
    (hlinks : PlainlyLinked (entryStrings A ++ entryStrings B)
      (Mapping.merge (Mapping.expand A) (Mapping.expand B))) :
    ∃ ab ba : Store, (empty.load? A).bind (·.load? B) = .ok ab ∧
      (empty.load? B).bind (·.load? A) = .ok ba ∧
      Alike (.obj ab.settings) (.obj ba.settings) ∧
      same (.obj ab.settings) (.obj ba.settings) = true := by
  have hAt : ∀ s ∈ entryStrings (Mapping.expand A), s ∈ entryStrings A ++ entryStrings B :=
    forall_strings_expand fun _ hs => List.mem_append_left _ hs
  have hBt : ∀ s ∈ entryStrings (Mapping.expand B), s ∈ entryStrings A ++ entryStrings B :=
    forall_strings_expand fun _ hs => List.mem_append_right _ hs
  have hmerged := hind.alike_merge hA.expand hB.expand
  have hab := compileAll_merge_compileAll hA.expand hB.expand hind hAt hBt hlinks
  have hba := compileAll_merge_compileAll hB.expand hA.expand hind.symm hBt hAt
    (hlinks.of_alike hmerged)
  have halike : Alike (.obj (simultaneous (Mapping.merge (Mapping.expand A) (Mapping.expand B))))
      (.obj (simultaneous (Mapping.merge (Mapping.expand B) (Mapping.expand A)))) :=
    alike_simultaneous hlinks (forall_strings_mergeEntries hBt hAt) hmerged
  refine ⟨⟨simultaneous _, true⟩, ⟨simultaneous _, true⟩, ?_, ?_, halike, halike.same⟩
  · rw [load?_load?_empty hA, hab]
  · rw [load?_load?_empty hB, hba]

/-- Two seeds, one with paths for keys, that refer to each other. -/
theorem load?_comm_site :
    let A : Mapping :=
      [("site.name", .str "Acme"), ("title", .str "\x7b%site.name%\x7d \x7b%year%\x7d"),
        ("menu", .arr [.str "\x7b%missing%\x7d"])]
    let B : Mapping :=
      [("year", .num (.integer 2025 (by decide))), ("site.foot", .str "\x7b%site.name%\x7d")]
    DistinctEntries A ∧ DistinctEntries B ∧
      Mapping.Independent (Mapping.expand A) (Mapping.expand B) ∧
      PlainlyLinked (entryStrings A ++ entryStrings B)
        (Mapping.merge (Mapping.expand A) (Mapping.expand B)) ∧
      ∃ ab ba : Store, (empty.load? A).bind (·.load? B) = .ok ab ∧
        (empty.load? B).bind (·.load? A) = .ok ba ∧
        Alike (.obj ab.settings) (.obj ba.settings) ∧
        same (.obj ab.settings) (.obj ba.settings) = true := by
  intro A B
  have hA : DistinctEntries A := by decide
  have hB : DistinctEntries B := by decide
  have hind : Mapping.Independent (Mapping.expand A) (Mapping.expand B) := by decide +kernel
  have hlinks : PlainlyLinked (entryStrings A ++ entryStrings B)
      (Mapping.merge (Mapping.expand A) (Mapping.expand B)) := by decide +kernel
  exact ⟨hA, hB, hind, hlinks, load?_comm hA hB hind hlinks⟩

end Store

end PageTree
