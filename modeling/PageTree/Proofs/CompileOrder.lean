/-
Compiling in any order.

Compiling takes the strings one after the other, each against the settings as they
stand then. If what tokens refer to has no tokens of its own, anywhere in it, then it
stays as it is while the strings around it are compiled, and every token is replaced by
what the settings as they were at first say. So the strings might as well be compiled
all at once, and in which order they are taken makes no difference.

* `Store.replacement`, `Store.filled`: what a token becomes under some settings, and a
  text with that between its literal pieces;
* `Store.simultaneous`: some settings with all their strings filled in at once;
* `Value.TokenFree`, `Store.Resolved`: settings in which references are resolved;
* `Store.Stage`: the settings when some of the strings are compiled; `Stage.step` and
  `Stage.run`: one string more, and many of them;
* `Store.compile?_eq_simultaneous`: **compiling** in any order.
-/
import PageTree.Proofs.Places
import PageTree.Proofs.Replacing

namespace PageTree

/-! ### Values without tokens -/

/-- Whether no string in a value has a token. -/
def Value.TokenFree (v : Value) : Prop := ∀ s ∈ v.strings, Placeholder.tokens s = []

instance (v : Value) : Decidable v.TokenFree := List.decidableBAll _ _

namespace Store

open Value Placeholder

variable {m m' : Mapping} {text : String}

/-! ### Strings that are filled in -/

/-- What a token becomes under some settings: the text of the value that it names, or
itself if it names none. -/
def replacement (m : Mapping) (t : Token) : String :=
  match Mapping.lookup? m (KeyPath.split t.key) with
  | some v => v.text
  | none => t.rawText

/-- A text filled in under some settings: its literal pieces with what its tokens become
between them. -/
def filled (m : Mapping) (text : String) : String :=
  weave (literals text) ((scan text).map fun span => replacement m span.token)

/-- Some settings with all their strings filled in at once, under the settings as they
are. -/
def simultaneous (m : Mapping) : Mapping := mapEntries (filled m) m

lemma compileText_eq (m : Mapping) (text : String) :
    compileText m text = substitute (replacement m) text := rfl

/-- Compiling a string fills it in. -/
lemma compileText_eq_filled (m : Mapping) (text : String) : compileText m text = filled m text :=
  substitute_eq_weave (replacement m) text

lemma simultaneous_eq (m : Mapping) : simultaneous m = mapEntries (compileText m) m := by
  rw [simultaneous, funext (compileText_eq_filled m)]

/-- Nothing but strings is filled in. -/
lemma rewordedEntries_simultaneous {R : String → String → Prop}
    (h : ∀ s ∈ entryStrings m, R s (compileText m s)) : RewordedEntries R m (simultaneous m) := by
  rw [simultaneous_eq]
  exact rewordedEntries_mapEntries h

/-- A string is compiled alike under settings that say the same of its tokens. -/
lemma compileText_congr (h : ∀ t ∈ tokens text, replacement m t = replacement m' t) :
    compileText m text = compileText m' text := by
  rw [compileText_eq, compileText_eq, substitute_congr h]

/-- A string without tokens stays. -/
lemma compileText_of_tokens_eq_nil (h : tokens text = []) : compileText m text = text := by
  rw [compileText_eq]
  exact substitute_eq_self fun t ht => by simp [h] at ht

/-- A string without an opening mark has no tokens. -/
lemma tokens_eq_nil_of_hasOpening (h : hasOpening text.toList = false) : tokens text = [] := by
  refine List.eq_nil_iff_forall_not_mem.mpr fun t ht => ?_
  rw [hasOpening_of_mem_pieces (mem_tokens_iff.mp ht)] at h
  exact absurd h (by simp)

/-! ### References that are resolved -/

/-- Whether references are resolved: what the tokens in the strings of some settings
refer to, where it exists, has no tokens in it. -/
def Resolved (m : Mapping) : Prop :=
  ∀ text ∈ entryStrings m, ∀ t ∈ tokens text, ∀ v ∈ Mapping.lookup? m (KeyPath.split t.key),
    v.TokenFree

instance (m : Mapping) : Decidable (Resolved m) :=
  List.decidableBAll _ _

/-! ### Stages of compiling -/

/-- Compiling the string at a place. -/
lemma obj_compileAt {place : List Step} (hs : (Value.obj m).at? place = some (.str text)) :
    Value.obj (compileAt m place) = (Value.obj m).put place (.str (compileText m text)) := by
  have hput : Reworded (fun _ _ => True) (.obj m)
      ((Value.obj m).put place (.str (compileText m text))) :=
    reworded_put (fun _ => trivial) hs trivial
  obtain ⟨after, hafter, -⟩ := hput
  simp only [compileAt, hs, hafter]
  rfl

/-- Where no string stands nothing is compiled, nor where compiling makes no
difference. -/
lemma compileAt_eq_self {place : List Step}
    (h : ∀ s, (Value.obj m).at? place = some (.str s) → compileText m s = s) :
    compileAt m place = m := by
  by_cases hstr : ∃ s, (Value.obj m).at? place = some (.str s)
  · obtain ⟨s, hs⟩ := hstr
    have hput := obj_compileAt hs
    rw [h s hs, put_of_at? hs] at hput
    exact Value.obj.inj hput
  · rw [compileAt]
    split
    · next s hs => exact absurd ⟨s, hs⟩ hstr
    · rfl

lemma at?_compileAt_self {place : List Step} (hs : (Value.obj m).at? place = some (.str text)) :
    (Value.obj (compileAt m place)).at? place = some (.str (compileText m text)) := by
  rw [obj_compileAt hs, at?_put_self hs]

/-- The strings at other places stay. -/
lemma at?_compileAt_of_ne {place other : List Step}
    (hs : (Value.obj m).at? other = some (.str text)) (hne : other ≠ place) :
    (Value.obj (compileAt m place)).at? other = some (.str text) := by
  by_cases hstr : ∃ s, (Value.obj m).at? place = some (.str s)
  · obtain ⟨s, hplace⟩ := hstr
    rw [obj_compileAt hplace]
    exact at?_put_of_ne hplace hs hne _
  · rw [compileAt_eq_self fun s hs => absurd ⟨s, hs⟩ hstr, hs]

/-- What has become of a string on the way: it is as it was, or it is compiled against
the settings as they were at first. -/
def Midway (m : Mapping) (s s' : String) : Prop := s' = s ∨ s' = compileText m s

/-- A value without tokens is as it was. -/
lemma eq_of_midway {v v' : Value} (h : Reworded (Midway m) v v') (hv : v.TokenFree) : v' = v := by
  refine h.eq fun s hs s' hss' => ?_
  rcases hss' with hss' | hss'
  · exact hss'
  · rw [hss', compileText_of_tokens_eq_nil (hv s hs)]

/-- A path says what it said before strings were compiled, if there was no token. -/
lemma lookup?_eq_of_midway {before after : Mapping} (h : RewordedEntries (Midway m) before after)
    {path : List String} (hfree : ∀ v ∈ Mapping.lookup? before path, v.TokenFree) :
    Mapping.lookup? after path = Mapping.lookup? before path :=
  eq_of_rel (h.lookup? path) fun v hv _ hvv' => eq_of_midway hvv' (hfree v hv)

/-- On the way each string is compiled as it would have been at first. -/
lemma compileText_eq_of_midway (hres : Resolved m) (h : RewordedEntries (Midway m) m m')
    (htext : text ∈ entryStrings m) : compileText m' text = compileText m text := by
  refine compileText_congr fun t ht => ?_
  rw [replacement, replacement, lookup?_eq_of_midway h (hres text htext t ht)]

/-- The settings `m` when the strings at some places are compiled against `m` itself,
and the others are as they were. -/
structure Stage (m : Mapping) (done : List (List Step)) (m' : Mapping) : Prop where
  /-- Nothing but strings has changed. -/
  shape : RewordedEntries (fun _ _ => True) m m'
  /-- What stands where strings stood. -/
  at? : ∀ place s, (Value.obj m).at? place = some (.str s) →
    (Value.obj m').at? place = some (.str (if place ∈ done then compileText m s else s))

namespace Stage

variable {done places : List (List Step)} {place : List Step}

lemma start (m : Mapping) : Stage m [] m :=
  ⟨.refl (fun _ => trivial) m, fun place s hs => by rw [if_neg List.not_mem_nil, hs]⟩

/-- Every string is as it was or compiled. -/
lemma midway (h : Stage m done m') (hd : DistinctEntries m) : RewordedEntries (Midway m) m m' := by
  refine h.shape.of_at? hd fun k place s hs => ⟨_, h.at? (.key k :: place) s hs, ?_⟩
  split_ifs
  · exact .inr rfl
  · exact .inl rfl

/-- **One string more** is compiled, if references are resolved. -/
lemma step (h : Stage m done m') (hd : DistinctEntries m) (hres : Resolved m)
    (hnew : place ∉ done) : Stage m (place :: done) (compileAt m' place) := by
  have hshape : RewordedEntries (fun _ _ => True) m' (compileAt m' place) :=
    reworded_compileAt (fun _ => trivial) (fun _ => trivial) place
  refine ⟨h.shape.trans (fun _ _ _ _ _ => trivial) hshape, fun other s hs => ?_⟩
  have hother := h.at? other s hs
  by_cases heq : other = place
  · -- the string is still as it was, and is compiled as it would have been at first
    subst heq
    rw [if_neg hnew] at hother
    rw [at?_compileAt_self hother, if_pos List.mem_cons_self,
      compileText_eq_of_midway hres (h.midway hd) (mem_strings_of_at? hs)]
  · rw [at?_compileAt_of_ne hother heq]
    simp [heq]

/-- **Many strings** are compiled, each of them once. -/
lemma run (hd : DistinctEntries m) (hres : Resolved m) (h : Stage m done m')
    (hplaces : places.Nodup) (hnew : ∀ place ∈ places, place ∉ done) :
    Stage m (places.reverse ++ done) (places.foldl compileAt m') := by
  induction places generalizing done m' with
  | nil => exact h
  | cons place rest ih =>
    rw [List.nodup_cons] at hplaces
    rw [List.forall_mem_cons] at hnew
    have hlater : ∀ other ∈ rest, other ∉ place :: done := by
      intro other hother
      rw [List.mem_cons, not_or]
      exact ⟨fun heq => hplaces.1 (heq ▸ hother), hnew.2 other hother⟩
    have hrest := ih (h.step hd hres hnew.1) hplaces.2 hlater
    rw [List.foldl_cons, List.reverse_cons, List.append_assoc]
    exact hrest

/-- All strings are compiled when all those that may hold a token are. -/
lemma eq_simultaneous (h : Stage m done m') (hd : DistinctEntries m)
    (hall : ∀ place ∈ stringPlaces (.obj m), place ∈ done) : m' = simultaneous m := by
  rw [simultaneous_eq]
  refine (h.shape.of_at? hd (S := fun s s' => s' = compileText m s) ?_).eq_mapEntries
    fun s _ s' hs' => hs'
  intro k place s hs
  have hat : (Value.obj m).at? (.key k :: place) = some (.str s) := hs
  refine ⟨_, h.at? _ s hat, ?_⟩
  cases hopen : hasOpening s.toList with
  | true => rw [if_pos (hall _ (mem_stringPlaces hat hopen))]
  | false => rw [compileText_of_tokens_eq_nil (tokens_eq_nil_of_hasOpening hopen), ite_self]

end Stage

/-! ### Any order -/

/-- The strings of some settings, taken in any order, if references are resolved. -/
lemma foldl_compileAt (hd : DistinctEntries m) (hres : Resolved m) {places : List (List Step)}
    (hperm : places.Perm (stringPlaces (.obj m))) : places.foldl compileAt m = simultaneous m := by
  have hnodup : places.Nodup := hperm.nodup_iff.mpr (nodup_stringPlaces hd)
  have hrun := (Stage.start m).run hd hres hnodup fun _ _ => List.not_mem_nil
  refine hrun.eq_simultaneous hd fun place hplace => ?_
  simpa using hperm.mem_iff.mpr hplace

/-- Compiling, if references are resolved. -/
lemma compileAll_eq_simultaneous (hd : DistinctEntries m) (hres : Resolved m) :
    compileAll m = simultaneous m :=
  foldl_compileAt hd hres (.refl _)

/-- **Compiling** in any order: if references are resolved, a store that may be changed
is compiled to its settings with all their strings filled in at once, each token with
the text of what it names in the settings as they were, or with itself if it names
nothing; and so it would be if the strings were taken in any other order. -/
theorem compile?_eq_simultaneous {s : Store} (hmut : s.mutable = true)
    (hd : DistinctEntries s.settings) (hres : Resolved s.settings) :
    s.compile? = .ok { s with settings := simultaneous s.settings } ∧
      ∀ places : List (List Step), places.Perm (stringPlaces (.obj s.settings)) →
        places.foldl compileAt s.settings = simultaneous s.settings := by
  refine ⟨?_, fun places hperm => foldl_compileAt hd hres hperm⟩
  rw [compile?, guarded, if_pos hmut, compileAll_eq_simultaneous hd hres]

/-- Settings with references to a string, to a mapping and to nothing. -/
def linkedSettings : Mapping :=
  [("title", .arr [.str "\x7b%site.name%\x7d \x7b%site%\x7d", .str "\x7b%missing%\x7d"]),
    ("site", .obj [("name", .str "Acme"), ("year", .num (.integer 2025 (by decide)))]),
    ("foot", .str "\x7b%site.name%\x7d")]

/-- These settings, with the token that names nothing as it was. -/
theorem compile?_eq_simultaneous_linked :
    let s : Store := ⟨linkedSettings, true⟩
    s.mutable = true ∧ DistinctEntries s.settings ∧ Resolved s.settings ∧
      s.compile? = .ok { s with settings := simultaneous s.settings } ∧
      (∀ places : List (List Step), places.Perm (stringPlaces (.obj s.settings)) →
        places.foldl compileAt s.settings = simultaneous s.settings) ∧
      simultaneous s.settings =
        [("title", .arr
            [.str "Acme \x7b\"name\":\"Acme\",\"year\":2025\x7d", .str "\x7b%missing%\x7d"]),
          ("site", .obj [("name", .str "Acme"), ("year", .num (.integer 2025 (by decide)))]),
          ("foot", .str "Acme")] := by
  intro s
  have hd : DistinctEntries s.settings := by decide
  have hres : Resolved s.settings := by decide +kernel
  obtain ⟨hcompile, hperm⟩ := compile?_eq_simultaneous (s := s) rfl hd hres
  exact ⟨rfl, hd, hres, hcompile, hperm, by decide +kernel⟩

end Store

end PageTree
