/-
Passes over the dates of linked data.

A pass goes from the top down: an item or an entry that stands for a date is converted where
it can be, and looked into otherwise. What has been converted stays so, and what a pass has
looked into is no date afterwards, with one exception: where the value in a wrapper is itself
a wrapped date, the outer one cannot be read, the inner one is converted to a text, and with
this text the outer one can be read. So another pass is needed for every wrapper around a
wrapped date.

* `Value.Below`: the items and entries below a value, with their keys;
* `LinkedData.converted`: what an item or an entry becomes in a pass;
* `LinkedData.normalize_eq_self_iff`: the values that a pass leaves alone;
* `LinkedData.below_normalize_iff`: what is below a value after a pass;
* `LinkedData.normalize_normalize_iff`: **a second pass**;
* `LinkedData.not_normalize_normalize`: a value with two passes.
-/
import PageTree.Proofs.DateTexts
import PageTree.Proofs.DistinctKeys

namespace PageTree

/-! ### Entries and items -/

/-- Whether a value is an item of a sequence, or an entry of a mapping under some key. -/
inductive Value.Child : Value → Option String → Value → Prop
  | entry {m : Mapping} {e : String × Value} (h : e ∈ m) : Child (.obj m) (some e.1) e.2
  | item {items : List Value} {v : Value} (h : v ∈ items) : Child (.arr items) none v

/-- Whether a value is an item or an entry somewhere below another one. -/
inductive Value.Below : Value → Option String → Value → Prop
  | child {v w : Value} {key : Option String} (h : Child v key w) : Below v key w
  | deeper {v u w : Value} {key key' : Option String} (h : Child v key u) (hw : Below u key' w) :
    Below v key' w

/-- Induction over values: a property holds of every value if it is inherited from items and
entries. -/
@[elab_as_elim]
theorem Value.child_induction {P : Value → Prop}
    (h : ∀ v, (∀ key w, Child v key w → P w) → P v) (v : Value) : P v := by
  induction v using Value.ind with
  | null | bool _ | num _ | str _ => exact h _ fun _ _ hw => by cases hw
  | arr items ih =>
    refine h _ fun _ w hw => ?_
    cases hw with
    | item hw => exact ih w hw
  | obj m ih =>
    refine h _ fun _ w hw => ?_
    cases hw with
    | entry he => exact ih _ he

namespace LinkedData

open Value

variable {v w u : Value} {m : Mapping} {key : Option String} {s text : String}

/-! ### One item or entry -/

/-- Whether an item or an entry stands for a date: its key names one, or it is a wrapped
date. -/
def IsDateLike (key : Option String) (v : Value) : Prop :=
  key.any isDateKey = true ∨ isWrapped v = true

instance (key : Option String) (v : Value) : Decidable (IsDateLike key v) :=
  inferInstanceAs (Decidable (_ ∨ _))

/-- The text that an item or an entry is converted to. -/
def convertedText? (key : Option String) (v : Value) : Option String :=
  if IsDateLike key v then dateText? v else none

/-- What an item or an entry becomes. -/
def converted (key : Option String) (v : Value) : Value :=
  match convertedText? key v with
  | some text => .str text
  | none => normalize v

lemma converted_of_some (h : convertedText? key v = some text) : converted key v = .str text := by
  rw [converted, h]

lemma converted_of_none (h : convertedText? key v = none) : converted key v = normalize v := by
  rw [converted, h]

lemma normalizeEntries_eq_map (m : Mapping) :
    normalizeEntries m = m.map fun e => (e.1, converted (some e.1) e.2) := by
  induction m with
  | nil => rfl
  | cons e rest ih =>
    obtain ⟨k, v⟩ := e
    have htext : convertedText? (some k) v =
        if isDateKey k || isWrapped v then dateText? v else none := by
      rw [convertedText?]
      exact if_congr (by simp [IsDateLike]) rfl rfl
    rw [normalizeEntries, ← htext, List.map_cons, ih]
    cases h : convertedText? (some k) v with
    | none => rw [converted_of_none h]
    | some text => rw [converted_of_some h]

lemma normalizeItems_eq_map (items : List Value) :
    normalizeItems items = items.map (converted none) := by
  induction items with
  | nil => rfl
  | cons v rest ih =>
    have htext : convertedText? none v = if isWrapped v then dateText? v else none := by
      rw [convertedText?]
      exact if_congr (by simp [IsDateLike]) rfl rfl
    rw [normalizeItems, ← htext, List.map_cons, ih]
    cases h : convertedText? none v with
    | none => rw [converted_of_none h]
    | some text => rw [converted_of_some h]

/-- The value of a key after a pass. -/
lemma find?_normalizeEntries (m : Mapping) (k : String) :
    Mapping.find? (normalizeEntries m) k = (Mapping.find? m k).map (converted (some k)) := by
  induction m with
  | nil => rfl
  | cons e rest ih =>
    obtain ⟨k', v⟩ := e
    rw [normalizeEntries_eq_map] at ih ⊢
    rw [List.map_cons, Mapping.find?, Mapping.find?]
    split_ifs with hk
    · rw [hk, Option.map_some]
    · exact ih

/-- The items and entries after a pass are what those before it have become. -/
lemma child_normalize_iff :
    Child (normalize v) key w ↔ ∃ u, Child v key u ∧ w = converted key u := by
  constructor
  · intro h
    cases v with
    | obj m =>
      rw [normalize, normalizeEntries_eq_map] at h
      cases h with
      | entry h =>
        obtain ⟨e, he, rfl⟩ := List.mem_map.mp h
        exact ⟨e.2, .entry he, rfl⟩
    | arr items =>
      rw [normalize, normalizeItems_eq_map] at h
      cases h with
      | item h =>
        obtain ⟨u, hu, rfl⟩ := List.mem_map.mp h
        exact ⟨u, .item hu, rfl⟩
    | _ => cases h
  · rintro ⟨u, h, rfl⟩
    cases h with
    | @entry m e he =>
      rw [normalize, normalizeEntries_eq_map]
      exact .entry (e := (e.1, converted (some e.1) e.2)) (List.mem_map_of_mem he)
    | @item items u hu =>
      rw [normalize, normalizeItems_eq_map]
      exact .item (List.mem_map_of_mem hu)

/-! ### Values that stay -/

/-- Whether nothing below a value would be converted to another value. -/
def Settled (v : Value) : Prop :=
  ∀ key w text, Below v key w → convertedText? key w = some text → w = .str text

lemma normalize_eq_self_iff_child :
    normalize v = v ↔ ∀ key w, Child v key w → converted key w = w := by
  cases v with
  | obj m =>
    rw [normalize, normalizeEntries_eq_map, Value.obj.injEq]
    nth_rewrite 2 [← List.map_id m]
    rw [List.map_inj_left]
    constructor
    · intro h key w hw
      cases hw with
      | entry he => exact congrArg Prod.snd (h _ he)
    · intro h e he
      exact Prod.ext rfl (h _ _ (.entry he))
  | arr items =>
    rw [normalize, normalizeItems_eq_map, Value.arr.injEq]
    nth_rewrite 2 [← List.map_id items]
    rw [List.map_inj_left]
    constructor
    · intro h key w hw
      cases hw with
      | item hw => exact h _ hw
    · exact fun h u hu => h _ _ (.item hu)
  | _ => exact iff_of_true rfl fun key w hw => by cases hw

lemma Settled.of_child (h : Settled v) (hw : Child v key w) : Settled w :=
  fun _ _ _ hu => h _ _ _ (.deeper hw hu)

/-- Nothing is below a text. -/
lemma not_below_str : ¬ Below (.str s) key w := by
  intro h
  cases h with
  | child h => cases h
  | deeper h _ => cases h

/-- A pass changes nothing if and only if nothing below the value would be converted to another
value. -/
theorem normalize_eq_self_iff : normalize v = v ↔ Settled v := by
  constructor
  · intro hv key w text hw htext
    induction hw with
    | child h =>
      have hstay := normalize_eq_self_iff_child.mp hv _ _ h
      rw [converted_of_some htext] at hstay
      exact hstay.symm
    | @deeper v u w key key' h hw ih =>
      have hstay := normalize_eq_self_iff_child.mp hv _ _ h
      cases hu : convertedText? key u with
      | none => exact ih ((converted_of_none hu).symm.trans hstay) htext
      | some s =>
        -- a text that was converted to has nothing below it
        rw [converted_of_some hu] at hstay
        exact absurd (hstay ▸ hw) not_below_str
  · induction v using Value.child_induction with
    | h v ih =>
      intro h
      refine normalize_eq_self_iff_child.mpr fun key w hw => ?_
      cases htext : convertedText? key w with
      | none => rw [converted_of_none htext, ih key w hw (h.of_child hw)]
      | some text => rw [converted_of_some htext, h key w text (.child hw) htext]

/-! ### What a pass comes to -/

/-- Whether a pass comes to an item or an entry below a value: nothing above it is
converted. -/
inductive Visited : Value → Option String → Value → Prop
  | child {v w : Value} {key : Option String} (h : Child v key w) : Visited v key w
  | deeper {v u w : Value} {key key' : Option String} (h : Child v key u)
    (hnone : convertedText? key u = none) (hw : Visited u key' w) : Visited v key' w

/-- What is below a value after a pass is what the items and entries have become to which the
pass came. -/
lemma below_normalize_iff :
    Below (normalize v) key w ↔ ∃ u, Visited v key u ∧ w = converted key u := by
  constructor
  · intro h
    generalize hv : normalize v = v' at h
    induction h generalizing v with
    | child h =>
      obtain ⟨u, hu, rfl⟩ := child_normalize_iff.mp (hv ▸ h)
      exact ⟨u, .child hu, rfl⟩
    | deeper h hw ih =>
      obtain ⟨u, hu, rfl⟩ := child_normalize_iff.mp (hv ▸ h)
      cases htext : convertedText? _ u with
      | none =>
        obtain ⟨x, hx, hw⟩ := ih (converted_of_none htext).symm
        exact ⟨x, .deeper hu htext hx, hw⟩
      | some text =>
        rw [converted_of_some htext] at hw
        exact absurd hw not_below_str
  · rintro ⟨u, hu, rfl⟩
    induction hu with
    | child h => exact .child (child_normalize_iff.mpr ⟨_, h, rfl⟩)
    | deeper h hnone hw ih =>
      exact .deeper (child_normalize_iff.mpr ⟨_, h, rfl⟩) (converted_of_none hnone ▸ ih)

/-! ### Wrapped dates in wrapped dates -/

/-- Whether the value under the key of wrapped dates is itself a wrapped date, in one of the
years 0 to 9999. -/
def IsDoubled (v : Value) : Prop :=
  ∃ w t, v.member? wrapperKey = some w ∧ isWrapped w = true ∧ instant? w = some t ∧
    t.HasFourDigitYear

/-- No text of a point in time writes a whole number. -/
lemma signed?_text (t : Instant) : signed? t.text = none := by
  have hzone : 'Z' ∈ t.text.toList := by
    rw [Instant.text, String.toList_ofList, Instant.chars]
    exact List.mem_append_right _ List.mem_cons_self
  have hnone : ∀ ds : List Char, 'Z' ∈ ds → Digits.numberIn? 10 ds = none := fun ds hds =>
    if_neg fun h => absurd (List.all_eq_true.mp h.2 _ hds) (by decide)
  rw [signed?]
  dsimp only
  split
  · next ds hds =>
    rw [hds] at hzone
    rw [hnone ds (by simpa using hzone)]
    rfl
  · next ds hds =>
    rw [hds] at hzone
    rw [hnone ds (by simpa using hzone)]
    rfl
  · rw [hnone _ hzone]
    rfl

lemma isWrapped_iff : isWrapped v = true ↔ ∃ w, v = .obj [(wrapperKey, w)] := by
  constructor
  · intro h
    rw [isWrapped.eq_def] at h
    split at h
    · next k w =>
      exact ⟨w, by rw [of_decide_eq_true h]⟩
    · cases h
  · rintro ⟨w, rfl⟩
    exact decide_eq_true (rfl : wrapperKey = wrapperKey)

/-- A pass keeps wrappers. -/
lemma isWrapped_normalize (v : Value) : isWrapped (normalize v) = isWrapped v := by
  cases v with
  | obj m =>
    cases m with
    | nil => rfl
    | cons e rest =>
      cases rest <;> rfl
  | _ => rfl

/-- A pass over a value keeps a text, and makes none of anything else. -/
lemma asText?_normalize (v : Value) : (normalize v).asText? = v.asText? := by
  cases v <;> rfl

/-- A wrapped date in a wrapped date is not converted. -/
lemma IsDoubled.instant?_eq_none (h : IsDoubled v) : instant? v = none := by
  obtain ⟨w, t, hw, hwrapped, -, -⟩ := h
  obtain ⟨x, rfl⟩ := isWrapped_iff.mp hwrapped
  cases v with
  | obj m =>
    have hfind : Mapping.find? m wrapperKey = some (.obj [(wrapperKey, x)]) := hw
    rw [instant?, hfind, Option.bind_some, instantOfWrapped?, Mapping.find?, if_neg (by decide)]
    rfl
  | _ => cases hw

/-- What is converted has a point in time, and is converted to its text. -/
lemma exists_instant?_of_convertedText? (h : convertedText? key v = some text) :
    ∃ t, instant? v = some t ∧ t.text = text := by
  rw [convertedText?] at h
  split_ifs at h
  exact Option.map_eq_some_iff.mp h

/-- Under a key that names no date only wrapped dates are converted. -/
lemma isWrapped_of_convertedText? {k : String} (hk : isDateKey k = false)
    (h : convertedText? (some k) v = some text) : isWrapped v = true := by
  rw [convertedText?] at h
  split_ifs at h with hlike
  obtain hkey | hwrapped := hlike
  · rw [Option.any_some, hk] at hkey
    cases hkey
  · exact hwrapped

/-- The milliseconds of a wrapped date stay as they are: a text that comes into their place is
none of a number. -/
lemma long_normalizeEntries (m : Mapping) :
    ((Mapping.find? (normalizeEntries m) longKey).bind asText?).bind signed? =
      ((Mapping.find? m longKey).bind asText?).bind signed? := by
  rw [find?_normalizeEntries]
  cases Mapping.find? m longKey with
  | none => rfl
  | some v =>
    rw [Option.map_some, Option.bind_some, Option.bind_some]
    cases htext : convertedText? (some longKey) v with
    | none => rw [converted_of_none htext, asText?_normalize]
    | some text =>
      obtain ⟨w, rfl⟩ := isWrapped_iff.mp (isWrapped_of_convertedText? (by decide) htext)
      obtain ⟨t, -, rfl⟩ := exists_instant?_of_convertedText? htext
      rw [converted_of_some htext, asText?, Option.bind_some, signed?_text]
      rfl

/-- What is not converted in a wrapper is read as before. -/
lemma instantOfWrapped?_normalize (v : Value) :
    instantOfWrapped? (normalize v) = instantOfWrapped? v := by
  cases v with
  | obj m => rw [normalize, instantOfWrapped?, long_normalizeEntries, instantOfWrapped?]
  | _ => rfl

/-- A value without a date is a date after a pass if and only if it is a wrapped date in a
wrapped date. -/
lemma isSome_instant?_normalize_iff (h : instant? v = none) :
    (instant? (normalize v)).isSome = true ↔ IsDoubled v := by
  cases v with
  | obj m =>
    rw [instant?] at h
    rw [normalize, instant?, find?_normalizeEntries, IsDoubled, member?, asMapping?,
      Option.bind_some]
    cases hw : Mapping.find? m wrapperKey with
    | none => simp
    | some w =>
      rw [hw, Option.bind_some] at h
      rw [Option.map_some, Option.bind_some]
      cases htext : convertedText? (some wrapperKey) w with
      | none =>
        rw [converted_of_none htext, instantOfWrapped?_normalize, h]
        refine iff_of_false (by simp) ?_
        rintro ⟨w', t, hw', hwrapped, ht, -⟩
        cases hw'
        rw [convertedText?, if_pos (.inr hwrapped), dateText?, ht] at htext
        cases htext
      | some text =>
        have hwrapped := isWrapped_of_convertedText? (by decide) htext
        obtain ⟨t, ht, rfl⟩ := exists_instant?_of_convertedText? htext
        rw [converted_of_some htext, instantOfWrapped?, ← instant?_str, instant?_text ht]
        constructor
        · intro hsome
          split_ifs at hsome with hyear
          · exact ⟨w, t, rfl, hwrapped, ht, hyear⟩
          · cases hsome
        · rintro ⟨w', t', hw', -, ht', hyear⟩
          cases hw'
          cases ht.symm.trans ht'
          rw [if_pos hyear]
          rfl
  | arr items =>
    refine iff_of_false (by simp [normalize, instant?]) ?_
    rintro ⟨w, t, hw, -⟩
    cases hw
  | _ =>
    refine iff_of_false (by simp [normalize, h]) ?_
    rintro ⟨w, t, hw, -⟩
    cases hw

lemma isDateLike_normalize_iff : IsDateLike key (normalize v) ↔ IsDateLike key v := by
  rw [IsDateLike, isWrapped_normalize, IsDateLike]

/-- What an item or an entry becomes is converted no further, unless it stands for a date and
is a wrapped date in a wrapped date. -/
lemma settled_converted_iff :
    (∀ text, convertedText? key (converted key v) = some text → converted key v = .str text) ↔
      (IsDateLike key v → ¬ IsDoubled v) := by
  cases htext : convertedText? key v with
  | some text =>
    obtain ⟨t, ht, rfl⟩ := exists_instant?_of_convertedText? htext
    rw [converted_of_some htext]
    refine iff_of_true (fun text htext' => ?_) fun _ hdoubled => ?_
    · -- the text of a date is converted to itself, or is not the text of a date
      obtain ⟨t', ht', rfl⟩ := exists_instant?_of_convertedText? htext'
      rw [instant?_text ht] at ht'
      split_ifs at ht'
      rw [Option.some.inj ht']
    · rw [hdoubled.instant?_eq_none] at ht
      cases ht
  | none =>
    rw [converted_of_none htext]
    by_cases hlike : IsDateLike key v
    · rw [convertedText?, if_pos hlike, dateText?, Option.map_eq_none_iff] at htext
      rw [convertedText?, if_pos (isDateLike_normalize_iff.mpr hlike), dateText?,
        ← isSome_instant?_normalize_iff htext]
      constructor
      · intro h _ hsome
        obtain ⟨t, ht⟩ := Option.isSome_iff_exists.mp hsome
        have htext' := h t.text (by rw [ht, Option.map_some])
        have hstr : v.asText? = some t.text := by
          rw [← asText?_normalize, htext']
          rfl
        -- a pass leaves texts alone
        cases v with
        | str s =>
          rw [show normalize (.str s) = .str s from rfl, htext] at hsome
          cases hsome
        | _ => cases hstr
      · intro h text htext'
        obtain ⟨t, ht, -⟩ := Option.map_eq_some_iff.mp htext'
        exact absurd (by rw [ht]; rfl) (h hlike)
    · rw [convertedText?, if_neg (mt isDateLike_normalize_iff.mp hlike)]
      exact iff_of_true (fun _ h => by cases h) fun h => absurd h hlike

/-- **A second pass** changes nothing if and only if after the first one nothing is left that
would be converted to another value; and this is so if and only if the first pass comes to no
item or entry that stands for a date and is a wrapped date in a wrapped date. -/
theorem normalize_normalize_iff (v : Value) :
    (normalize (normalize v) = normalize v ↔ Settled (normalize v)) ∧
      (Settled (normalize v) ↔
        ∀ key w, Visited v key w → IsDateLike key w → ¬ IsDoubled w) := by
  refine ⟨normalize_eq_self_iff, ?_⟩
  constructor
  · intro h key w hw
    exact settled_converted_iff.mp fun text htext =>
      h key _ text (below_normalize_iff.mpr ⟨w, hw, rfl⟩) htext
  · intro h key w text hw htext
    obtain ⟨u, hu, rfl⟩ := below_normalize_iff.mp hw
    exact settled_converted_iff.mpr (h key u hu) text htext

/-- A wrapped date in a wrapped date is converted in two passes. -/
theorem not_normalize_normalize :
    let v : Value := .obj [("a", .obj [("$date", .obj [("$date",
      .num (.integer 0 (by decide)))])])]
    normalize v = .obj [("a", .obj [("$date", .str "1970-01-01T00:00:00Z")])] ∧
      normalize (normalize v) = .obj [("a", .str "1970-01-01T00:00:00Z")] ∧
      normalize (normalize v) ≠ normalize v := by
  decide +kernel

end LinkedData

end PageTree
