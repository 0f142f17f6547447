/-
The places of strings.

A string in a value has a place, and no two strings have the same one. A value that is
put at the place of a string is found there, and the strings at all other places stay.
With distinct keys every string has a place, and a value that differs in its strings
alone is known by what stands at these places.

* `Value.at?_append`, `Value.put_append`: a place in two parts;
* `Value.at?_put_self`, `Value.at?_put_of_ne`: reading after writing;
* `Value.mem_stringPlaces`, `Value.exists_str_of_mem_stringPlaces`,
  `Value.nodup_stringPlaces`: the places of the strings that may hold a token, each listed
  once;
* `Value.exists_at?_of_mem_strings`: every string has a place;
* `Value.Reworded.of_at?`: **strings known by their places**.
-/
import Mathlib.Data.List.Nodup
import PageTree.Proofs.Strings

namespace PageTree

namespace Value

variable {v w : Value} {place other : List Step} {s s' : String}

/-! ### Reading after writing -/

/-- A place in a mapping. -/
lemma exists_of_at?_key {k : String} (h : v.at? (.key k :: place) = some w) :
    ∃ m u, v = .obj m ∧ Mapping.find? m k = some u ∧ u.at? place = some w := by
  cases v with
  | obj m =>
    rw [at?] at h
    obtain ⟨u, hu, h⟩ := Option.bind_eq_some_iff.mp h
    exact ⟨m, u, rfl, hu, h⟩
  | _ => simp [at?] at h

/-- A place in a sequence. -/
lemma exists_of_at?_index {i : ℕ} (h : v.at? (.index i :: place) = some w) :
    ∃ items u, v = .arr items ∧ items[i]? = some u ∧ u.at? place = some w := by
  cases v with
  | arr items =>
    rw [at?] at h
    obtain ⟨u, hu, h⟩ := Option.bind_eq_some_iff.mp h
    exact ⟨items, u, rfl, hu, h⟩
  | _ => simp [at?] at h

lemma at?_key {m : Mapping} {k : String} (h : Mapping.find? m k = some v) :
    (obj m).at? (.key k :: place) = v.at? place := by
  rw [at?, h, Option.bind_some]

lemma at?_index {items : List Value} {i : ℕ} (h : items[i]? = some v) :
    (arr items).at? (.index i :: place) = v.at? place := by
  rw [at?, h, Option.bind_some]

lemma put_key {m : Mapping} {k : String} (h : Mapping.find? m k = some v) (new : Value) :
    (obj m).put (.key k :: place) new = .obj (Mapping.insert m k (v.put place new)) := by
  rw [put, h]

/-- A place in two parts. -/
lemma at?_append (v : Value) (place rest : List Step) :
    v.at? (place ++ rest) = (v.at? place).bind (·.at? rest) := by
  induction place generalizing v with
  | nil => rfl
  | cons step place ih =>
    have hbind : ∀ child : Option Value, child.bind (·.at? (place ++ rest)) =
        (child.bind (·.at? place)).bind (·.at? rest) := by
      intro child
      rw [Option.bind_assoc]
      congr 1
      funext w
      exact ih w
    cases step with
    | key k =>
      cases v with
      | obj m => exact hbind (Mapping.find? m k)
      | _ => rfl
    | index i =>
      cases v with
      | arr items => exact hbind items[i]?
      | _ => rfl

/-- Putting something at a place in two parts. -/
lemma put_append (h : v.at? place = some w) (rest : List Step) (new : Value) :
    v.put (place ++ rest) new = v.put place (w.put rest new) := by
  induction place generalizing v with
  | nil =>
    rw [at?] at h
    rw [Option.some.inj h]
    rfl
  | cons step place ih =>
    cases step with
    | key k =>
      obtain ⟨m, u, rfl, hu, h⟩ := exists_of_at?_key h
      rw [List.cons_append, put_key hu, put_key hu, ih h]
    | index i =>
      obtain ⟨items, u, rfl, hu, h⟩ := exists_of_at?_index h
      obtain ⟨hi, rfl⟩ := List.getElem?_eq_some_iff.mp hu
      rw [List.cons_append, put, put, List.modify_eq_take_cons_drop hi,
        List.modify_eq_take_cons_drop hi, ih h]

/-- What was put at a place is found there. -/
lemma at?_put_self (h : v.at? place = some w) (new : Value) :
    (v.put place new).at? place = some new := by
  induction place generalizing v with
  | nil => rw [put, at?]
  | cons step rest ih =>
    cases step with
    | key k =>
      obtain ⟨m, u, rfl, hu, h⟩ := exists_of_at?_key h
      rw [put_key hu, at?_key (by rw [Mapping.find?_insert, if_pos rfl]), ih h]
    | index i =>
      obtain ⟨items, u, rfl, hu, h⟩ := exists_of_at?_index h
      rw [put, at?_index (by rw [List.getElem?_modify_eq, hu]; rfl), ih h]

/-- The strings at other places stay when something is put in the place of a string. -/
lemma at?_put_of_ne (hs : v.at? place = some (.str s)) (hs' : v.at? other = some (.str s'))
    (hne : other ≠ place) (new : Value) : (v.put place new).at? other = some (.str s') := by
  induction place generalizing v other with
  | nil =>
    -- a string has no places but its own
    rw [at?] at hs
    rw [Option.some.inj hs] at hs'
    cases other with
    | nil => exact absurd rfl hne
    | cons step rest => cases step <;> simp [at?] at hs'
  | cons step rest ih =>
    cases step with
    | key k =>
      obtain ⟨m, u, rfl, hu, hs⟩ := exists_of_at?_key hs
      rw [put_key hu]
      cases other with
      | nil => simp [at?] at hs'
      | cons step' rest' =>
        cases step' with
        | index i => simp [at?] at hs'
        | key k' =>
          obtain ⟨m', u', hm, hu', hs'⟩ := exists_of_at?_key hs'
          obtain rfl := Value.obj.inj hm
          by_cases hk : k = k'
          · subst hk
            obtain rfl := Option.some.inj (hu.symm.trans hu')
            rw [at?_key (by rw [Mapping.find?_insert, if_pos rfl])]
            exact ih hs hs' fun h => hne (by rw [h])
          · rw [at?_key (by rw [Mapping.find?_insert, if_neg hk, hu'])]
            exact hs'
    | index i =>
      obtain ⟨items, u, rfl, hu, hs⟩ := exists_of_at?_index hs
      rw [put]
      cases other with
      | nil => simp [at?] at hs'
      | cons step' rest' =>
        cases step' with
        | key k => simp [at?] at hs'
        | index i' =>
          obtain ⟨items', u', hitems, hu', hs'⟩ := exists_of_at?_index hs'
          obtain rfl := Value.arr.inj hitems
          by_cases hi : i = i'
          · subst hi
            obtain rfl := Option.some.inj (hu.symm.trans hu')
            rw [at?_index (by rw [List.getElem?_modify_eq, hu]; rfl)]
            exact ih hs hs' fun h => hne (by rw [h])
          · rw [at?_index ((List.getElem?_modify_ne _ _ hi).trans hu')]
            exact hs'

/-- Putting at a place what is there. -/
lemma put_of_at? (h : v.at? place = some w) : v.put place w = v := by
  induction place generalizing v with
  | nil =>
    rw [at?] at h
    rw [put, Option.some.inj h]
  | cons step rest ih =>
    cases step with
    | key k =>
      obtain ⟨m, u, rfl, hu, h⟩ := exists_of_at?_key h
      rw [put_key hu, ih h, Mapping.insert_of_find? hu]
    | index i =>
      obtain ⟨items, u, rfl, hu, h⟩ := exists_of_at?_index h
      have hmodify : items.modify i (fun u => u.put rest w) = items := by
        refine List.ext_getElem? fun j => ?_
        by_cases hij : i = j
        · rw [← hij, List.getElem?_modify_eq, hu]
          exact congrArg some (ih h)
        · exact List.getElem?_modify_ne _ _ hij
      rw [put, hmodify]

/-- Keys are distinct at every place of a value if they are in the value. -/
lemma Distinct.of_at? (hv : v.Distinct) (h : v.at? place = some w) : w.Distinct := by
  induction place generalizing v with
  | nil =>
    rw [at?] at h
    exact Option.some.inj h ▸ hv
  | cons step rest ih =>
    cases step with
    | key k =>
      obtain ⟨m, u, rfl, hu, h⟩ := exists_of_at?_key h
      exact ih (DistinctEntries.of_find? hv hu) h
    | index i =>
      obtain ⟨items, u, rfl, hu, h⟩ := exists_of_at?_index h
      exact ih (distinctItems_iff.mp hv u (List.mem_of_getElem? hu)) h

/-! ### All places -/

lemma mem_entryPlaces {m : Mapping} :
    place ∈ entryPlaces m ↔
      ∃ e ∈ m, ∃ rest ∈ e.2.stringPlaces, place = .key e.1 :: rest := by
  induction m with
  | nil => simp [entryPlaces]
  | cons e rest ih => simp [entryPlaces, ih, eq_comm]

lemma mem_itemPlaces {items : List Value} {i : ℕ} :
    place ∈ itemPlaces i items ↔
      ∃ j u, items[j]? = some u ∧ ∃ rest ∈ u.stringPlaces, place = .index (i + j) :: rest := by
  induction items generalizing i with
  | nil => simp [itemPlaces]
  | cons u items ih =>
    rw [itemPlaces, List.mem_append, List.mem_map, ih]
    constructor
    · rintro (⟨rest, hrest, rfl⟩ | ⟨j, u', hu', rest, hrest, rfl⟩)
      · exact ⟨0, u, rfl, rest, hrest, rfl⟩
      · exact ⟨j + 1, u', hu', rest, hrest, by rw [Nat.add_right_comm, Nat.add_assoc]⟩
    · rintro ⟨j, u', hu', rest, hrest, rfl⟩
      cases j with
      | zero =>
        obtain rfl : u = u' := by simpa using hu'
        exact .inl ⟨rest, hrest, rfl⟩
      | succ j => exact .inr ⟨j, u', by simpa using hu', rest, hrest, by
          rw [Nat.add_right_comm, Nat.add_assoc]⟩

/-- The place of a string that may hold a token is listed. -/
lemma mem_stringPlaces (h : v.at? place = some (.str s))
    (hopen : Placeholder.hasOpening s.toList = true) : place ∈ v.stringPlaces := by
  induction place generalizing v with
  | nil =>
    rw [at?] at h
    rw [Option.some.inj h, stringPlaces, if_pos hopen]
    exact List.mem_singleton_self _
  | cons step rest ih =>
    cases step with
    | key k =>
      obtain ⟨m, u, rfl, hu, h⟩ := exists_of_at?_key h
      exact mem_entryPlaces.mpr ⟨_, Mapping.mem_of_find? hu, rest, ih h, rfl⟩
    | index i =>
      obtain ⟨items, u, rfl, hu, h⟩ := exists_of_at?_index h
      exact mem_itemPlaces.mpr ⟨i, u, hu, rest, ih h, by rw [Nat.zero_add]⟩

/-- At a listed place stands a string, if keys are distinct. -/
lemma exists_str_of_mem_stringPlaces (hv : v.Distinct) (h : place ∈ v.stringPlaces) :
    ∃ s, v.at? place = some (.str s) := by
  induction v using Value.ind generalizing place with
  | null | bool _ | num _ => simp [stringPlaces] at h
  | str s =>
    rw [stringPlaces] at h
    split_ifs at h
    · rw [List.mem_singleton.mp h, at?]
      exact ⟨s, rfl⟩
    · exact absurd h List.not_mem_nil
  | arr items ih =>
    obtain ⟨i, u, hu, rest, hrest, rfl⟩ := mem_itemPlaces.mp h
    have hmem : u ∈ items := List.mem_of_getElem? hu
    rw [Nat.zero_add, at?_index hu]
    exact ih u hmem (distinctItems_iff.mp hv u hmem) hrest
  | obj m ih =>
    obtain ⟨e, he, rest, hrest, rfl⟩ := mem_entryPlaces.mp h
    obtain ⟨hnodup, hdistinct⟩ := distinctEntries_iff.mp hv
    rw [at?_key ((Mapping.find?_eq_some_iff hnodup).mpr he)]
    exact ih e he (hdistinct e he) hrest

mutual

/-- No place is listed twice, if keys are distinct. -/
theorem nodup_stringPlaces : ∀ {v : Value}, v.Distinct → v.stringPlaces.Nodup
  | .null, _ | .bool _, _ | .num _, _ => List.nodup_nil
  | .str s, _ => by
    rw [stringPlaces]
    split_ifs
    · exact List.nodup_singleton _
    · exact List.nodup_nil
  | .arr _, h => nodup_itemPlaces h
  | .obj _, h => nodup_entryPlaces h

theorem nodup_itemPlaces :
    ∀ {items : List Value} {i : ℕ}, DistinctItems items → (itemPlaces i items).Nodup
  | [], _, _ => List.nodup_nil
  | v :: rest, i, h => by
    rw [itemPlaces]
    refine List.Nodup.append ?_ (nodup_itemPlaces h.2) ?_
    · exact (nodup_stringPlaces h.1).map (List.cons_injective)
    · intro place hplace hlater
      obtain ⟨_, _, rfl⟩ := List.mem_map.mp hplace
      obtain ⟨j, _, _, _, _, heq⟩ := mem_itemPlaces.mp hlater
      have hindex : i = i + 1 + j := Step.index.inj (List.cons.inj heq).1
      omega

theorem nodup_entryPlaces :
    ∀ {m : Mapping}, DistinctEntries m → (entryPlaces m).Nodup
  | [], _ => List.nodup_nil
  | (k, v) :: rest, h => by
    rw [entryPlaces]
    refine List.Nodup.append ?_ (nodup_entryPlaces h.2.2) ?_
    · exact (nodup_stringPlaces h.2.1).map (List.cons_injective)
    · intro place hplace hlater
      obtain ⟨_, _, rfl⟩ := List.mem_map.mp hplace
      obtain ⟨e, he, _, _, heq⟩ := mem_entryPlaces.mp hlater
      have hkey : k = e.1 := Step.key.inj (List.cons.inj heq).1
      exact h.1 (hkey ▸ List.mem_map_of_mem he)

end

/-- Every string has a place, if keys are distinct. -/
lemma exists_at?_of_mem_strings (hv : v.Distinct) (hs : s ∈ v.strings) :
    ∃ place, v.at? place = some (.str s) := by
  induction v using Value.ind with
  | null | bool _ | num _ => simp [strings] at hs
  | str text =>
    rw [strings, List.mem_singleton] at hs
    exact ⟨[], by rw [at?, hs]⟩
  | arr items ih =>
    obtain ⟨u, hu, hs⟩ := mem_itemStrings.mp hs
    obtain ⟨place, hplace⟩ := ih u hu (distinctItems_iff.mp hv u hu) hs
    obtain ⟨i, hi⟩ := List.mem_iff_getElem?.mp hu
    exact ⟨.index i :: place, (at?_index hi).trans hplace⟩
  | obj m ih =>
    obtain ⟨e, he, hs⟩ := mem_entryStrings.mp hs
    obtain ⟨hnodup, hdistinct⟩ := distinctEntries_iff.mp hv
    obtain ⟨place, hplace⟩ := ih e he (hdistinct e he) hs
    exact ⟨.key e.1 :: place, (at?_key ((Mapping.find?_eq_some_iff hnodup).mpr he)).trans hplace⟩

/-! ### Strings known by their places -/

variable {R S : String → String → Prop}

mutual

/-- **Strings known by their places**: values that differ in their strings alone are
related as the strings at the same places are. -/
theorem Reworded.of_at? : ∀ {v w : Value}, Reworded R v w → v.Distinct →
    (∀ place s, v.at? place = some (.str s) → ∃ s', w.at? place = some (.str s') ∧ S s s') →
      Reworded S v w
  | .null, _, hw, _, _ | .bool _, _, hw, _, _ | .num _, _, hw, _, _ => hw
  | .str s, _, _, _, h => by
    obtain ⟨s', hw, hs⟩ := h [] s rfl
    rw [Value.at?] at hw
    exact ⟨s', Option.some.inj hw, hs⟩
  | .arr _, _, ⟨items', hw, hitems⟩, hd, h => by
    subst hw
    exact ⟨items', rfl, hitems.of_at? hd fun i place s hs => h (.index i :: place) s hs⟩
  | .obj _, _, ⟨m', hw, hentries⟩, hd, h => by
    subst hw
    exact ⟨m', rfl, hentries.of_at? hd fun k place s hs => h (.key k :: place) s hs⟩

theorem RewordedItems.of_at? : ∀ {vs ws : List Value}, RewordedItems R vs ws → DistinctItems vs →
    (∀ (i : ℕ) place s, vs[i]?.bind (Value.at? · place) = some (.str s) →
      ∃ s', ws[i]?.bind (Value.at? · place) = some (.str s') ∧ S s s') → RewordedItems S vs ws
  | [], _, hws, _, _ => hws
  | _ :: _, _, ⟨w, ws, hws, hv, hrest⟩, hd, h => by
    subst hws
    exact ⟨w, ws, rfl, hv.of_at? hd.1 fun place s hs => h 0 place s hs,
      hrest.of_at? hd.2 fun i place s hs => h (i + 1) place s hs⟩

theorem RewordedEntries.of_at? : ∀ {m m' : Mapping}, RewordedEntries R m m' → DistinctEntries m →
    (∀ k place s, (Mapping.find? m k).bind (Value.at? · place) = some (.str s) →
      ∃ s', (Mapping.find? m' k).bind (Value.at? · place) = some (.str s') ∧ S s s') →
        RewordedEntries S m m'
  | [], _, hm', _, _ => hm'
  | (k, v) :: rest, _, ⟨w, rest', hm', hv, hrest⟩, hd, h => by
    subst hm'
    have hhead : ∀ place s, v.at? place = some (.str s) →
        ∃ s', w.at? place = some (.str s') ∧ S s s' := by
      intro place s hs
      have hplace := h k place s
      rw [Mapping.find?, Mapping.find?, if_pos rfl, if_pos rfl] at hplace
      exact hplace hs
    have htail : ∀ k' place s, (Mapping.find? rest k').bind (Value.at? · place) = some (.str s) →
        ∃ s', (Mapping.find? rest' k').bind (Value.at? · place) = some (.str s') ∧ S s s' := by
      intro k' place s hs
      -- the first entry has another key
      have hne : k ≠ k' := by
        rintro rfl
        rw [Mapping.find?_eq_none_iff.mpr hd.1] at hs
        simp at hs
      have hplace := h k' place s
      rw [Mapping.find?, Mapping.find?, if_neg hne, if_neg hne] at hplace
      exact hplace hs
    exact ⟨w, rest', rfl, hv.of_at? hd.2.1 hhead, hrest.of_at? hd.2.2 htail⟩

end

end Value

end PageTree
