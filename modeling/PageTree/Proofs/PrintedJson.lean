/-
Printed JSON reads back.

A printed value is read as its tokens, one after the other: a number ends before what is
printed after it, and an escaped character is read as the character. From the tokens the
reader makes the value again, as long as it can keep all the containers that are open.

* `Json.readToken_quote`: strings;
* `Json.valueTokens`, `Json.tokens?_print`: **the tokens of a printed value**;
* `Json.run_valueTokens`, `Json.read?_print`: the value that they lead to, so that
  **printed JSON reads back**.
-/
import PageTree.Proofs.Merging
import PageTree.Proofs.NumberTexts

namespace PageTree

namespace Json

variable {rest : List Char}

/-! ### Strings -/

/-- An escaped character is read as the character. -/
lemma readString_escapeChar (c : Char) (cs : List Char) :
    readString (escapeChar c ++ cs) = (readString cs).map fun s => (c :: s.1, s.2) := by
  have hletter : ∀ {d}, d ≠ 'u' → unescape? d = some c →
      readString (['\\', d] ++ cs) = (readString cs).map fun s => (c :: s.1, s.2) := by
    intro d hd hletter
    rw [List.cons_append, List.singleton_append, readString_escape hd, hletter]
    rfl
  rw [escapeChar]
  split_ifs with hquote hslash hbackspace hfeed hline hreturn htab hcontrol
  · exact hletter (by decide) (by rw [hquote]; rfl)
  · exact hletter (by decide) (by rw [hslash]; rfl)
  · exact hletter (by decide) (by rw [hbackspace]; rfl)
  · exact hletter (by decide) (by rw [hfeed]; rfl)
  · exact hletter (by decide) (by rw [hline]; rfl)
  · exact hletter (by decide) (by rw [hreturn]; rfl)
  · exact hletter (by decide) (by rw [htab]; rfl)
  · have hhex : ∀ n < 0x20, hex4? '0' '0' (hexDigit (n / 16)) (hexDigit (n % 16)) = some n := by
      decide
    have hread : readHex ('0' :: '0' :: hexDigit (c.toNat / 16) :: hexDigit (c.toNat % 16) :: cs) =
        some (c.toNat, cs) :=
      readHex_eq_some_iff.mpr ⟨_, _, _, _, rfl, hhex c.toNat hcontrol⟩
    simp only [List.cons_append, List.nil_append]
    rw [readString_unicode, hread, Option.bind_some, if_pos (.inl (by omega)), Char.ofNat_toNat]
  · rw [List.singleton_append, readString_plain hquote hslash, if_neg hcontrol]

/-- A quoted string is read as the string. -/
lemma readToken_quote (s : String) (rest : List Char) :
    readToken ((quote s).toList ++ rest) = some (.str s, rest) := by
  have hread : ∀ cs : List Char, readString (cs.flatMap escapeChar ++ '"' :: rest) =
      some (cs, rest) := by
    intro cs
    induction cs with
    | nil => rfl
    | cons c cs ih =>
      rw [List.flatMap_cons, List.append_assoc, readString_escapeChar, ih]
      rfl
  have hquote : (quote s).toList ++ rest = '"' :: (s.toList.flatMap escapeChar ++ '"' :: rest) := by
    rw [quote, String.toList_append, String.toList_append, String.toList_ofList, List.append_assoc]
    simp
  rw [hquote, readToken, hread]
  simp only [Option.map_some, String.ofList_toList]

/-! ### Texts -/

/-- No token starts with a blank. -/
lemma readToken_of_isBlank {c : Char} (h : isBlank c = true) (cs : List Char) :
    readToken (c :: cs) = none := by
  have hcases : c = ' ' ∨ c = '\t' ∨ c = '\n' ∨ c = '\r' := by simpa [isBlank, or_assoc] using h
  rcases hcases with rfl | rfl | rfl | rfl
  · exact readToken_eq_none (by decide) (by decide) cs
  · exact readToken_eq_none (by decide) (by decide) cs
  · exact readToken_eq_none (by decide) (by decide) cs
  · exact readToken_eq_none (by decide) (by decide) cs

/-- Whether a text starts with some tokens. -/
def Lexes (cs : List Char) (ts : List Token) (rest : List Char) : Prop :=
  ∀ bound, tokensWithin (ts.length + bound) cs = (tokensWithin bound rest).map (ts ++ ·)

namespace Lexes

variable {cs between : List Char} {ts ts' : List Token} {t : Token}

lemma nil (rest : List Char) : Lexes rest [] rest := by
  intro bound
  simp

lemma append (h : Lexes cs ts between) (h' : Lexes between ts' rest) :
    Lexes cs (ts ++ ts') rest := by
  intro bound
  rw [List.length_append, Nat.add_assoc, h, h', Option.map_map]
  congr 1
  funext more
  simp

lemma of_readToken (h : readToken cs = some (t, rest)) : Lexes cs [t] rest := by
  intro bound
  cases cs with
  | nil =>
    have hnil : readToken [] = none := by rfl
    rw [hnil] at h
    cases h
  | cons c cs =>
    have hblank : isBlank c = false := by
      rw [← Bool.not_eq_true]
      intro hblank
      rw [readToken_of_isBlank hblank] at h
      cases h
    rw [List.length_singleton, Nat.add_comm, tokensWithin,
      List.dropWhile_cons_of_neg (by simp [hblank])]
    simp only [h]
    rfl

lemma cons (h : readToken cs = some (t, between)) (h' : Lexes between ts rest) :
    Lexes cs (t :: ts) rest :=
  (of_readToken h).append h'

end Lexes

mutual

/-- The tokens of a printed value. -/
def valueTokens : Value → List Token
  | .null => [.null]
  | .bool b => [.bool b]
  | .num n => [.num n]
  | .str s => [.str s]
  | .arr items => .openArray :: (itemTokens items ++ [.closeArray])
  | .obj entries => .openObject :: (entryTokens entries ++ [.closeObject])

/-- The tokens of items with commas between them. -/
def itemTokens : List Value → List Token
  | [] => []
  | [v] => valueTokens v
  | v :: w :: rest => valueTokens v ++ .comma :: itemTokens (w :: rest)

/-- The tokens of entries with commas between them. -/
def entryTokens : List (String × Value) → List Token
  | [] => []
  | [(k, v)] => .str k :: .colon :: valueTokens v
  | (k, v) :: e :: rest => .str k :: .colon :: (valueTokens v ++ .comma :: entryTokens (e :: rest))

end

/-- Punctuation ends a number. -/
lemma stops_cons {c : Char} (h : c.isDigit = false ∧ c ∉ ['.', 'e', 'E']) (rest : List Char) :
    Stops (c :: rest) := by
  rintro d ⟨⟩
  exact h

mutual

/-- A printed value starts with its tokens. -/
theorem lexes_print : ∀ (v : Value) {rest : List Char}, Stops rest →
    Lexes ((print v).toList ++ rest) (valueTokens v) rest
  | .null, _, _ => .of_readToken rfl
  | .bool true, _, _ => .of_readToken rfl
  | .bool false, _, _ => .of_readToken rfl
  | .num n, _, h => .of_readToken (readToken_text n h)
  | .str s, rest, _ => .of_readToken (readToken_quote s rest)
  | .arr items, rest, _ => by
    have hclose := lexes_printItems items (stops_cons (c := ']') (by decide) rest)
    have htext : (print (.arr items)).toList ++ rest =
        '[' :: ((printItems items).toList ++ ']' :: rest) := by
      simp [print]
    rw [htext]
    exact .cons rfl (hclose.append (.of_readToken rfl))
  | .obj entries, rest, _ => by
    have hclose := lexes_printEntries entries (stops_cons (c := '\x7d') (by decide) rest)
    have htext : (print (.obj entries)).toList ++ rest =
        '\x7b' :: ((printEntries entries).toList ++ '\x7d' :: rest) := by
      simp [print]
    rw [htext]
    exact .cons rfl (hclose.append (.of_readToken rfl))

theorem lexes_printItems : ∀ (items : List Value) {rest : List Char}, Stops rest →
    Lexes ((printItems items).toList ++ rest) (itemTokens items) rest
  | [], rest, _ => .nil rest
  | [v], _, h => lexes_print v h
  | v :: w :: items, rest, h => by
    have hitem := lexes_print v
      (stops_cons (c := ',') (by decide) ((printItems (w :: items)).toList ++ rest))
    have htext : (printItems (v :: w :: items)).toList ++ rest =
        (print v).toList ++ ',' :: ((printItems (w :: items)).toList ++ rest) := by
      simp [printItems]
    rw [htext]
    exact hitem.append (.cons rfl (lexes_printItems (w :: items) h))

theorem lexes_printEntries : ∀ (entries : List (String × Value)) {rest : List Char}, Stops rest →
    Lexes ((printEntries entries).toList ++ rest) (entryTokens entries) rest
  | [], rest, _ => .nil rest
  | [(k, v)], rest, h => by
    have htext : (printEntries [(k, v)]).toList ++ rest =
        (quote k).toList ++ ':' :: ((print v).toList ++ rest) := by
      simp [printEntries]
    rw [htext]
    exact .cons (readToken_quote k _) (.cons rfl (lexes_print v h))
  | (k, v) :: e :: entries, rest, h => by
    have hvalue := lexes_print v
      (stops_cons (c := ',') (by decide) ((printEntries (e :: entries)).toList ++ rest))
    have htext : (printEntries ((k, v) :: e :: entries)).toList ++ rest =
        (quote k).toList ++
          ':' :: ((print v).toList ++ ',' :: ((printEntries (e :: entries)).toList ++ rest)) := by
      simp [printEntries]
    rw [htext]
    exact .cons (readToken_quote k _)
      (.cons rfl (hvalue.append (.cons rfl (lexes_printEntries (e :: entries) h))))

end

/-- **The tokens of a printed value** are those of the value. -/
theorem tokens?_print (v : Value) : tokens? (print v) = some (valueTokens v) := by
  have hstops : Stops [] := by
    rintro c ⟨⟩
  have hlexes := lexes_print v hstops ((print v).toList.length + 1)
  rw [List.append_nil] at hlexes
  have hbound : tokensWithin ((print v).toList.length + 1) (print v).toList =
      tokensWithin ((valueTokens v).length + ((print v).toList.length + 1)) (print v).toList :=
    tokensWithin_congr (by omega) (by omega)
  rw [tokens?, hbound, hlexes]
  simp [tokensWithin]

end Json

/-! ### Values -/

namespace Value

mutual

/-- How many arrays and objects are open at once when a value is read. -/
def nesting : Value → ℕ
  | .arr items => nestingItems items + 1
  | .obj entries => nestingEntries entries + 1
  | .null | .bool _ | .num _ | .str _ => 0

/-- The largest nesting of an item. -/
def nestingItems : List Value → ℕ
  | [] => 0
  | v :: rest => max (nesting v) (nestingItems rest)

/-- The largest nesting in an entry. -/
def nestingEntries : List (String × Value) → ℕ
  | [] => 0
  | (_, v) :: rest => max (nesting v) (nestingEntries rest)

end

end Value

namespace Json

open Reading Value

variable {frames : List Frame} {first : Bool}

/-- The machine takes a token that does not end an array as the start of a value. -/
lemma step_value {t : Token} (h : t ≠ .closeArray) :
    step (.value frames first) t = start frames t := by
  rw [step]
  exact fun _ ht => absurd ht h

/-- The machine takes a key and a colon, and waits for the value. -/
lemma foldlM_step_key (read : Mapping) (key : String) (ts : List Token) :
    (Token.str key :: .colon :: ts).foldlM step (.key frames read first) =
      ts.foldlM step (.value (.object read key :: frames) false) := by
  cases first <;> rfl

mutual

/-- The tokens of a value lead the machine to the value. -/
theorem run_valueTokens : ∀ (v : Value) {frames : List Frame} {first : Bool}, v.Distinct →
    frames.length + v.nesting ≤ maxNesting →
    (valueTokens v).foldlM step (.value frames first) = some (.complete frames v)
  | .null, _, _, _, _ | .bool _, _, _, _, _ | .num _, _, _, _, _ | .str _, _, _, _, _ => by
    rw [valueTokens, List.foldlM_cons, step_value (by simp)]
    rfl
  | .arr [], frames, first, _, hnesting => by
    have hopen : frames.length < maxNesting := by
      rw [nesting] at hnesting
      omega
    rw [valueTokens, List.foldlM_cons, step_value (by simp), start, if_pos hopen]
    rfl
  | .arr (v :: items), frames, first, hv, hnesting => by
    rw [nesting] at hnesting
    have hopen : frames.length < maxNesting := by omega
    rw [valueTokens, List.foldlM_cons, step_value (by simp), start, if_pos hopen]
    exact run_itemTokens (v :: items) (List.cons_ne_nil _ _) hv (by omega)
  | .obj [], frames, first, _, hnesting => by
    have hopen : frames.length < maxNesting := by
      rw [nesting] at hnesting
      omega
    rw [valueTokens, List.foldlM_cons, step_value (by simp), start, if_pos hopen]
    rfl
  | .obj (e :: entries), frames, first, hv, hnesting => by
    rw [nesting] at hnesting
    have hopen : frames.length < maxNesting := by omega
    rw [valueTokens, List.foldlM_cons, step_value (by simp), start, if_pos hopen]
    exact run_entryTokens (e :: entries) (List.cons_ne_nil _ _) hv (by simp [Mapping.keys])
      (by omega)

theorem run_itemTokens : ∀ (items : List Value) {frames : List Frame} {read : List Value}
    {first : Bool}, items ≠ [] → DistinctItems items →
    frames.length + 1 + nestingItems items ≤ maxNesting →
    (itemTokens items ++ [Token.closeArray]).foldlM step (.value (.array read :: frames) first) =
      some (.complete frames (.arr (read.reverse ++ items)))
  | [], _, _, _, h, _, _ => absurd rfl h
  | [v], frames, read, first, _, hv, hnesting => by
    rw [nestingItems] at hnesting
    have hitem : (valueTokens v).foldlM step (.value (.array read :: frames) first) =
        some (.complete (.array read :: frames) v) :=
      run_valueTokens v hv.1 (by rw [List.length_cons]; omega)
    rw [itemTokens, List.foldlM_append, hitem, ← List.reverse_cons]
    rfl
  | v :: w :: items, frames, read, first, _, hv, hnesting => by
    rw [nestingItems] at hnesting
    have hitem : (valueTokens v).foldlM step (.value (.array read :: frames) first) =
        some (.complete (.array read :: frames) v) :=
      run_valueTokens v hv.1 (by rw [List.length_cons]; omega)
    have hitems : (itemTokens (w :: items) ++ [Token.closeArray]).foldlM step
        (.value (.array (v :: read) :: frames) false) =
        some (.complete frames (.arr ((v :: read).reverse ++ w :: items))) :=
      run_itemTokens (w :: items) (List.cons_ne_nil _ _) hv.2 (by omega)
    rw [itemTokens, List.append_assoc, List.foldlM_append, hitem]
    rw [List.reverse_cons, List.append_assoc, List.singleton_append] at hitems
    exact hitems

theorem run_entryTokens : ∀ (entries : Mapping) {frames : List Frame} {read : Mapping}
    {first : Bool}, entries ≠ [] → DistinctEntries entries →
    (∀ key ∈ Mapping.keys read, key ∉ Mapping.keys entries) →
    frames.length + 1 + nestingEntries entries ≤ maxNesting →
    (entryTokens entries ++ [Token.closeObject]).foldlM step (.key frames read first) =
      some (.complete frames (.obj (read ++ entries)))
  | [], _, _, _, h, _, _, _ => absurd rfl h
  | [(k, v)], frames, read, first, _, hv, hkeys, hnesting => by
    rw [nestingEntries] at hnesting
    have hentry : (valueTokens v).foldlM step (.value (.object read k :: frames) false) =
        some (.complete (.object read k :: frames) v) :=
      run_valueTokens v hv.2.1 (by rw [List.length_cons]; omega)
    have hnew : k ∉ Mapping.keys read := fun hk => hkeys k hk List.mem_cons_self
    rw [entryTokens, List.cons_append, List.cons_append, foldlM_step_key, List.foldlM_append,
      hentry, ← Mapping.insert_of_notMem hnew]
    rfl
  | (k, v) :: e :: entries, frames, read, first, _, hv, hkeys, hnesting => by
    rw [nestingEntries] at hnesting
    have hentry : (valueTokens v).foldlM step (.value (.object read k :: frames) false) =
        some (.complete (.object read k :: frames) v) :=
      run_valueTokens v hv.2.1 (by rw [List.length_cons]; omega)
    have hnew : k ∉ Mapping.keys read := fun hk => hkeys k hk List.mem_cons_self
    have hkeys' : ∀ key ∈ Mapping.keys (Mapping.insert read k v),
        key ∉ Mapping.keys (e :: entries) := by
      intro key hkey
      rcases Mapping.mem_keys_insert.mp hkey with rfl | hkey
      · exact hv.1
      · exact fun hmem => hkeys key hkey (List.mem_cons_of_mem _ hmem)
    have hentries : (entryTokens (e :: entries) ++ [Token.closeObject]).foldlM step
        (.key frames (Mapping.insert read k v) false) =
        some (.complete frames (.obj (Mapping.insert read k v ++ e :: entries))) :=
      run_entryTokens (e :: entries) (List.cons_ne_nil _ _) hv.2.2 hkeys' (by omega)
    rw [entryTokens, List.cons_append, List.cons_append, foldlM_step_key, List.append_assoc,
      List.foldlM_append, hentry]
    rw [Mapping.insert_of_notMem hnew, List.append_assoc, List.singleton_append] at hentries
    rw [← hentries, ← Mapping.insert_of_notMem hnew]
    rfl

end

/-- **Printed JSON reads back**, if no mapping has a key twice and no more containers are
open at once than the reader can keep. -/
theorem read?_print {v : Value} (hv : v.Distinct) (hnesting : v.nesting ≤ maxNesting) :
    read? (print v) = some v := by
  have hrun : (valueTokens v).foldlM step (.value [] false) = some (.complete [] v) :=
    run_valueTokens v hv (by simpa using hnesting)
  rw [read?, tokens?_print, Option.bind_some, ofTokens?, hrun]

end Json

end PageTree
