/-
Texts without angle brackets.

Angle brackets are written into a page as the ends of tags and comments, and
otherwise only where a text, a name or the configuration has them: numbers and
JSON text bring in none of their own, replacing the tokens of a text brings in
none but those of the values, and quoted attribute values lose theirs.

* `Text.Plain`, `Value.Plain`, `Store.Plain`: texts, values and configurations
  without angle brackets;
* `Json.plain_print`, `Value.Plain.text`: JSON text, and the text of a value;
* `Scope.plain_interpolate`: a text with its tokens replaced;
* `Html.plain_escape`, `Renderer.plain_attributes`: attributes, whatever their
  values are;
* `StyleRule.Plain`, `StyleRule.PlainAll.writeAll`: style rules;
* `Node.Plain`: trees.
-/
import Mathlib.Tactic.Common
import PageTree.Proofs.Environment
import PageTree.Proofs.Literals

namespace PageTree

/-! ### Texts -/

namespace Text

/-- Whether a text has no angle brackets. -/
def Plain (cs : List Char) : Prop := ∀ c ∈ cs, c ≠ '<' ∧ c ≠ '>'

instance (cs : List Char) : Decidable (Plain cs) :=
  List.decidableBAll (fun c => c ≠ '<' ∧ c ≠ '>') cs

variable {as bs : List Char}

@[simp] lemma plain_nil : Plain [] := by simp [Plain]

@[simp] lemma plain_append : Plain (as ++ bs) ↔ Plain as ∧ Plain bs := by
  simp only [Plain, List.mem_append, or_imp, forall_and]
  exact and_and_and_comm

lemma Plain.of_subset (h : Plain bs) (hsub : as ⊆ bs) : Plain as := fun c hc => h c (hsub hc)

lemma plain_flatMap {α : Type} {l : List α} {f : α → List Char} (h : ∀ a ∈ l, Plain (f a)) :
    Plain (l.flatMap f) := by
  intro c hc
  obtain ⟨a, ha, hc⟩ := List.mem_flatMap.mp hc
  exact h a ha c hc

/-- A text of strings put together. -/
lemma plain_join {l : List String} (h : ∀ s ∈ l, Plain s.toList) : Plain (String.join l).toList := by
  rw [String.toList_join]
  exact plain_flatMap h

/-- Taking blanks off the ends brings nothing in. -/
lemma Plain.trim {s : String} (h : Plain s.toList) : Plain (trim s).toList := by
  rw [Text.trim, String.toList_ofList]
  exact h.of_subset fun c hc => mem_of_mem_trimEnds hc

end Text

open Text

/-! ### Letters and digits -/

lemma ne_of_isAlphanum {c d : Char} (h : c.isAlphanum = true) (hd : d.isAlphanum = false) :
    c ≠ d :=
  ne_of_apply_ne Char.isAlphanum (by simp [h, hd])

lemma plain_of_isAlphanum {cs : List Char} (h : ∀ c ∈ cs, c.isAlphanum = true) : Plain cs :=
  fun c hc => ⟨ne_of_isAlphanum (h c hc) rfl, ne_of_isAlphanum (h c hc) rfl⟩

lemma plain_of_isDigit {cs : List Char} (h : ∀ c ∈ cs, c.isDigit = true) : Plain cs :=
  plain_of_isAlphanum fun c hc => by simp [Char.isAlphanum, h c hc]

/-! ### Numbers -/

lemma plain_toDigits (n : ℕ) : Plain (Nat.toDigits 10 n) :=
  plain_of_isDigit fun _ hc => Nat.isDigit_of_mem_toDigits (by decide) (by decide) hc

lemma plain_replicate_zero (n : ℕ) : Plain (List.replicate n '0') :=
  plain_of_isDigit fun c hc => by rw [List.eq_of_mem_replicate hc]; decide

lemma plain_nat (n : ℕ) : Plain (toString n).toList := by
  rw [Nat.toString_eq_ofList_toDigits, String.toList_ofList]
  exact plain_toDigits n

lemma plain_int (i : ℤ) : Plain (toString i).toList := by
  cases i with
  | ofNat n => exact plain_nat n
  | negSucc n =>
    show Plain ("-" ++ toString (n + 1)).toList
    rw [String.toList_append, plain_append]
    exact ⟨by decide, plain_nat (n + 1)⟩

/-- The text of a decimal holds digits, a point, and an exponent with its sign. -/
lemma Double.Decimal.plain_text (d : Decimal) : Plain d.text.toList := by
  have hdigits := plain_toDigits d.digits
  have htake : ∀ k, Plain ((Nat.toDigits 10 d.digits).take k) := fun k =>
    hdigits.of_subset (List.take_subset _ _)
  have hdrop : ∀ k, Plain ((Nat.toDigits 10 d.digits).drop k) := fun k =>
    hdigits.of_subset (List.drop_subset _ _)
  have hpoint : Plain ".".toList ∧ Plain ".0".toList ∧ Plain "0.".toList ∧ Plain "e".toList := by
    decide
  simp only [text]
  split
  · split
    · simp only [String.toList_append, String.toList_ofList, plain_append]
      exact ⟨⟨hdigits, plain_replicate_zero _⟩, hpoint.2.1⟩
    · split
      · simp only [String.toList_append, String.toList_ofList, plain_append]
        exact ⟨⟨htake _, hpoint.1⟩, hdrop _⟩
      · simp only [String.toList_append, String.toList_ofList, plain_append]
        exact ⟨hpoint.2.2.1, plain_replicate_zero _, hdigits⟩
  · have hfraction : Plain (if (Nat.toDigits 10 d.digits).length ≤ 1 then "" else
        "." ++ String.ofList ((Nat.toDigits 10 d.digits).drop 1)).toList := by
      split
      · exact plain_nil
      · simp only [String.toList_append, String.toList_ofList, plain_append]
        exact ⟨hpoint.1, hdrop 1⟩
    have hsign : ∀ leading : ℤ, Plain (if leading < 0 then "-" else "+").toList := by
      intro leading
      split <;> decide
    simp only [String.toList_append, String.toList_ofList, plain_append]
    exact ⟨⟨⟨⟨htake 1, hfraction⟩, hpoint.2.2.2⟩, hsign _⟩, plain_nat _⟩

lemma Double.plain_text (x : Double) : Plain x.text.toList := by
  have hsign : Plain (if x.negative then "-" else "").toList := by
    split <;> decide
  simp only [text]
  split
  · rw [String.toList_append, plain_append]
    exact ⟨hsign, by decide⟩
  · rw [String.toList_append, plain_append]
    exact ⟨hsign, Decimal.plain_text _⟩

/-- The text of a number has no angle brackets. -/
lemma Number.plain_text (n : Number) : Plain n.text.toList := by
  cases n with
  | integer i fits => exact plain_int i
  | double x => exact x.plain_text

/-! ### Values -/

namespace Value

mutual

/-- Whether no string and no key in a value has angle brackets. -/
def Plain : Value → Prop
  | .str s => Text.Plain s.toList
  | .arr items => PlainItems items
  | .obj entries => PlainEntries entries
  | .null | .bool _ | .num _ => True

/-- Whether no string and no key in the items of a sequence has angle
brackets. -/
def PlainItems : List Value → Prop
  | [] => True
  | v :: rest => Plain v ∧ PlainItems rest

/-- Whether no string and no key in the entries of a mapping has angle
brackets. -/
def PlainEntries : List (String × Value) → Prop
  | [] => True
  | (k, v) :: rest => Text.Plain k.toList ∧ Plain v ∧ PlainEntries rest

end

end Value

namespace Json

/-- A hexadecimal digit of a byte below the blank. -/
lemma plain_hexDigit {n : ℕ} (h : n < 16) : hexDigit n ≠ '<' ∧ hexDigit n ≠ '>' := by
  revert n
  decide

/-- Quoting brings in backslashes, letters and digits. -/
lemma plain_escapeChar {c : Char} (h : c ≠ '<' ∧ c ≠ '>') : Text.Plain (escapeChar c) := by
  have hhex := plain_hexDigit (Nat.mod_lt c.toNat (by decide : 16 > 0))
  rw [escapeChar]
  split_ifs with _ _ _ _ _ _ _ hsmall
  · decide
  · decide
  · decide
  · decide
  · decide
  · decide
  · decide
  · have hhigh := plain_hexDigit (show c.toNat / 16 < 16 by omega)
    simp only [Text.Plain, List.forall_mem_cons]
    exact ⟨by decide, by decide, by decide, by decide, hhigh, hhex, by simp⟩
  · simpa [Text.Plain] using h

lemma plain_quote {s : String} (h : Text.Plain s.toList) : Text.Plain (quote s).toList := by
  simp only [quote, String.toList_append, String.toList_ofList, plain_append]
  exact ⟨⟨by decide, plain_flatMap fun c hc => plain_escapeChar (h c hc)⟩, by decide⟩

mutual

/-- The JSON text of a value has no angle brackets but those of the value. -/
theorem plain_print : ∀ {v : Value}, v.Plain → Text.Plain (print v).toList
  | .null, _ => by decide
  | .bool true, _ => by decide
  | .bool false, _ => by decide
  | .num n, _ => n.plain_text
  | .str s, h => plain_quote h
  | .arr items, h => by
    simp only [print, String.toList_append, plain_append]
    exact ⟨⟨by decide, plain_printItems h⟩, by decide⟩
  | .obj entries, h => by
    simp only [print, String.toList_append, plain_append]
    exact ⟨⟨by decide, plain_printEntries h⟩, by decide⟩

theorem plain_printItems : ∀ {items : List Value}, Value.PlainItems items →
    Text.Plain (printItems items).toList
  | [], _ => by decide
  | [v], h => plain_print h.1
  | v :: w :: rest, h => by
    simp only [printItems, String.toList_append, plain_append]
    exact ⟨⟨plain_print h.1, by decide⟩, plain_printItems h.2⟩

theorem plain_printEntries : ∀ {entries : List (String × Value)}, Value.PlainEntries entries →
    Text.Plain (printEntries entries).toList
  | [], _ => by decide
  | [(k, v)], h => by
    simp only [printEntries, String.toList_append, plain_append]
    exact ⟨⟨plain_quote h.1, by decide⟩, plain_print h.2.1⟩
  | (k, v) :: e :: rest, h => by
    simp only [printEntries, String.toList_append, plain_append]
    exact ⟨⟨⟨⟨plain_quote h.1, by decide⟩, plain_print h.2.1⟩, by decide⟩,
      plain_printEntries h.2.2⟩

end

end Json

namespace Value

/-- The text of a value has no angle brackets but those of the value. -/
lemma Plain.text {v : Value} (h : v.Plain) : Text.Plain v.text.toList := by
  cases v with
  | null => decide
  | bool b => cases b <;> decide
  | num n => exact n.plain_text
  | str s => exact h
  | arr items => exact Json.plain_print h
  | obj entries => exact Json.plain_print h

lemma PlainItems.getElem? {items : List Value} (h : PlainItems items) {i : ℕ} {v : Value}
    (hv : items[i]? = some v) : v.Plain := by
  induction items generalizing i with
  | nil => simp at hv
  | cons w rest ih =>
    cases i with
    | zero =>
      rw [List.getElem?_cons_zero, Option.some.injEq] at hv
      exact hv ▸ h.1
    | succ i => exact ih h.2 (by simpa using hv)

lemma PlainEntries.of_mem {entries : Mapping} (h : PlainEntries entries) {e : String × Value}
    (he : e ∈ entries) : Text.Plain e.1.toList ∧ e.2.Plain := by
  induction entries with
  | nil => simp at he
  | cons d rest ih =>
    rcases List.mem_cons.mp he with rfl | he
    · exact ⟨h.1, h.2.1⟩
    · exact ih h.2.2 he

lemma PlainEntries.find? {entries : Mapping} (h : PlainEntries entries) {key : String} {v : Value}
    (hv : Mapping.find? entries key = some v) : v.Plain := by
  induction entries with
  | nil => simp [Mapping.find?] at hv
  | cons e rest ih =>
    rw [Mapping.find?] at hv
    split at hv
    · exact Option.some.inj hv ▸ h.2.1
    · exact ih h.2.2 hv

/-- The child of a value under a component. -/
lemma Plain.child? {v w : Value} (h : v.Plain) {component : String}
    (hw : v.child? component = some w) : w.Plain := by
  cases v with
  | arr items =>
    obtain ⟨i, -, hi⟩ := Option.bind_eq_some_iff.mp hw
    exact PlainItems.getElem? h hi
  | obj entries => exact PlainEntries.find? h hw
  | _ => simp [Value.child?] at hw

/-- What is found along a path. -/
lemma Plain.lookup? {v w : Value} (h : v.Plain) {path : List String}
    (hw : v.lookup? path = some w) : w.Plain := by
  induction path generalizing v with
  | nil => exact Option.some.inj hw ▸ h
  | cons component rest ih =>
    obtain ⟨u, hu, hw⟩ := Option.bind_eq_some_iff.mp hw
    exact ih (h.child? hu) hw

lemma PlainEntries.lookup? {entries : Mapping} (h : PlainEntries entries) {path : List String}
    {w : Value} (hw : Mapping.lookup? entries path = some w) : w.Plain := by
  cases path with
  | nil => simp [Mapping.lookup?] at hw
  | cons component rest =>
    obtain ⟨u, hu, hw⟩ := Option.bind_eq_some_iff.mp hw
    exact (h.find? hu).lookup? hw

end Value

/-! ### Tokens -/

/-- Whether no string and no key below the entry `env` of a configuration has
angle brackets. -/
def Store.Plain (config : Store) : Prop := ∀ v, config.env? = some v → v.Plain

namespace Scope

/-- Whether the data of a node has no angle brackets. -/
def Plain : Scope → Prop
  | .empty => True
  | .value v => v.Plain
  | .text content => Text.Plain content.toList
  | .element _ attributes => Value.PlainEntries attributes

variable {config : Store} {scope : Scope}

lemma Plain.lookup? (h : scope.Plain) {path : List String} {s : String}
    (hs : scope.lookup? path = some s) : Text.Plain s.toList := by
  cases scope with
  | empty => simp [Scope.lookup?] at hs
  | value v =>
    obtain ⟨w, hw, rfl⟩ := Option.map_eq_some_iff.mp hs
    exact (Value.Plain.lookup? h hw).text
  | text content =>
    rw [Scope.lookup?, Option.ite_none_right_eq_some] at hs
    exact Option.some.inj hs.2 ▸ h
  | element tag attributes =>
    cases path with
    | nil => simp [Scope.lookup?] at hs
    | cons first rest =>
      rw [Scope.lookup?] at hs
      split_ifs at hs with htag hrest
      · exact Option.some.inj hs ▸ Json.plain_print h
      · obtain ⟨w, hw, rfl⟩ := Option.map_eq_some_iff.mp hs
        exact (Value.PlainEntries.lookup? h hw).text

/-- A path into the configuration leads below its entry `env`. -/
lemma plain_get? (hc : config.Plain) {path : String} (henv : isEnvPath path = true) {v : Value}
    (hv : config.get? path = some v) : v.Plain := by
  obtain ⟨rest, hsplit⟩ := split_of_isEnvPath henv
  rw [Store.get?, hsplit] at hv
  obtain ⟨w, hw, hv⟩ := Option.bind_eq_some_iff.mp hv
  exact (hc w hw).lookup? hv

/-- The text of a token. -/
lemma plain_resolve? (hc : config.Plain) (h : scope.Plain) {path s : String}
    (hs : scope.resolve? config path = some s) : Text.Plain s.toList := by
  obtain ⟨t, ht, rfl⟩ := Option.map_eq_some_iff.mp hs
  refine Text.Plain.trim ?_
  split_ifs at ht with henv
  · obtain ⟨v, hv, rfl⟩ := Option.map_eq_some_iff.mp ht
    exact (plain_get? hc henv hv).text
  · exact h.lookup? ht

/-- A text with its tokens replaced. -/
lemma plain_interpolate (hc : config.Plain) (h : scope.Plain) {s : String}
    (hs : Text.Plain s.toList) : Text.Plain (scope.interpolate config s).toList := by
  rw [interpolate, Placeholder.substitute_eq, String.toList_ofList]
  refine plain_flatMap fun piece hpiece => ?_
  cases piece with
  | char c =>
    refine hs.of_subset fun d hd => ?_
    rw [← Placeholder.raw_pieces s.toList]
    exact List.mem_flatMap.mpr ⟨.char c, hpiece, hd⟩
  | token t =>
    show Text.Plain ((scope.resolve? config t.key).getD "").toList
    cases ht : scope.resolve? config t.key with
    | none => decide
    | some text => exact plain_resolve? hc h ht

end Scope

/-! ### Attributes -/

namespace Html

/-- A quoted value has no angle brackets, whatever it is. -/
lemma plain_escape (s : String) : Plain (escape s).toList := by
  rw [escape, String.toList_ofList]
  refine plain_flatMap fun c _ => ?_
  rw [escapeChar]
  split_ifs with _ _ hlt hgt
  · decide
  · decide
  · decide
  · decide
  · simp [Plain, hlt, hgt]

end Html

namespace Renderer

variable {config : Store} {scope : Scope}

/-- An attribute is written without angle brackets, whatever its value is. -/
lemma plain_writeAttribute {name : String} (h : Plain name.toList) (v : Value) :
    Plain (writeAttribute config scope name v).toList := by
  rw [writeAttribute]
  split
  · split
    · decide
    · rw [String.toList_append, plain_append]
      exact ⟨by decide, h⟩
    · simp only [String.toList_append, plain_append]
      exact ⟨⟨⟨⟨by decide, h⟩, by decide⟩, Html.plain_escape _⟩, by decide⟩
  · decide

/-- Attributes are written without angle brackets, whatever their values are. -/
lemma plain_attributes (tag : String) {m : Mapping} (h : ∀ a ∈ m, Plain a.1.toList) :
    Plain (attributes config tag m).toList := by
  refine plain_join fun s hs => ?_
  obtain ⟨a, ha, rfl⟩ := List.mem_map.mp hs
  exact plain_writeAttribute (h a ha) a.2

end Renderer

/-! ### Style rules -/

namespace StyleRule

mutual

/-- Whether a rule has no angle brackets: not in its selector, the names and
values of its declarations, the rules inside it, or its literal text. -/
def Plain : StyleRule → Prop
  | .raw css => Text.Plain css.toList
  | .block selector declarations nested =>
    Text.Plain selector.toList ∧ Value.PlainEntries declarations ∧ PlainAll nested

/-- Whether some rules have no angle brackets. -/
def PlainAll : List StyleRule → Prop
  | [] => True
  | rule :: rest => Plain rule ∧ PlainAll rest

end

/-- The text of the value of a declaration. -/
lemma plain_declarationText? {v : Value} (h : v.Plain) {s : String}
    (hs : declarationText? v = some s) : Text.Plain s.toList := by
  cases v with
  | str text => exact Option.some.inj hs ▸ h
  | num n => exact Option.some.inj hs ▸ Json.plain_print h
  | bool b => exact Option.some.inj hs ▸ Json.plain_print h
  | _ => simp [declarationText?] at hs

lemma plain_writeDeclarations {declarations : Mapping} (h : Value.PlainEntries declarations) :
    Text.Plain (writeDeclarations declarations).toList := by
  refine plain_join fun s hs => ?_
  obtain ⟨d, hd, rfl⟩ := List.mem_map.mp hs
  obtain ⟨hname, hvalue⟩ := h.of_mem hd
  split
  · next text htext =>
    simp only [String.toList_append, plain_append]
    exact ⟨⟨⟨hname, by decide⟩, plain_declarationText? hvalue htext⟩, by decide⟩
  · decide

mutual

theorem Plain.write : ∀ {rule : StyleRule}, rule.Plain → Text.Plain rule.write.toList
  | .raw css, h => h
  | .block selector declarations nested, h => by
    simp only [StyleRule.write, String.toList_append, plain_append]
    exact ⟨⟨⟨⟨h.1, by decide⟩, plain_writeDeclarations h.2.1⟩, PlainAll.writeAll h.2.2⟩, by decide⟩

theorem PlainAll.writeAll : ∀ {rules : List StyleRule}, PlainAll rules →
    Text.Plain (StyleRule.writeAll rules).toList
  | [], _ => by decide
  | rule :: rest, h => by
    simp only [StyleRule.writeAll, String.toList_append, plain_append]
    exact ⟨Plain.write h.1, PlainAll.writeAll h.2⟩

end

end StyleRule

/-! ### Trees -/

namespace Node

mutual

/-- Whether a tree has no angle brackets, the values of the attributes of its
elements aside. -/
def Plain : Node → Prop
  | .doctype children => PlainAll children
  | .text content => Text.Plain content.toList
  | .element tag attributes children =>
    Text.Plain tag.toList ∧ (∀ a ∈ attributes, Text.Plain a.1.toList) ∧ PlainAll children
  | .style sheet => Value.PlainEntries sheet.attributes ∧ StyleRule.PlainAll sheet.rules
  | .template _ => True

/-- Whether some trees have no angle brackets, the values of the attributes of
their elements aside. -/
def PlainAll : List Node → Prop
  | [] => True
  | node :: rest => Plain node ∧ PlainAll rest

end

end Node

end PageTree
