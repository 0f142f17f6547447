/-
Attributes that are nothing but a token.

Such an attribute is left out if the token stands for nothing, and if the token is still
there in a finished page, then the attribute is removed together with it. The removal
knows the attribute by the characters in front of the token, and looks back over fewer
characters than may stand in a key: keys that start like data attributes are written
whatever else is in them. Only what is behind the last other character in a key can go,
and it goes if this character is a blank; otherwise the attribute stays without a value.

* `Html.exists_raw_escape`: a token is still one where it stands as a value;
* `not_cutAcross_attribute`, `not_cutAcross_token`: nothing in front of such an
  attribute, or of such a token, runs into it;
* `stripChars_value`: **what is removed** with a token in quotes;
* `strip_attribute`: an attribute in a page, by the characters of its key;
* `not_strip_attribute`: a key that is written and not recognized.
-/
import PageTree.Proofs.Cuts
import PageTree.Proofs.OpeningTag
import PageTree.Proofs.Scan

namespace PageTree

open Placeholder

/-! ### Tokens as values -/

namespace Html

/-- Escaping keeps the marks of tokens. -/
lemma keepsMarks_escapeChar : KeepsMarks escapeChar where
  percent := rfl
  opening := rfl
  closing := rfl
  ne_nil c := by
    rw [escapeChar]
    split_ifs <;> simp
  isKey c h := by
    rw [escapeChar]
    split_ifs
    · decide
    · decide
    · decide
    · decide
    · simpa [IsKey] using h

/-- A token is still one where it stands as a value. -/
lemma exists_raw_escape {t : Token} {k : List Char} (h : t.Proper k) :
    ∃ u k', Token.Proper u k' ∧ (escape t.rawText).toList = u.raw := by
  obtain ⟨u, k', hu, hraw⟩ := keepsMarks_escapeChar.exists_raw h
  exact ⟨u, k', hu, by rw [escape, Token.rawText, String.toList_ofList, String.toList_ofList, hraw]⟩

end Html

/-- An attribute with a string for its value is left out if this is nothing but a token that
stands for nothing. -/
lemma Renderer.writeAttribute_eq_empty_iff {name : String} (hname : Html.isAllowed name = true)
    (config : Store) (scope : Scope) (s : String) :
    writeAttribute config scope name (.str s) = "" ↔ isUnresolved config scope s = true := by
  rw [writeAttribute, if_pos hname, attributeText?]
  cases isUnresolved config scope s with
  | true => simp
  | false => simp

namespace Cleanup

open Text (isAsciiBlank)

variable {as bs l tail : List Char} {c : Char} {t : Token} {k : List Char}

/-! ### Cuts in front of a value -/

/-- An attribute starts with its only blank. -/
lemma AttributeStart.eq_nil_of_append (hl : AttributeStart l) (h : AttributeStart (as ++ l)) :
    as = [] := by
  obtain ⟨blank, name, hblank, -, -, rfl⟩ := hl
  obtain ⟨blank', name', -, -, hname', heq⟩ := h
  cases as with
  | nil => rfl
  | cons d as =>
    have hends : as ++ blank :: name ++ ['=', '"'] = name' ++ ['=', '"'] := by
      rw [← (List.cons.inj heq).2]
      simp
    have hmem : blank ∈ name' := by
      rw [← List.append_cancel_right hends]
      simp
    have hchar := hname' blank hmem
    rw [isNameChar_of_isAsciiBlank hblank] at hchar
    exact absurd hchar Bool.false_ne_true

/-- No cut in front of an attribute whose whole value is a token runs into it. -/
lemma not_cutAcross_attribute (hl : AttributeStart l) (ht : t.Proper k) (as bs : List Char) :
    ¬ CutAcross as (l ++ t.raw ++ ['"'] ++ bs) := by
  rintro ⟨a₁, c₁, c₂, b₂, hcut, h₁, h₂, rfl, heq⟩
  -- it would hold the attribute, whose brace can only come after a start of its own
  obtain ⟨e, rfl⟩ := hcut.inside h₁ h₂ (.quoted hl ht) heq.symm
  have hfront : c₁ ++ (l ++ t.raw ++ ['"'] ++ e) =
      (c₁ ++ l) ++ '\x7b' :: (t.raw.tail ++ ['"'] ++ e) := by simp [Token.raw]
  rw [hfront] at hcut
  exact h₁ (hl.eq_nil_of_append (hcut.attributeStart (by simp [h₁])))

/-- No cut in front of a token runs into it, if no attribute starts there. -/
lemma not_cutAcross_token (ht : t.Proper k) (has : beforeAttribute? as.reverse = none)
    (bs : List Char) : ¬ CutAcross as (t.raw ++ bs) := by
  rintro ⟨a₁, c₁, c₂, b₂, hcut, h₁, h₂, rfl, heq⟩
  -- it would hold the token, and end in front of it with the start of an attribute
  obtain ⟨e, rfl⟩ := hcut.inside h₁ h₂ (.token ht) heq.symm
  have hfront : c₁ ++ (t.raw ++ e) = c₁ ++ '\x7b' :: (t.raw.tail ++ e) := by simp [Token.raw]
  rw [hfront] at hcut
  rw [beforeAttribute?_eq_some_iff.mpr
    ⟨c₁, hcut.attributeStart h₁, List.reverse_append⟩] at has
  simp at has

/-! ### A token in quotes -/

/-- A quote stays, whatever stands behind it. -/
lemma stripChars_quote (bs : List Char) : stripChars ('"' :: bs) = '"' :: stripChars bs := by
  refine stripChars_cons fun k rest hk heq => ?_
  obtain ⟨d, k, rfl⟩ := List.exists_cons_of_ne_nil hk.ne_nil
  exact hk.head_ne_quote k (by rw [(List.cons.inj heq).1])

/-- **What is removed** with a token in front of a quote: the attribute that is found by
looking back from the token, with the quote, and else the token alone. -/
lemma stripChars_value (ht : t.Proper k) (as bs : List Char) :
    stripChars (as ++ (t.raw ++ '"' :: bs)) =
      match beforeAttribute? as.reverse with
      | some before => stripChars before.reverse ++ stripChars bs
      | none => stripChars as ++ '"' :: stripChars bs := by
  cases hlook : beforeAttribute? as.reverse with
  | some before =>
    obtain ⟨l, hl, heq⟩ := beforeAttribute?_eq_some_iff.mp hlook
    obtain rfl : as = before.reverse ++ l := by
      rw [← List.reverse_inj, heq]
      simp
    have hpage : before.reverse ++ l ++ (t.raw ++ '"' :: bs) =
        before.reverse ++ (l ++ t.raw ++ ['"'] ++ bs) := by simp
    rw [hpage]
    exact stripChars_around (.quoted hl ht) (not_cutAcross_attribute hl ht _ _)
  | none =>
    rw [stripChars_around (.token ht) (not_cutAcross_token ht hlook _), stripChars_quote]

/-- The look back ends at the last character that is none of a name. It finds an attribute
if this is a blank with a name behind it. -/
lemma beforeAttribute?_of_name (hc : isNameChar c = false)
    (htail : ∀ d ∈ tail, isNameChar d = true) (as : List Char) :
    beforeAttribute? (as ++ c :: (tail ++ ['=', '"'])).reverse =
      if isAsciiBlank c = true ∧ tail ≠ [] then some as.reverse else none := by
  have hreverse : ∀ d ∈ tail.reverse, isNameChar d = true :=
    fun d hd => htail d (List.mem_reverse.mp hd)
  simp only [List.reverse_append, List.reverse_cons, List.append_assoc, List.cons_append,
    List.nil_append, List.reverse_nil, beforeAttribute?]
  rw [List.takeWhile_append_of_pos hreverse, List.dropWhile_append_of_pos hreverse,
    List.takeWhile_cons_of_neg (by simp [hc]), List.dropWhile_cons_of_neg (by simp [hc])]
  simp [and_comm]

/-! ### Attributes in a page -/

/-- An attribute whose value is a token, by the last character in front of the value that is
none of a name. -/
lemma stripChars_attribute (ht : t.Proper k) (hc : isNameChar c = false)
    (htail : ∀ d ∈ tail, isNameChar d = true) (as bs : List Char) :
    stripChars (as ++ c :: (tail ++ ['=', '"']) ++ (t.raw ++ '"' :: bs)) =
      if isAsciiBlank c = true ∧ tail ≠ [] then stripChars as ++ stripChars bs
      else stripChars (as ++ c :: (tail ++ ['=', '"'])) ++ '"' :: stripChars bs := by
  rw [stripChars_value ht, beforeAttribute?_of_name hc htail]
  split_ifs
  · simp
  · rfl

/-- **An attribute that is nothing but a token**, in any place of a page. It is left out
exactly if the token stands for nothing. If its text has become a token when the tokens of
its value were replaced, then it is written, and goes again with this token if its key is
made up of the characters of names. Otherwise, if the last other character of the key is a
blank with a name behind it, then what is in front of this blank stays; and if it is not,
then the attribute stays, with an empty value. -/
theorem strip_attribute {name s : String} {span : Span} (hname : Html.isAllowed name = true)
    (hs : single? s = some span) :
    (∀ config scope, Renderer.writeAttribute config scope name (.str s) = "" ↔
        scope.resolve? config span.token.key = none) ∧
      (∀ config scope v text, Renderer.attributeText? config scope v = some (some text) →
        scope.interpolate config text = s → Renderer.writeAttribute config scope name v =
          OpeningTag.attributeText (name, some (Html.escape s))) ∧
      ((∀ c ∈ name.toList, isNameChar c = true) → ∀ before after : String,
        strip (before ++ OpeningTag.attributeText (name, some (Html.escape s)) ++ after) =
          strip before ++ strip after) ∧
      ∀ front c tail, name.toList = front ++ c :: tail → isNameChar c = false →
        (∀ d ∈ tail, isNameChar d = true) → ∀ before after : String,
          strip (before ++ OpeningTag.attributeText (name, some (Html.escape s)) ++ after) =
            if isAsciiBlank c = true ∧ tail ≠ [] then
              strip (before ++ " " ++ String.ofList front) ++ strip after
            else strip (before ++ " " ++ name ++ "=\"") ++ "\"" ++ strip after := by
  obtain ⟨⟨⟨k, hk, -⟩, -⟩, hraw⟩ := single?_eq_some_iff.mp hs
  obtain ⟨u, k', hu, hescape⟩ := Html.exists_raw_escape hk
  rw [← hraw] at hescape
  have hpage : ∀ before after : String,
      (before ++ OpeningTag.attributeText (name, some (Html.escape s)) ++ after).toList =
        before.toList ++ ' ' :: (name.toList ++ ['=', '"']) ++ (u.raw ++ '"' :: after.toList) := by
    intro before after
    simp [OpeningTag.attributeText, hescape]
  refine ⟨fun config scope => ?_, fun config scope v text htext hs => ?_,
    fun hchars before after => ?_, fun front c tail hfront hc htail before after => ?_⟩
  · rw [Renderer.writeAttribute_eq_empty_iff hname, Renderer.isUnresolved, hs]
    simp
  · rw [Renderer.writeAttribute, if_pos hname, htext, ← hs]
    rfl
  · have hne : name.toList ≠ [] := by
      obtain ⟨c, cs, hcs, -⟩ := Html.exists_cons_of_isAllowed hname
      simp [hcs]
    rw [strip, hpage, stripChars_attribute hu (by decide) hchars, if_pos ⟨rfl, hne⟩,
      String.ofList_append]
    rfl
  · have hfront' : before.toList ++ ' ' :: (name.toList ++ ['=', '"']) =
        before.toList ++ ' ' :: front ++ c :: (tail ++ ['=', '"']) := by simp [hfront]
    rw [strip, hpage, hfront', stripChars_attribute hu hc htail, ← hfront']
    split_ifs
    · simp [strip]
    · simp [strip, String.append_assoc]

/-- A token with a quote and an ampersand in it, as the value of a data attribute. -/
theorem strip_attribute_quoted :
    let name := "data-x.y"
    let s := "\x7b%a\"&b%\x7d"
    let span : Span := ⟨0, 8, ⟨['a', '"', '&', 'b']⟩⟩
    Html.isAllowed name = true ∧ single? s = some span ∧
      Renderer.writeAttribute .empty .empty name (.str s) = "" ∧
      strip ("<a href=\"/\"" ++ OpeningTag.attributeText (name, some (Html.escape s)) ++ ">") =
        strip "<a href=\"/\"" ++ strip ">" := by
  intro name s span
  have hname : Html.isAllowed name = true := by decide +kernel
  have hs : single? s = some span := by decide +kernel
  have hchars : ∀ c ∈ name.toList, isNameChar c = true := List.all_eq_true.mp (by decide +kernel)
  have hnothing : Scope.empty.resolve? .empty span.token.key = none := by decide +kernel
  obtain ⟨homitted, -, hremoved, -⟩ := strip_attribute hname hs
  exact ⟨hname, hs, (homitted .empty .empty).mpr hnothing, hremoved hchars "<a href=\"/\"" ">"⟩

/-- A data attribute whose key has a letter that is none of ASCII is written, and is still
there when its token has been removed. -/
theorem not_strip_attribute :
    ¬ ∀ name s : String, Html.isAllowed name = true → (single? s).isSome = true →
      ∀ before after : String,
        strip (before ++ OpeningTag.attributeText (name, some (Html.escape s)) ++ after) =
          strip before ++ strip after := by
  intro h
  have hsize := h "data-größe" "\x7b%gone%\x7d" (by decide +kernel) (by decide +kernel) "<a" "></a>"
  revert hsize
  decide +kernel

end Cleanup

end PageTree
