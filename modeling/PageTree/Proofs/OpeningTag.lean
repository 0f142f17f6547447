/-
Opening tags, read back from the text of a node.

An opening tag is read as HTML reads it, from left to right: the name of an
attribute ends at a blank, an equals sign, a slash or a closing bracket, a quoted
value ends at its quote, and the tag ends at the first closing bracket outside a
quoted value. Values are quoted and have no quotes of their own, so they cannot
end their attribute. Keys are written as they are, and only the start of a key
is looked at when it is that of a data or an accessibility attribute: a key with
a blank in it is read as two attributes.

* `Html.IsName`: whether a text is the name of one attribute;
* `OpeningTag.read?`: the tag at the start of a text, and what follows it;
* `OpeningTag.Rests.moves_all`: the attributes of a tag are read one by one;
* `OpeningTag.named_of_run`: what is read as a name, whatever the text is;
* `Renderer.read?_opening_iff`: **the attributes that reach a page**, when they
  are read as those of the element;
* `Renderer.not_isAllowed_of_read?`: a key that brings in an event handler.
-/
import PageTree.Proofs.Outline

namespace PageTree

namespace Html

open Text

/-! ### Names of attributes -/

/-- Whether the name of an attribute ends before a character. -/
def endsAttribute (c : Char) : Bool := isAsciiBlank c || c = '=' || c = '/' || c = '>'

/-- Whether a text is the name of one attribute. -/
def IsName (name : String) : Prop := name ≠ "" ∧ ∀ c ∈ name.toList, endsAttribute c = false

instance (name : String) : Decidable (IsName name) :=
  have : Decidable (∀ c ∈ name.toList, endsAttribute c = false) :=
    List.decidableBAll (fun c => endsAttribute c = false) name.toList
  inferInstanceAs (Decidable (_ ∧ _))

lemma endsAttribute_of_isAlphanum {c : Char} (h : c.isAlphanum = true) :
    endsAttribute c = false := by
  have hends : isAsciiBlank c = false ∧ c ≠ '/' := by
    simpa [Outline.endsName] using Outline.endsName_of_isAlphanum h
  simp [endsAttribute, hends, ne_of_isAlphanum h (show '='.isAlphanum = false from rfl),
    ne_of_isAlphanum h (show '>'.isAlphanum = false from rfl)]

lemma exists_cons_of_head? {p : Char → Bool} {cs : List Char} (h : cs.head?.any p = true) :
    ∃ c rest, cs = c :: rest ∧ p c = true := by
  cases cs with
  | nil => simp at h
  | cons c rest => exact ⟨c, rest, rfl, h⟩

/-- An attribute that may be written starts with a letter. -/
lemma exists_cons_of_isAllowed {name : String} (h : isAllowed name = true) :
    ∃ c cs, name.toList = c :: cs ∧ c.isAlphanum = true := by
  have htable : knownAttributes.all (fun k => k.toList.head?.any Char.isAlphanum) = true := by
    decide +kernel
  refine exists_cons_of_head? ?_
  rw [isAllowed, Bool.or_eq_true, Bool.or_eq_true, decide_eq_true_eq,
    List.isPrefixOf_iff_prefix, List.isPrefixOf_iff_prefix] at h
  rcases h with (hknown | ⟨rest, hdata⟩) | ⟨rest, haria⟩
  · exact List.all_eq_true.mp htable name hknown
  · rw [← hdata]
    rfl
  · rw [← haria]
    rfl

/-- A known tag starts with a letter. -/
lemma exists_cons_of_kind? {tag : String} {k : TagKind} (h : kind? tag = some k) :
    ∃ c cs, tag.toList = c :: cs ∧ c.isAlpha = true := by
  have htable : (voidTags ++ normalTags).all (fun t => t.toList.head?.any Char.isAlpha) = true := by
    decide +kernel
  exact exists_cons_of_head? (List.all_eq_true.mp htable tag (Outline.mem_of_kind? h))

/-- A quoted value has no quotes, whatever it is. -/
lemma quote_notMem_escape (s : String) : '"' ∉ (escape s).toList := by
  rw [escape, String.toList_ofList]
  intro hmem
  obtain ⟨c, -, hc⟩ := List.mem_flatMap.mp hmem
  rw [escapeChar] at hc
  split_ifs at hc with _ hquote
  · exact absurd hc (by decide)
  · exact absurd hc (by decide)
  · exact absurd hc (by decide)
  · exact absurd hc (by decide)
  · exact hquote (List.mem_singleton.mp hc).symm

end Html

/-! ### Reading an opening tag -/

/-- An opening tag: its name, and its attributes, each with the text between its
quotes if it has a value. -/
structure OpeningTag where
  tag : String
  attributes : List (String × Option String)
deriving DecidableEq

namespace OpeningTag

open Text Html

/-- A tag with one more attribute. -/
def add (t : OpeningTag) (name : List Char) (value? : Option (List Char)) : OpeningTag :=
  { t with attributes := t.attributes ++ [(String.ofList name, value?.map String.ofList)] }

/-- A reader of an opening tag: where it stands, and what it has read. -/
inductive Reader where
  /-- In the name of the tag. -/
  | tag (name : List Char)
  /-- Before an attribute. -/
  | between (t : OpeningTag)
  /-- In the name of an attribute. -/
  | naming (t : OpeningTag) (name : List Char)
  /-- After the name of an attribute and a blank. -/
  | afterName (t : OpeningTag) (name : List Char)
  /-- Before the value of an attribute. -/
  | beforeValue (t : OpeningTag) (name : List Char)
  /-- In a value between quotes. -/
  | quoted (t : OpeningTag) (name : List Char) (quote : Char) (value : List Char)
  /-- In a value without quotes. -/
  | unquoted (t : OpeningTag) (name : List Char) (value : List Char)

/-- What a character leads to: the tag goes on, or it is closed. -/
inductive Move where
  | more (r : Reader)
  | closed (t : OpeningTag)

/-- Reads a character. -/
def Reader.step : Reader → Char → Move
  | .tag name, c =>
    if c = '>' then .closed ⟨String.ofList name, []⟩
    else if isAsciiBlank c ∨ c = '/' then .more (.between ⟨String.ofList name, []⟩)
    else .more (.tag (name ++ [c]))
  | .between t, c =>
    if c = '>' then .closed t
    else if isAsciiBlank c ∨ c = '/' then .more (.between t)
    else .more (.naming t [c])
  | .naming t name, c =>
    if c = '>' then .closed (t.add name none)
    else if c = '=' then .more (.beforeValue t name)
    else if c = '/' then .more (.between (t.add name none))
    else if isAsciiBlank c then .more (.afterName t name)
    else .more (.naming t (name ++ [c]))
  | .afterName t name, c =>
    if c = '>' then .closed (t.add name none)
    else if c = '=' then .more (.beforeValue t name)
    else if c = '/' then .more (.between (t.add name none))
    else if isAsciiBlank c then .more (.afterName t name)
    else .more (.naming (t.add name none) [c])
  | .beforeValue t name, c =>
    if c = '>' then .closed (t.add name (some []))
    else if c = '"' ∨ c = '\'' then .more (.quoted t name c [])
    else if isAsciiBlank c then .more (.beforeValue t name)
    else .more (.unquoted t name [c])
  | .quoted t name quote value, c =>
    if c = quote then .more (.between (t.add name (some value)))
    else .more (.quoted t name quote (value ++ [c]))
  | .unquoted t name value, c =>
    if c = '>' then .closed (t.add name (some value))
    else if isAsciiBlank c then .more (.between (t.add name (some value)))
    else .more (.unquoted t name (value ++ [c]))

/-- Reads up to the end of the tag, which must be there. -/
def Reader.run (r : Reader) : List Char → Option (OpeningTag × List Char)
  | [] => none
  | c :: rest =>
    match r.step c with
    | .more r => r.run rest
    | .closed t => some (t, rest)

/-- The opening tag at the start of a text, and the text behind it. -/
def read? (text : String) : Option (OpeningTag × String) :=
  match text.toList with
  | '<' :: c :: rest =>
    if c.isAlpha then ((Reader.tag [c]).run rest).map fun r => (r.1, String.ofList r.2) else none
  | _ => none

/-! ### Moves -/

/-- Whether a text leads a reader to another place inside its tag. -/
def Moves (r : Reader) (cs : List Char) (r' : Reader) : Prop :=
  ∀ rest, r.run (cs ++ rest) = r'.run rest

variable {r r' r'' : Reader} {t : OpeningTag} {as bs : List Char}

lemma Moves.nil (r : Reader) : Moves r [] r := fun _ => rfl

lemma Moves.cons {c : Char} (hstep : r.step c = .more r') (h : Moves r' as r'') :
    Moves r (c :: as) r'' := by
  intro rest
  rw [List.cons_append, Reader.run, hstep]
  exact h rest

lemma Moves.append (h : Moves r as r') (h' : Moves r' bs r'') : Moves r (as ++ bs) r'' := by
  intro rest
  rw [List.append_assoc, h, h']

/-- A text in the name of a tag. -/
lemma moves_tag {cs : List Char} (h : ∀ c ∈ cs, c.isAlphanum = true) (name : List Char) :
    Moves (.tag name) cs (.tag (name ++ cs)) := by
  induction cs generalizing name with
  | nil => rw [List.append_nil]; exact .nil _
  | cons c cs ih =>
    have hends : isAsciiBlank c = false ∧ c ≠ '/' := by
      simpa [Outline.endsName] using Outline.endsName_of_isAlphanum (h c List.mem_cons_self)
    have hclose : c ≠ '>' := ne_of_isAlphanum (h c List.mem_cons_self) rfl
    have hstep : (Reader.tag name).step c = .more (.tag (name ++ [c])) := by
      simp [Reader.step, hends, hclose]
    rw [List.append_cons]
    exact .cons hstep (ih (fun d hd => h d (List.mem_cons_of_mem c hd)) (name ++ [c]))

/-- A text in the name of an attribute. -/
lemma moves_name {cs : List Char} (h : ∀ c ∈ cs, endsAttribute c = false) (t : OpeningTag)
    (name : List Char) : Moves (.naming t name) cs (.naming t (name ++ cs)) := by
  induction cs generalizing name with
  | nil => rw [List.append_nil]; exact .nil _
  | cons c cs ih =>
    have hends := h c List.mem_cons_self
    simp only [endsAttribute, Bool.or_eq_false_iff, decide_eq_false_iff_not] at hends
    have hstep : (Reader.naming t name).step c = .more (.naming t (name ++ [c])) := by
      simp [Reader.step, hends]
    rw [List.append_cons]
    exact .cons hstep (ih (fun d hd => h d (List.mem_cons_of_mem c hd)) (name ++ [c]))

/-- A text in a value between quotes. -/
lemma moves_quoted {quote : Char} {cs : List Char} (h : quote ∉ cs) (t : OpeningTag)
    (name value : List Char) :
    Moves (.quoted t name quote value) cs (.quoted t name quote (value ++ cs)) := by
  induction cs generalizing value with
  | nil => rw [List.append_nil]; exact .nil _
  | cons c cs ih =>
    rw [List.mem_cons, not_or] at h
    have hstep : (Reader.quoted t name quote value).step c =
        .more (.quoted t name quote (value ++ [c])) := by
      simp [Reader.step, Ne.symm h.1]
    rw [List.append_cons]
    exact .cons hstep (ih h.2 (value ++ [c]))

/-! ### Attributes, one by one -/

/-- Whether a reader stands where an attribute or the end of the tag may come,
and `t` is what it has read. -/
inductive Rests : Reader → OpeningTag → Prop
  | tag (name : List Char) : Rests (.tag name) ⟨String.ofList name, []⟩
  | between (t : OpeningTag) : Rests (.between t) t
  | naming (t : OpeningTag) (name : List Char) : Rests (.naming t name) (t.add name none)

/-- A closing bracket ends the tag. -/
lemma Rests.run_close (h : Rests r t) (rest : List Char) : r.run ('>' :: rest) = some (t, rest) := by
  cases h <;> rfl

/-- A slash before the closing bracket is passed over. -/
lemma Rests.run_slash (h : Rests r t) (rest : List Char) :
    r.run ('/' :: '>' :: rest) = some (t, rest) := by
  cases h <;> rfl

/-- The name of the next attribute, after a blank. -/
lemma Rests.moves_name (h : Rests r t) {name : String} (hname : IsName name) :
    Moves r (' ' :: name.toList) (.naming t name.toList) := by
  obtain ⟨hne, hends⟩ := hname
  obtain ⟨c, cs, hcs⟩ := List.exists_cons_of_ne_nil (show name.toList ≠ [] by simpa using hne)
  rw [hcs] at hends ⊢
  have hc := hends c List.mem_cons_self
  simp only [endsAttribute, Bool.or_eq_false_iff, decide_eq_false_iff_not] at hc
  have hrest : Moves (.naming t [c]) cs (.naming t (c :: cs)) :=
    OpeningTag.moves_name (fun d hd => hends d (List.mem_cons_of_mem c hd)) t [c]
  cases h with
  | tag cs =>
    have hblank : (Reader.tag cs).step ' ' = .more (.between ⟨String.ofList cs, []⟩) := rfl
    exact .cons hblank (.cons (by simp [Reader.step, hc]) hrest)
  | between t =>
    have hblank : (Reader.between t).step ' ' = .more (.between t) := rfl
    exact .cons hblank (.cons (by simp [Reader.step, hc]) hrest)
  | naming t n =>
    have hblank : (Reader.naming t n).step ' ' = .more (.afterName t n) := rfl
    exact .cons hblank (.cons (by simp [Reader.step, hc]) hrest)

/-- An attribute as it stands in a tag, after a blank. -/
def attributeText (a : String × Option String) : String :=
  match a.2 with
  | none => " " ++ a.1
  | some value => " " ++ a.1 ++ "=\"" ++ value ++ "\""

/-- An attribute is read as it is, if its key is a name and its value has no
quotes. -/
lemma Rests.moves_attribute (h : Rests r t) {a : String × Option String} (hname : IsName a.1)
    (hvalue : ∀ value, a.2 = some value → '"' ∉ value.toList) :
    ∃ r', Moves r (attributeText a).toList r' ∧
      Rests r' { t with attributes := t.attributes ++ [a] } := by
  obtain ⟨name, value?⟩ := a
  have hread := h.moves_name hname
  cases value? with
  | none =>
    refine ⟨.naming t name.toList, by simpa [attributeText] using hread, ?_⟩
    have hrests := Rests.naming t name.toList
    simpa [add] using hrests
  | some value =>
    have hquoted : Moves (.quoted t name.toList '"' []) value.toList
        (.quoted t name.toList '"' value.toList) :=
      moves_quoted (hvalue value rfl) t name.toList []
    have hend : Moves (.quoted t name.toList '"' value.toList) ['"']
        (.between (t.add name.toList (some value.toList))) := .cons rfl (.nil _)
    have hopen : Moves (.naming t name.toList) ['=', '"'] (.quoted t name.toList '"' []) :=
      .cons rfl (.cons rfl (.nil _))
    refine ⟨.between (t.add name.toList (some value.toList)), ?_, ?_⟩
    · simpa [attributeText] using ((hread.append hopen).append hquoted).append hend
    · have hrests := Rests.between (t.add name.toList (some value.toList))
      simpa [add] using hrests

/-- Attributes are read one by one, in order. -/
lemma Rests.moves_all (h : Rests r t) {attributes : List (String × Option String)}
    (hnames : ∀ a ∈ attributes, IsName a.1)
    (hvalues : ∀ a ∈ attributes, ∀ value, a.2 = some value → '"' ∉ value.toList) :
    ∃ r', Moves r (String.join (attributes.map attributeText)).toList r' ∧
      Rests r' { t with attributes := t.attributes ++ attributes } := by
  induction attributes generalizing r t with
  | nil => exact ⟨r, .nil r, by simpa using h⟩
  | cons a rest ih =>
    rw [List.forall_mem_cons] at hnames hvalues
    obtain ⟨r₁, hfirst, hrests⟩ := h.moves_attribute hnames.1 hvalues.1
    obtain ⟨r₂, hmore, hend⟩ := ih hrests hnames.2 hvalues.2
    exact ⟨r₂, by simpa [String.toList_join] using hfirst.append hmore, by simpa using hend⟩

/-! ### What is read as a name -/

/-- Whether nothing after the first character of a name ends a name. -/
def NameTail (name : List Char) : Prop := ∀ c ∈ name.tail, endsAttribute c = false

/-- An attribute that may be written is a name if nothing after its first
character ends one. -/
lemma isName_of_isAllowed {name : String} (h : isAllowed name = true)
    (htail : NameTail name.toList) : IsName name := by
  obtain ⟨c, cs, hcs, hc⟩ := exists_cons_of_isAllowed h
  refine ⟨by rintro rfl; simp at hcs, ?_⟩
  rw [NameTail, hcs] at htail
  rw [hcs, List.forall_mem_cons]
  exact ⟨endsAttribute_of_isAlphanum hc, htail⟩

/-- Whether the names of the attributes of a tag go on up to their ends. -/
def Named (t : OpeningTag) : Prop := ∀ a ∈ t.attributes, NameTail a.1.toList

/-- Whether the names that a reader has read go on up to their ends. -/
def Reader.Named : Reader → Prop
  | .tag _ => True
  | .between t => t.Named
  | .naming t name => t.Named ∧ name ≠ [] ∧ NameTail name
  | .afterName t name | .beforeValue t name | .quoted t name _ _ | .unquoted t name _ =>
    t.Named ∧ NameTail name

/-- Whether the names that were read before a move go on up to their ends. -/
def Move.Named : Move → Prop
  | .more r => r.Named
  | .closed t => t.Named

lemma Named.add (h : t.Named) {name : List Char} (hname : NameTail name)
    (value? : Option (List Char)) : (t.add name value?).Named := by
  intro a ha
  rcases List.mem_append.mp ha with ha | ha
  · exact h a ha
  · obtain rfl := List.mem_singleton.mp ha
    simpa using hname

lemma named_nil (tag : String) : (⟨tag, []⟩ : OpeningTag).Named := by simp [Named]

lemma nameTail_singleton (c : Char) : NameTail [c] := by simp [NameTail]

/-- A step keeps names whole. -/
lemma Reader.named_step (h : r.Named) (c : Char) : (r.step c).Named := by
  cases r with
  | tag name =>
    rw [Reader.step]
    split_ifs
    · exact named_nil _
    · exact named_nil _
    · trivial
  | between t =>
    rw [Reader.step]
    split_ifs
    · exact h
    · exact h
    · exact ⟨h, by simp, nameTail_singleton c⟩
  | naming t name =>
    obtain ⟨ht, hne, hname⟩ := h
    rw [Reader.step]
    split_ifs with hclose hequals hslash hblank
    · exact ht.add hname none
    · exact ⟨ht, hname⟩
    · exact ht.add hname none
    · exact ⟨ht, hname⟩
    · have hc : endsAttribute c = false := by simp [endsAttribute, hclose, hequals, hslash, hblank]
      refine ⟨ht, by simp, fun d hd => ?_⟩
      rw [List.tail_append_of_ne_nil hne, List.mem_append, List.mem_singleton] at hd
      rcases hd with hd | rfl
      · exact hname d hd
      · exact hc
  | afterName t name =>
    obtain ⟨ht, hname⟩ := h
    rw [Reader.step]
    split_ifs
    · exact ht.add hname none
    · exact ⟨ht, hname⟩
    · exact ht.add hname none
    · exact ⟨ht, hname⟩
    · exact ⟨ht.add hname none, by simp, nameTail_singleton c⟩
  | beforeValue t name =>
    obtain ⟨ht, hname⟩ := h
    rw [Reader.step]
    split_ifs
    · exact ht.add hname (some [])
    · exact ⟨ht, hname⟩
    · exact ⟨ht, hname⟩
    · exact ⟨ht, hname⟩
  | quoted t name quote value =>
    obtain ⟨ht, hname⟩ := h
    rw [Reader.step]
    split_ifs
    · exact ht.add hname (some value)
    · exact ⟨ht, hname⟩
  | unquoted t name value =>
    obtain ⟨ht, hname⟩ := h
    rw [Reader.step]
    split_ifs
    · exact ht.add hname (some value)
    · exact ht.add hname (some value)
    · exact ⟨ht, hname⟩

/-- Whatever a text is, no name is read past its end. -/
lemma named_of_run (h : r.Named) {cs rest : List Char} (hrun : r.run cs = some (t, rest)) :
    t.Named := by
  induction cs generalizing r with
  | nil => simp [Reader.run] at hrun
  | cons c cs ih =>
    have hstep := Reader.named_step h c
    rw [Reader.run] at hrun
    cases hmove : r.step c with
    | more r' =>
      rw [hmove] at hrun hstep
      exact ih hstep hrun
    | closed t' =>
      rw [hmove] at hrun hstep
      obtain ⟨rfl, -⟩ := Prod.mk.inj (Option.some.inj hrun)
      exact hstep

/-- Whatever a text is, no name is read past its end. -/
lemma named_of_read? {text rest : String} (h : read? text = some (t, rest)) : t.Named := by
  rw [read?] at h
  split at h
  · next c cs _ =>
    rw [Option.ite_none_right_eq_some] at h
    obtain ⟨-, h⟩ := h
    obtain ⟨⟨t', rest'⟩, hrun, h⟩ := Option.map_eq_some_iff.mp h
    obtain ⟨rfl, -⟩ := Prod.mk.inj h
    have hstart : (Reader.tag [c]).Named := trivial
    exact named_of_run hstart hrun
  · simp at h

/-- A written tag is read back: its name, its attributes in order, and what
stands behind it. -/
lemma read?_written {tag : String} {k : TagKind} (hkind : kind? tag = some k)
    {attributes : List (String × Option String)} (hnames : ∀ a ∈ attributes, IsName a.1)
    (hvalues : ∀ a ∈ attributes, ∀ value, a.2 = some value → '"' ∉ value.toList)
    {closing : String} (hclosing : closing = ">" ∨ closing = "/>") (rest : String) :
    read? ("<" ++ tag ++ String.join (attributes.map attributeText) ++ closing ++ rest) =
      some (⟨tag, attributes⟩, rest) := by
  obtain ⟨c, cs, hcs, halpha⟩ := exists_cons_of_kind? hkind
  have hname : Moves (.tag [c]) cs (.tag tag.toList) := by
    have hletters : ∀ d ∈ cs, d.isAlphanum = true := fun d hd =>
      (Outline.name_of_kind? hkind).2 d (by simp [hcs, hd])
    rw [hcs]
    exact moves_tag hletters [c]
  obtain ⟨r, hmoves, hrests⟩ := (Rests.tag tag.toList).moves_all hnames hvalues
  rw [String.ofList_toList, List.nil_append] at hrests
  have hclose : r.run (closing.toList ++ rest.toList) = some (⟨tag, attributes⟩, rest.toList) := by
    rcases hclosing with rfl | rfl
    · exact hrests.run_close rest.toList
    · exact hrests.run_slash rest.toList
  have hchars : ("<" ++ tag ++ String.join (attributes.map attributeText) ++ closing ++ rest).toList =
      '<' :: c :: (cs ++ (String.join (attributes.map attributeText)).toList ++
        (closing.toList ++ rest.toList)) := by
    simp [hcs]
  simp only [read?, hchars, if_pos halpha, (hname.append hmoves) _, hclose, Option.map_some,
    String.ofList_toList]

end OpeningTag

/-! ### What a node writes -/

/-- Whether a node is written with an opening tag, and from which attributes. -/
inductive Node.Opens : Node → String → Mapping → Prop
  /-- A known element, with what is inside it. -/
  | element {tag : String} {k : Html.TagKind} (hkind : Html.kind? tag = some k) (m : Mapping)
    (children : List Node) : Opens (.element tag m children) tag m
  /-- A style sheet. -/
  | style (sheet : StyleSheet) : Opens (.style sheet) Node.styleKey sheet.attributes

/-- The tag of an opening tag is known. -/
lemma Node.Opens.exists_kind? {node : Node} {tag : String} {m : Mapping} (h : node.Opens tag m) :
    ∃ k, Html.kind? tag = some k := by
  cases h with
  | element hkind m children => exact ⟨_, hkind⟩
  | style sheet => exact ⟨.normal, by decide +kernel⟩

/-- What comes after a part is written behind its text. -/
lemma Written.exists_text_andThen (w : Written) (f : Nesting → Written) :
    ∃ rest, (w.andThen f).text = w.text ++ rest := by
  cases h : w.failure with
  | none =>
    rw [andThen_of_no_failure h]
    exact ⟨_, rfl⟩
  | some e =>
    rw [andThen_of_failure h]
    exact ⟨"", by simp⟩

namespace Renderer

open Html OpeningTag

variable {config : Store} {node : Node} {tag : String} {m : Mapping}

/-- An attribute that is written: its key, and its value as it stands between
quotes if it has one. -/
def written? (config : Store) (scope : Scope) (a : String × Value) :
    Option (String × Option String) :=
  if isAllowed a.1 then
    (attributeText? config scope a.2).map fun text? =>
      (a.1, text?.map fun text => escape (scope.interpolate config text))
  else none

/-- The attributes of an element that are written, in order. -/
def written (config : Store) (tag : String) (m : Mapping) : List (String × Option String) :=
  m.filterMap (written? config (.element tag m))

lemma writeAttribute_eq (scope : Scope) (a : String × Value) :
    writeAttribute config scope a.1 a.2 =
      ((written? config scope a).map OpeningTag.attributeText).getD "" := by
  rw [writeAttribute, written?]
  split_ifs
  · rcases attributeText? config scope a.2 with _ | _ | text <;> rfl
  · rfl

/-- The text of the attributes of an element is that of the attributes that are
written. -/
lemma attributes_eq (config : Store) (tag : String) (m : Mapping) :
    attributes config tag m = String.join ((written config tag m).map OpeningTag.attributeText) := by
  have hscope : ∀ scope : Scope, ∀ l : Mapping,
      (l.map fun a => writeAttribute config scope a.1 a.2).flatMap String.toList =
        ((l.filterMap (written? config scope)).map OpeningTag.attributeText).flatMap
          String.toList := by
    intro scope l
    induction l with
    | nil => rfl
    | cons a l ih =>
      rw [List.map_cons, List.flatMap_cons, ih, writeAttribute_eq, List.filterMap_cons]
      cases written? config scope a <;> rfl
  rw [String.ext_iff, attributes, String.toList_join, String.toList_join]
  exact hscope (.element tag m) m

/-- What is written is allowed, and its value has no quotes. -/
lemma of_mem_written {a : String × Option String} (h : a ∈ written config tag m) :
    isAllowed a.1 = true ∧ ∀ value, a.2 = some value → '"' ∉ value.toList := by
  obtain ⟨b, -, hb⟩ := List.mem_filterMap.mp h
  rw [written?, Option.ite_none_right_eq_some] at hb
  obtain ⟨hallowed, hb⟩ := hb
  obtain ⟨text?, -, rfl⟩ := Option.map_eq_some_iff.mp hb
  refine ⟨hallowed, fun value hvalue => ?_⟩
  obtain ⟨text, -, rfl⟩ := Option.map_eq_some_iff.mp hvalue
  exact quote_notMem_escape _

/-- The opening tag of an element as it is written. -/
def opening (config : Store) (tag : String) (m : Mapping) : String :=
  "<" ++ tag ++ attributes config tag m ++ if kind? tag = some .void then "/>" else ">"

/-- A known tag is not empty. -/
lemma ne_empty_of_kind? {k : TagKind} (hkind : kind? tag = some k) : tag ≠ "" := by
  rintro rfl
  exact absurd rfl (Outline.name_of_kind? hkind).1

/-- An element with a normal tag is its opening tag, what its children write, and the rest. -/
lemma exists_text_walkNode_normal (hkind : kind? tag = some .normal) (m : Mapping)
    (children : List Node) (config : Store) (e : Nesting → String → Written) (n : Nesting) :
    ∃ rest, (walkNode config e n (.element tag m children)).text =
      opening config tag m ++ ((walk config e n.enterNode children).text ++ rest) := by
  obtain ⟨rest, hrest⟩ := Written.exists_text_andThen
    ((Written.ofText n.enterNode ("<" ++ tag ++ attributes config tag m ++ ">")).andThen
      fun n => walk config e n children) fun n => .ofText n ("</" ++ tag ++ ">")
  refine ⟨rest, ?_⟩
  rw [walkNode, if_neg (ne_empty_of_kind? hkind), opening, hkind, ← String.append_assoc]
  exact hrest

/-- What a node writes starts with its opening tag. -/
lemma exists_text_walkNode (h : node.Opens tag m) (config : Store)
    (e : Nesting → String → Written) (n : Nesting) :
    ∃ rest, (walkNode config e n node).text = opening config tag m ++ rest := by
  cases h with
  | @element tag k hkind m children =>
    cases k with
    | void =>
      rw [walkNode, if_neg (ne_empty_of_kind? hkind), opening, hkind]
      exact ⟨"", by simp [Written.leaveNode, Written.ofText]⟩
    | normal =>
      obtain ⟨rest, hrest⟩ := exists_text_walkNode_normal hkind m children config e n
      exact ⟨_, hrest⟩
  | style sheet =>
    have hkind : kind? Node.styleKey = some .normal := by decide +kernel
    refine ⟨Scope.interpolate config (.element Node.styleKey sheet.attributes)
      (StyleRule.writeAll sheet.rules) ++ "</style>", ?_⟩
    rw [walkNode, opening, hkind]
    simp [Written.leaveNode, Written.ofText, styleSheet, Node.styleKey, String.append_assoc]

/-- **The attributes that reach a page**: only allowed ones are written, and what
a node writes is read as the opening tag with these attributes, in order, followed
by the rest of its text, if and only if each key that is written is a name. -/
theorem read?_opening_iff (h : node.Opens tag m) (config : Store)
    (e : Nesting → String → Written) (n : Nesting) :
    (∀ a ∈ written config tag m, isAllowed a.1 = true) ∧
      ((∃ rest, (walkNode config e n node).text = opening config tag m ++ rest ∧
          read? (walkNode config e n node).text = some (⟨tag, written config tag m⟩, rest)) ↔
        ∀ a ∈ written config tag m, IsName a.1) := by
  refine ⟨fun a ha => (of_mem_written ha).1, ?_, fun hnames => ?_⟩
  · rintro ⟨rest, -, hread⟩ a ha
    exact isName_of_isAllowed (of_mem_written ha).1 (named_of_read? hread a ha)
  · obtain ⟨k, hkind⟩ := h.exists_kind?
    obtain ⟨rest, htext⟩ := exists_text_walkNode h config e n
    have hclosing : (if kind? tag = some .void then "/>" else ">") = ">" ∨
        (if kind? tag = some .void then "/>" else ">") = "/>" := by
      split_ifs <;> simp
    have hvalues : ∀ a ∈ written config tag m, ∀ value, a.2 = some value → '"' ∉ value.toList :=
      fun a ha => (of_mem_written ha).2
    refine ⟨rest, htext, ?_⟩
    rw [htext, opening, attributes_eq]
    exact read?_written hkind hnames hvalues hclosing rest

/-- A link whose data attribute and event handler are values, and a key that is
written without a value. -/
theorem read?_opening_iff_link :
    let config : Store := ⟨[("env", .obj [("home", .str "/>\"")])], true⟩
    let m : Mapping := [("href", .str "\x7b%env.home%\x7d"), ("data-x", .str "\" onclick=\"evil()"),
      ("hidden", .bool true), ("onclick", .str "evil()")]
    let node := Node.element "a" m [.text "Home"]
    node.Opens "a" m ∧
      (∀ a ∈ written config "a" m, isAllowed a.1 = true) ∧
      (∀ a ∈ written config "a" m, IsName a.1) ∧
      ∃ rest, (walkNode config (fun n _ => .ofText n "") .idle node).text =
          opening config "a" m ++ rest ∧
        read? (walkNode config (fun n _ => .ofText n "") .idle node).text =
          some (⟨"a", written config "a" m⟩, rest) := by
  intro config m node
  have hkind : kind? "a" = some .normal := by decide +kernel
  have hopens : node.Opens "a" m := .element hkind m [.text "Home"]
  have hnames : ∀ a ∈ written config "a" m, IsName a.1 := by decide +kernel
  obtain ⟨hallowed, hiff⟩ := read?_opening_iff hopens config (fun n _ => .ofText n "") .idle
  exact ⟨hopens, hallowed, hnames, hiff.mpr hnames⟩

/-- A key is written as it is once it starts like that of a data attribute: after a
blank in it an event handler is read. -/
theorem not_isAllowed_of_read? :
    let node := Node.element "a" [("href", .str "/x"), ("data-x onclick", .str "evil()")] []
    read? (walkNode .empty (fun n _ => .ofText n "") .idle node).text =
        some (⟨"a", [("href", some "/x"), ("data-x", none), ("onclick", some "evil()")]⟩, "</a>") ∧
      isAllowed "onclick" = false := by
  decide +kernel

end Renderer

end PageTree
