/-
The texts of style sheets, read back.

A style sheet is read from left to right: a brace opens a block whose selector is the text
before it, a semicolon ends a declaration, whose property goes up to its first colon, and a
brace closes the block that is open. Blocks nest, and a block has its declarations before the
rules inside it. If these marks stand in no text of the rules, the text of the rules is read as
the rules; a selector may hold colons, since nothing but a semicolon makes a declaration of it.

* `SheetItem`, `SheetItem.ofRules`: what is written of rules;
* `SheetItem.Reader`, `SheetItem.read?`: reading a style sheet;
* `SheetItem.Balanced`, `SheetItem.balanced_of_read?`: what is read has balanced braces;
* `SheetItem.Reads`: a text that adds items and leaves open what was open;
* `StyleRule.Legible`: rules whose texts hold no marks;
* `StyleRule.read?_writeAll`: **the text of rules** is read as the rules.
-/
import PageTree.Style
import PageTree.Proofs.NumberTexts

namespace PageTree

/-- What stands in a style sheet: a declaration, or a block with what stands inside it. -/
inductive SheetItem where
  | declaration (property value : String)
  | block (selector : String) (inside : List SheetItem)

namespace SheetItem

/-! ### What is written of rules -/

/-- The declarations whose values are scalars: strings as they are, and other scalars as JSON. -/
def ofDeclarations (declarations : Mapping) : List SheetItem :=
  (declarations.filter (·.2.isScalar)).map fun d =>
    .declaration d.1 (d.2.asText?.getD (Json.print d.2))

mutual

/-- The blocks of some rules, in order. -/
def ofRules : List StyleRule → List SheetItem
  | [] => []
  | rule :: rest => ofRule rule ++ ofRules rest

/-- The block of a rule: its declarations, and then the rules inside it. -/
def ofRule : StyleRule → List SheetItem
  | .raw _ => []
  | .block selector declarations nested =>
    [.block selector (ofDeclarations declarations ++ ofRules nested)]

end

/-! ### Reading a style sheet -/

/-- The declaration that a text is: its property ends at the first colon. -/
def declaration? (text : List Char) : Option SheetItem :=
  match text.dropWhile (· ≠ ':') with
  | [] => none
  | _ :: value =>
    some (.declaration (String.ofList (text.takeWhile (· ≠ ':'))) (String.ofList value))

/-- A reader of a style sheet: the items that are finished where it stands, the selectors of the
blocks that are open around it, each with what was finished before it, and the text since the
last mark. -/
structure Reader where
  done : List SheetItem
  above : List (String × List SheetItem)
  text : List Char

namespace Reader

/-- Reads a character. A block is closed only where one is open and no text is left over. -/
def step (r : Reader) (c : Char) : Option Reader :=
  if c = '\x7b' then some ⟨[], (String.ofList r.text, r.done) :: r.above, []⟩
  else if c = ';' then (declaration? r.text).map fun d => ⟨r.done ++ [d], r.above, []⟩
  else if c = '\x7d' then
    match r.text, r.above with
    | [], (selector, before) :: above => some ⟨before ++ [.block selector r.done], above, []⟩
    | _, _ => none
  else some { r with text := r.text ++ [c] }

/-- Reads a text. -/
def run (r : Reader) (cs : List Char) : Option Reader := cs.foldlM step r

/-- The items that were read, if no block is open and no text is left over. -/
def finish? (r : Reader) : Option (List SheetItem) :=
  if r.above = [] ∧ r.text = [] then some r.done else none

end Reader

/-- The items of a style sheet. -/
def read? (css : String) : Option (List SheetItem) :=
  ((⟨[], [], []⟩ : Reader).run css.toList).bind Reader.finish?

lemma run_cons (r : Reader) (c : Char) (cs : List Char) :
    r.run (c :: cs) = (r.step c).bind fun r => r.run cs := List.foldlM_cons

lemma run_append (r : Reader) (as bs : List Char) :
    r.run (as ++ bs) = (r.run as).bind fun r => r.run bs := List.foldlM_append

/-! ### Braces -/

/-- Whether every closing brace of a text closes one that was opened before it, and all are
closed at its end. -/
def Balanced (cs : List Char) : Prop :=
  (∀ n, (cs.take n).count '\x7d' ≤ (cs.take n).count '\x7b') ∧ cs.count '\x7d' = cs.count '\x7b'

/-- As many blocks are open as braces are not closed. -/
lemma length_above_of_step {r r' : Reader} {c : Char} (h : r.step c = some r') :
    r'.above.length + [c].count '\x7d' = r.above.length + [c].count '\x7b' := by
  rw [Reader.step] at h
  split_ifs at h with hopen hend hclose
  · cases h
    simp [hopen]
  · obtain ⟨d, -, rfl⟩ := Option.map_eq_some_iff.mp h
    simp [hend]
  · split at h
    · next selector before above htext habove =>
      cases h
      simp [hclose, habove]
    · cases h
  · cases h
    simp [hopen, hclose]

lemma length_above_of_run {r r' : Reader} {cs : List Char} (h : r.run cs = some r') :
    r'.above.length + cs.count '\x7d' = r.above.length + cs.count '\x7b' := by
  induction cs generalizing r with
  | nil =>
    cases h
    rfl
  | cons c cs ih =>
    rw [run_cons] at h
    obtain ⟨between, hstep, hrun⟩ := Option.bind_eq_some_iff.mp h
    have hfirst := length_above_of_step hstep
    have hrest := ih hrun
    rw [← List.singleton_append, List.count_append, List.count_append]
    omega

/-- **Braces** of a style sheet that can be read are balanced. -/
lemma balanced_of_read? {css : String} {items : List SheetItem} (h : read? css = some items) :
    Balanced css.toList := by
  obtain ⟨last, hrun, hfinish⟩ := Option.bind_eq_some_iff.mp h
  have hclosed : last.above = [] := by
    rw [Reader.finish?] at hfinish
    split_ifs at hfinish with hend
    exact hend.1
  refine ⟨fun n => ?_, ?_⟩
  · rw [← List.take_append_drop n css.toList, run_append] at hrun
    obtain ⟨between, hbefore, -⟩ := Option.bind_eq_some_iff.mp hrun
    have hcount := length_above_of_run hbefore
    rw [List.length_nil] at hcount
    omega
  · have hcount := length_above_of_run hrun
    rw [hclosed, List.length_nil] at hcount
    omega

/-! ### Texts that add items -/

/-- Whether a text holds no mark: no brace and no semicolon. -/
def Unmarked (cs : List Char) : Prop := ∀ c ∈ cs, c ≠ '\x7b' ∧ c ≠ '\x7d' ∧ c ≠ ';'

instance (cs : List Char) : Decidable (Unmarked cs) :=
  List.decidableBAll (fun c => c ≠ '\x7b' ∧ c ≠ '\x7d' ∧ c ≠ ';') cs

lemma Unmarked.append {as bs : List Char} (h : Unmarked as) (h' : Unmarked bs) :
    Unmarked (as ++ bs) :=
  List.forall_mem_append.mpr ⟨h, h'⟩

/-- Whether reading a text adds items and leaves the blocks open that were open before. -/
def Reads (cs : List Char) (items : List SheetItem) : Prop :=
  ∀ done above, (⟨done, above, []⟩ : Reader).run cs = some ⟨done ++ items, above, []⟩

lemma Reads.nil : Reads [] [] := by
  intro done above
  rw [List.append_nil]
  rfl

lemma Reads.append {as bs : List Char} {items more : List SheetItem} (h : Reads as items)
    (h' : Reads bs more) : Reads (as ++ bs) (items ++ more) := by
  intro done above
  rw [run_append, h done above, Option.bind_some, h', List.append_assoc]

/-- A text without marks is kept. -/
lemma run_unmarked {cs : List Char} (h : Unmarked cs) (done : List SheetItem)
    (above : List (String × List SheetItem)) (text : List Char) :
    (⟨done, above, text⟩ : Reader).run cs = some ⟨done, above, text ++ cs⟩ := by
  induction cs generalizing text with
  | nil =>
    rw [List.append_nil]
    rfl
  | cons c cs ih =>
    obtain ⟨hopen, hclose, hend⟩ := h c List.mem_cons_self
    have hstep : Reader.step ⟨done, above, text⟩ c = some ⟨done, above, text ++ [c]⟩ := by
      simp only [Reader.step, if_neg hopen, if_neg hclose, if_neg hend]
    have hrest := ih (fun d hd => h d (List.mem_cons_of_mem c hd)) (text ++ [c])
    rw [List.append_assoc] at hrest
    rwa [run_cons, hstep, Option.bind_some]

/-- The property of a declaration is what comes before its first colon. -/
lemma declaration?_append {property : List Char} (h : ':' ∉ property) (value : List Char) :
    declaration? (property ++ ':' :: value) =
      some (.declaration (String.ofList property) (String.ofList value)) := by
  have hkeep : ∀ c ∈ property, decide (c ≠ ':') = true := by
    intro c hc
    rw [decide_eq_true_eq]
    rintro rfl
    exact h hc
  rw [declaration?, List.dropWhile_append_of_pos hkeep, List.takeWhile_append_of_pos hkeep]
  simp

/-- A text with a colon before a semicolon is a declaration. -/
lemma reads_declaration {property value : String} (hproperty : Unmarked property.toList)
    (hcolon : ':' ∉ property.toList) (hvalue : Unmarked value.toList) :
    Reads (property ++ ":" ++ value ++ ";").toList [.declaration property value] := by
  intro done above
  have htext : Unmarked (property.toList ++ ':' :: value.toList) :=
    hproperty.append (List.forall_mem_cons.mpr ⟨by decide, hvalue⟩)
  have hend : Reader.step ⟨done, above, property.toList ++ ':' :: value.toList⟩ ';' =
      some ⟨done ++ [.declaration property value], above, []⟩ := by
    simp only [Reader.step, declaration?_append hcolon, String.ofList_toList]
    rfl
  have hchars : (property ++ ":" ++ value ++ ";").toList =
      (property.toList ++ ':' :: value.toList) ++ [';'] := by
    simp only [String.toList_append, List.append_assoc]
    rfl
  rw [hchars, run_append, run_unmarked htext, Option.bind_some, List.nil_append, run_cons, hend]
  rfl

/-- A text before a brace is the selector of what is read up to the brace that closes it. -/
lemma reads_block {selector : String} (h : Unmarked selector.toList) {inside : String}
    {items : List SheetItem} (hinside : Reads inside.toList items) :
    Reads (selector ++ "\x7b" ++ inside ++ "\x7d").toList [.block selector items] := by
  intro done above
  have hchars : (selector ++ "\x7b" ++ inside ++ "\x7d").toList =
      selector.toList ++ ('\x7b' :: (inside.toList ++ ['\x7d'])) := by
    simp only [String.toList_append, List.append_assoc]
    rfl
  have hopen : Reader.step ⟨done, above, selector.toList⟩ '\x7b' =
      some ⟨[], (selector, done) :: above, []⟩ := by
    rw [Reader.step, if_pos rfl, String.ofList_toList]
  rw [hchars, run_append, run_unmarked h, Option.bind_some, List.nil_append, run_cons, hopen,
    Option.bind_some, run_append, hinside, Option.bind_some, List.nil_append]
  rfl

end SheetItem

/-! ### Rules whose texts hold no marks -/

open SheetItem

lemma Digits.IsDigits.unmarked {ds : List Char} (h : IsDigits ds) : Unmarked ds := by
  intro c hc
  have hdigit := h.2 c hc
  refine ⟨?_, ?_, ?_⟩ <;>
  · rintro rfl
    cases hdigit

/-- Digits, points, exponents and signs are no marks. -/
lemma Json.Literal.unmarked_chars (l : Literal) : Unmarked l.chars := by
  have hfraction : Unmarked (fractionChars l.fraction) := by
    cases hsome : l.fraction with
    | none => exact List.forall_mem_nil _
    | some ds => exact List.forall_mem_cons.mpr ⟨by decide, (l.isDigits_fraction ds hsome).unmarked⟩
  have hexponent : Unmarked (exponentChars l.exponent) := by
    cases l.exponent with
    | none => exact List.forall_mem_nil _
    | some e =>
      refine List.forall_mem_cons.mpr ⟨by decide, List.forall_mem_cons.mpr ⟨?_, ?_⟩⟩
      · split_ifs <;> decide
      · exact (Digits.isDigits_toDigits e.natAbs).unmarked
  exact l.isDigits_whole.unmarked.append (hfraction.append hexponent)

lemma Json.unmarked_number (n : Number) : Unmarked n.text.toList := by
  obtain ⟨negative, l, htext, -⟩ := exists_writtenAs n
  have hsign : Unmarked (if negative then ['-'] else []) := by
    cases negative <;> decide
  rw [htext]
  exact hsign.append l.unmarked_chars

namespace StyleRule

/-- Whether a declaration holds no marks: neither its property nor its value if this is a string,
and its property no colon either. -/
def LegibleDeclaration (d : String × Value) : Prop :=
  Unmarked d.1.toList ∧ ':' ∉ d.1.toList ∧ ∀ text ∈ d.2.asText?, Unmarked text.toList

instance (d : String × Value) : Decidable (LegibleDeclaration d) :=
  inferInstanceAs (Decidable (_ ∧ _))

mutual

/-- Whether the texts of a rule hold no marks: its selector, its declarations and the rules inside
it, none of which is literal text. -/
def Legible : StyleRule → Prop
  | .raw _ => False
  | .block selector declarations nested =>
    Unmarked selector.toList ∧ (∀ d ∈ declarations, LegibleDeclaration d) ∧ LegibleAll nested

/-- Whether the texts of some rules hold no marks. -/
def LegibleAll : List StyleRule → Prop
  | [] => True
  | rule :: rest => Legible rule ∧ LegibleAll rest

end

/-- A value is written if it is a scalar. -/
lemma declarationText?_eq (v : Value) :
    declarationText? v = if v.isScalar then some (v.asText?.getD (Json.print v)) else none := by
  cases v <;> rfl

/-- The text of a declaration without marks holds none either. -/
lemma LegibleDeclaration.unmarked {d : String × Value} (h : LegibleDeclaration d)
    (hscalar : d.2.isScalar = true) : Unmarked (d.2.asText?.getD (Json.print d.2)).toList := by
  obtain ⟨property, value⟩ := d
  cases value with
  | str text => exact h.2.2 text rfl
  | num n => exact Json.unmarked_number n
  | bool b => exact (by decide : ∀ b, Unmarked (Json.print (.bool b)).toList) b
  | null | arr | obj => cases hscalar

/-- Declarations are read in order, those whose values are no scalars being absent. -/
lemma reads_writeDeclarations {declarations : Mapping}
    (h : ∀ d ∈ declarations, LegibleDeclaration d) :
    Reads (writeDeclarations declarations).toList (ofDeclarations declarations) := by
  induction declarations with
  | nil => exact .nil
  | cons d declarations ih =>
    obtain ⟨hd, hrest⟩ := List.forall_mem_cons.mp h
    have hread := ih hrest
    rw [writeDeclarations, ofDeclarations] at hread ⊢
    rw [List.map_cons, String.join_cons, String.toList_append, declarationText?_eq,
      List.filter_cons]
    by_cases hscalar : d.2.isScalar = true
    · rw [if_pos hscalar, if_pos hscalar]
      exact (reads_declaration hd.1 hd.2.1 (hd.unmarked hscalar)).append hread
    · rw [if_neg hscalar, if_neg hscalar]
      exact hread

mutual

/-- The text of a rule is read as its block. -/
theorem Legible.reads_write : ∀ {rule : StyleRule}, rule.Legible →
    Reads rule.write.toList (ofRule rule)
  | .block selector declarations nested, ⟨hselector, hdeclarations, hnested⟩ => by
    have hinside : Reads (writeDeclarations declarations ++ writeAll nested).toList
        (ofDeclarations declarations ++ ofRules nested) := by
      rw [String.toList_append]
      exact (reads_writeDeclarations hdeclarations).append hnested.reads_writeAll
    have hblock := reads_block hselector hinside
    rwa [← String.append_assoc] at hblock

/-- The text of some rules is read as their blocks. -/
theorem LegibleAll.reads_writeAll : ∀ {rules : List StyleRule}, LegibleAll rules →
    Reads (writeAll rules).toList (ofRules rules)
  | [], _ => .nil
  | rule :: rest, ⟨hrule, hrest⟩ => by
    rw [writeAll, ofRules, String.toList_append]
    exact hrule.reads_write.append hrest.reads_writeAll

end

/-- **The text of rules** is read as the rules, and its braces are balanced. -/
theorem read?_writeAll {rules : List StyleRule} (h : LegibleAll rules) :
    Balanced (writeAll rules).toList ∧ read? (writeAll rules) = some (ofRules rules) := by
  have hread : read? (writeAll rules) = some (ofRules rules) := by
    rw [read?, h.reads_writeAll [] []]
    rfl
  exact ⟨balanced_of_read? hread, hread⟩

/-- Colons in selectors, a value that is no scalar, and a rule inside another one. -/
theorem read?_writeAll_media :
    let rules : List StyleRule := [.block "@media (max-width: 600px)" [] [.block "a:hover"
      [("color", .str "url(data:x)"), ("font", .arr []), ("bold", .bool false),
        ("order", .num (.integer (-2) (by decide)))] []]]
    LegibleAll rules ∧ Balanced (writeAll rules).toList ∧
      read? (writeAll rules) = some [.block "@media (max-width: 600px)" [.block "a:hover"
        [.declaration "color" "url(data:x)", .declaration "bold" "false",
          .declaration "order" "-2"]]] := by
  intro rules
  have hlegible : LegibleAll rules :=
    ⟨⟨by decide, by decide, ⟨by decide, by decide, trivial⟩, trivial⟩, trivial⟩
  exact ⟨hlegible, read?_writeAll hlegible⟩

end StyleRule

end PageTree
