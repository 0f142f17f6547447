/-
The outline of a page.

The tags of a page can be read back from its text: what stands between two angle
brackets is the declaration of the document type, a comment or a tag, every tag
that is not void waits for its closing tag, and the tags nest. Texts bring no
angle brackets into a page if neither the tree nor the configuration has any,
and attributes never do; then the tags that are read are those of the tree.

* `Outline`, `Outline.ofNodes`: the tags of some nodes, each with those inside
  it;
* `Outline.Reader`, `Outline.read?`: reading a page from left to right;
* `Outline.Reads`: a text that adds to the outline and leaves open what was open;
* `Renderer.walk_reads`: the text that a walk writes;
* `Renderer.read?_page`: **the outline of a page** is that of its tree.
-/
import PageTree.Proofs.Plain
import PageTree.Proofs.Walk

namespace PageTree

/-- A tag of a page, with the tags inside it. -/
inductive Outline where
  | branch (tag : String) (inside : List Outline)

namespace Outline

open Text

/-! ### The outline of a tree -/

mutual

/-- The outline of some nodes, in order. -/
def ofNodes : List Node → List Outline
  | [] => []
  | node :: rest => ofNode node ++ ofNodes rest

/-- The outline of a node: a known element or a style sheet is a tag. There is
nothing inside a void element, and nothing at an unknown one. -/
def ofNode : Node → List Outline
  | .doctype children => ofNodes children
  | .element tag _ children =>
    match Html.kind? tag with
    | none => []
    | some .void => [.branch tag []]
    | some .normal => [.branch tag (ofNodes children)]
  | .style _ => [.branch Node.styleKey []]
  | .text _ | .template _ => []

end

/-! ### Reading a page -/

/-- What stands between two angle brackets. -/
inductive Mark where
  /-- An opening tag. -/
  | opening (tag : String)
  /-- A closing tag. -/
  | closing (tag : String)
  /-- The declaration of the document type, or a comment. -/
  | skipped

/-- Whether a text is a comment, less its angle brackets and exclamation
mark. -/
def isComment (cs : List Char) : Bool :=
  "--".toList.isPrefixOf cs && "--".toList.isSuffixOf (cs.drop 2)

/-- Whether the name of a tag ends before a character. -/
def endsName (c : Char) : Bool := isAsciiBlank c || c = '/'

/-- The mark that a text between two angle brackets is. -/
def Mark.ofUnit? : List Char → Option Mark
  | '!' :: rest => if rest = "DOCTYPE html".toList ∨ isComment rest then some .skipped else none
  | '/' :: name => some (.closing (String.ofList name))
  | unit =>
    let name := unit.takeWhile fun c => !endsName c
    if name = [] then none else some (.opening (String.ofList name))

/-- A reader of a page: the outline that is finished where it stands, the tags
that are open around it, each with what was finished before it, and what it has
read since an opening angle bracket. -/
structure Reader where
  done : List Outline
  above : List (String × List Outline)
  unit : Option (List Char)

namespace Reader

/-- Reads a mark. A void tag is finished at once, any other one is open until its
closing tag. -/
def mark (r : Reader) : Mark → Option Reader
  | .skipped => some r
  | .opening tag =>
    if Html.kind? tag = some .void then some { r with done := r.done ++ [.branch tag []] }
    else some { r with done := [], above := (tag, r.done) :: r.above }
  | .closing tag =>
    match r.above with
    | (opened, before) :: above =>
      if opened = tag then some { r with done := before ++ [.branch tag r.done], above := above }
      else none
    | [] => none

/-- Reads a character. An angle bracket stands only where one is due. -/
def step (r : Reader) (c : Char) : Option Reader :=
  match r.unit with
  | none =>
    if c = '<' then some { r with unit := some [] } else if c = '>' then none else some r
  | some unit =>
    if c = '<' then none
    else if c = '>' then (Mark.ofUnit? unit).bind ({ r with unit := none }).mark
    else some { r with unit := some (unit ++ [c]) }

/-- Reads a text. -/
def run (r : Reader) (cs : List Char) : Option Reader := cs.foldlM step r

/-- The outline of what was read, if nothing is open any more. -/
def finish? (r : Reader) : Option (List Outline) :=
  if r.above.isEmpty ∧ r.unit.isNone then some r.done else none

end Reader

/-- The outline of a page. -/
def read? (page : String) : Option (List Outline) :=
  ((⟨[], [], none⟩ : Reader).run page.toList).bind Reader.finish?

/-! ### Texts that add to the outline -/

/-- Whether reading a text adds to the outline and leaves the tags open that were
open before. -/
def Reads (cs : List Char) (os : List Outline) : Prop :=
  ∀ done above, (⟨done, above, none⟩ : Reader).run cs = some ⟨done ++ os, above, none⟩

lemma run_append (r : Reader) (as bs : List Char) :
    r.run (as ++ bs) = (r.run as).bind fun r => r.run bs := List.foldlM_append

lemma Reads.append {as bs : List Char} {os os' : List Outline} (h : Reads as os)
    (h' : Reads bs os') : Reads (as ++ bs) (os ++ os') := by
  intro done above
  rw [run_append, h done above]
  show Reader.run ⟨done ++ os, above, none⟩ bs = _
  rw [h', List.append_assoc]

/-- A text without angle brackets adds nothing. -/
lemma reads_plain {cs : List Char} (h : Plain cs) : Reads cs [] := by
  intro done above
  rw [List.append_nil]
  induction cs with
  | nil => rfl
  | cons c cs ih =>
    obtain ⟨hlt, hgt⟩ := h c List.mem_cons_self
    have hstep : Reader.step ⟨done, above, none⟩ c = some ⟨done, above, none⟩ := by
      simp only [Reader.step, if_neg hlt, if_neg hgt]
    rw [Reader.run, List.foldlM_cons, hstep]
    exact ih fun d hd => h d (List.mem_cons_of_mem c hd)

/-- A text without angle brackets between two of them is kept. -/
lemma run_unit {cs : List Char} (h : Plain cs) (done : List Outline)
    (above : List (String × List Outline)) (unit : List Char) :
    (⟨done, above, some unit⟩ : Reader).run cs = some ⟨done, above, some (unit ++ cs)⟩ := by
  induction cs generalizing unit with
  | nil => rw [List.append_nil]; rfl
  | cons c cs ih =>
    obtain ⟨hlt, hgt⟩ := h c List.mem_cons_self
    have hstep : Reader.step ⟨done, above, some unit⟩ c =
        some ⟨done, above, some (unit ++ [c])⟩ := by
      simp only [Reader.step, if_neg hlt, if_neg hgt]
    rw [Reader.run, List.foldlM_cons, hstep]
    have hrest := ih (fun d hd => h d (List.mem_cons_of_mem c hd)) (unit ++ [c])
    rw [List.append_assoc] at hrest
    exact hrest

/-- What stands between two angle brackets is read as a mark. -/
lemma run_mark {unit : List Char} (h : Plain unit) (done : List Outline)
    (above : List (String × List Outline)) :
    (⟨done, above, none⟩ : Reader).run ('<' :: (unit ++ ['>'])) =
      (Mark.ofUnit? unit).bind (⟨done, above, none⟩ : Reader).mark := by
  have hopen : (⟨done, above, none⟩ : Reader).run ['<'] = some ⟨done, above, some []⟩ := rfl
  rw [← List.singleton_append, run_append, hopen, Option.bind_some, run_append,
    run_unit h done above [], Option.bind_some, List.nil_append]
  show (Reader.step ⟨done, above, some unit⟩ '>').bind some = _
  rw [Option.bind_fun_some]
  simp only [Reader.step]
  rfl

/-- A mark that is skipped adds nothing. -/
lemma reads_skipped {unit : List Char} (h : Plain unit)
    (hmark : Mark.ofUnit? unit = some .skipped) : Reads ('<' :: (unit ++ ['>'])) [] := by
  intro done above
  rw [run_mark h, hmark, List.append_nil]
  rfl

/-! ### Tags -/

/-- The known tags are those of the tables. -/
lemma mem_of_kind? {tag : String} {k : Html.TagKind} (h : Html.kind? tag = some k) :
    tag ∈ Html.voidTags ++ Html.normalTags := by
  rw [Html.kind?] at h
  split_ifs at h with hvoid hnormal
  · exact List.mem_append_left _ hvoid
  · exact List.mem_append_right _ hnormal

/-- The characters in the names of the known tags. -/
lemma name_of_kind? {tag : String} {k : Html.TagKind} (h : Html.kind? tag = some k) :
    tag.toList ≠ [] ∧ ∀ c ∈ tag.toList, c.isAlphanum = true := by
  have hall : (Html.voidTags ++ Html.normalTags).all
      (fun t => !t.toList.isEmpty && t.toList.all Char.isAlphanum) = true := by decide +kernel
  simpa using List.all_eq_true.mp hall tag (mem_of_kind? h)

/-- The name of a known tag has no angle brackets. -/
lemma plain_of_kind? {tag : String} {k : Html.TagKind} (h : Html.kind? tag = some k) :
    Plain tag.toList :=
  plain_of_isAlphanum (name_of_kind? h).2

/-- No letter and no digit ends the name of a tag. -/
lemma endsName_of_isAlphanum {c : Char} (h : c.isAlphanum = true) : endsName c = false := by
  have hne : ∀ d : Char, d.isAlphanum = false → c ≠ d := fun _ hd => ne_of_isAlphanum h hd
  simp only [endsName, isAsciiBlank, Bool.or_eq_false_iff, decide_eq_false_iff_not]
  exact ⟨⟨⟨⟨⟨hne _ rfl, hne _ rfl⟩, hne _ rfl⟩, hne _ rfl⟩, hne _ rfl⟩, hne _ rfl⟩

/-- Whether the name of a tag may end where a text starts. -/
def AfterName (cs : List Char) : Prop := ∀ c, cs.head? = some c → endsName c = true

/-- The mark of a known tag, with any attributes. -/
lemma ofUnit?_opening {tag : String} {k : Html.TagKind} (h : Html.kind? tag = some k)
    {rest : List Char} (hrest : AfterName rest) :
    Mark.ofUnit? (tag.toList ++ rest) = some (.opening tag) := by
  obtain ⟨hne, hname⟩ := name_of_kind? h
  have hread : (tag.toList ++ rest).takeWhile (fun c => !endsName c) = tag.toList := by
    have hkeep : ∀ c ∈ tag.toList, (!endsName c) = true := fun c hc => by
      rw [endsName_of_isAlphanum (hname c hc)]
      rfl
    rw [List.takeWhile_append_of_pos hkeep]
    cases rest with
    | nil => simp
    | cons c rest => rw [List.takeWhile_cons, hrest c rfl]; simp
  have hfirst : ∀ d, d.isAlphanum = false → ∀ cs, tag.toList ++ rest ≠ d :: cs := by
    intro d hd cs hunit
    obtain ⟨c, name, hcs⟩ := List.exists_cons_of_ne_nil hne
    have hc : c.isAlphanum = true := hname c (by rw [hcs]; exact List.mem_cons_self)
    rw [hcs] at hunit
    exact ne_of_isAlphanum hc hd (List.cons.inj hunit).1
  rw [Mark.ofUnit?.eq_def]
  split
  · next cs hunit => exact absurd hunit (hfirst _ rfl cs)
  · next cs hunit => exact absurd hunit (hfirst _ rfl cs)
  · simp only [hread, if_neg hne, String.ofList_toList]

/-- A void tag is a leaf. -/
lemma reads_void {tag : String} (h : Html.kind? tag = some .void) {attributes : List Char}
    (hplain : Plain attributes) (hafter : AfterName attributes) :
    Reads ('<' :: (tag.toList ++ attributes ++ ['/', '>'])) [.branch tag []] := by
  intro done above
  have hplain' : Plain (tag.toList ++ (attributes ++ ['/'])) := by
    simp only [plain_append]
    exact ⟨plain_of_kind? h, hplain, by decide⟩
  have hafter' : AfterName (attributes ++ ['/']) := by
    cases attributes with
    | nil => rintro c ⟨⟩; decide
    | cons d attributes => exact hafter
  have hunit : tag.toList ++ attributes ++ ['/', '>'] =
      tag.toList ++ (attributes ++ ['/']) ++ ['>'] := by simp
  rw [hunit, run_mark hplain', ofUnit?_opening h hafter']
  simp only [Option.bind_some, Reader.mark, if_pos h]

/-- A tag that is not void holds what is read up to its closing tag. -/
lemma reads_element {tag : String} (h : Html.kind? tag = some .normal) {attributes : List Char}
    (hplain : Plain attributes) (hafter : AfterName attributes) {inside : List Char}
    {os : List Outline} (hinside : Reads inside os) :
    Reads ('<' :: (tag.toList ++ attributes ++ ['>']) ++ inside ++
      '<' :: ('/' :: tag.toList ++ ['>'])) [.branch tag os] := by
  intro done above
  have hplain' : Plain (tag.toList ++ attributes) := by
    rw [plain_append]
    exact ⟨plain_of_kind? h, hplain⟩
  have hclosing : Plain ('/' :: tag.toList) := by
    rw [← List.singleton_append, plain_append]
    exact ⟨by decide, plain_of_kind? h⟩
  have hvoid : Html.kind? tag ≠ some .void := by
    rw [h]
    simp
  have hopen : (⟨done, above, none⟩ : Reader).mark (.opening tag) =
      some ⟨[], (tag, done) :: above, none⟩ := by
    simp only [Reader.mark, if_neg hvoid]
  have hclose : (⟨os, (tag, done) :: above, none⟩ : Reader).mark (.closing tag) =
      some ⟨done ++ [.branch tag os], above, none⟩ := by
    simp only [Reader.mark, if_pos]
  rw [run_append, run_append, run_mark hplain', ofUnit?_opening h hafter, Option.bind_some,
    hopen, Option.bind_some, hinside, Option.bind_some, List.nil_append, run_mark hclosing]
  show (some (Mark.closing (String.ofList tag.toList))).bind _ = _
  rw [String.ofList_toList, Option.bind_some, hclose]

/-! ### Comments -/

/-- Keeping hyphens apart brings in blanks. -/
lemma plain_spaceHyphens {cs : List Char} (h : Plain cs) : Plain (Html.spaceHyphens cs) := by
  fun_induction Html.spaceHyphens cs with
  | case1 rest ih =>
    have hrest : Plain rest := h.of_subset fun c hc => by simp [hc]
    show Plain (['-', ' ', '-'] ++ Html.spaceHyphens rest)
    exact plain_append.mpr ⟨by decide, ih hrest⟩
  | case2 c rest _ ih =>
    have hrest : Plain rest := h.of_subset (List.subset_cons_self c rest)
    show Plain ([c] ++ Html.spaceHyphens rest)
    exact plain_append.mpr ⟨h.of_subset (by simp), ih hrest⟩
  | case3 => exact h

/-- A comment adds nothing. -/
lemma reads_comment {s : String} (h : Plain s.toList) : Reads (Html.comment s).toList [] := by
  let body := (Html.spaceHyphens s.toList).flatMap Html.commentChar
  have hbody : Plain body := plain_flatMap fun c hc => by
    have hplain := plain_spaceHyphens h c hc
    rw [Html.commentChar, if_neg hplain.2]
    simpa [Plain] using hplain
  have hplain : Plain ("!-- ".toList ++ body ++ " --".toList) := by
    simp only [plain_append]
    exact ⟨⟨by decide, hbody⟩, by decide⟩
  have hcomment : isComment ("-- ".toList ++ body ++ " --".toList) = true := by
    rw [isComment, Bool.and_eq_true, List.isSuffixOf_iff_suffix]
    exact ⟨rfl, ' ' :: body ++ [' '], by simp⟩
  have hmark : Mark.ofUnit? ("!-- ".toList ++ body ++ " --".toList) = some .skipped :=
    if_pos (.inr hcomment)
  have htext : (Html.comment s).toList =
      '<' :: ("!-- ".toList ++ body ++ " --".toList ++ ['>']) := by
    simp [Html.comment, body]
  rw [htext]
  exact reads_skipped hplain hmark

/-- The declaration of the document type adds nothing. -/
lemma reads_doctype : Reads Html.doctype.toList [] := by
  have hplain : Plain "!DOCTYPE html".toList := by decide
  have hmark : Mark.ofUnit? "!DOCTYPE html".toList = some .skipped := rfl
  exact reads_skipped hplain hmark

end Outline

/-! ### Walks -/

/-- A part of a walk that does not break off, and whose text adds to the
outline. -/
def Written.Reads (w : Written) (os : List Outline) : Prop :=
  w.failure = none ∧ Outline.Reads w.text.toList os

namespace Written

open Outline

variable {w : Written} {f : Nesting → Written} {os os' : List Outline}

lemma reads_ofText {s : String} (h : Outline.Reads s.toList os) (n : Nesting) :
    (ofText n s).Reads os := ⟨rfl, h⟩

lemma reads_empty (n : Nesting) : (ofText n "").Reads [] := ⟨rfl, reads_plain Text.plain_nil⟩

lemma Reads.andThen (h : w.Reads os) (hf : ∀ n, (f n).Reads os') :
    (w.andThen f).Reads (os ++ os') := by
  rw [andThen_of_no_failure h.1]
  refine ⟨(hf _).1, ?_⟩
  rw [String.toList_append]
  exact h.2.append (hf _).2

end Written

namespace Renderer

open Outline Written

variable {config : Store} {e : Nesting → String → Written}

/-- An attribute starts with a blank. -/
lemma afterName_writeAttribute (scope : Scope) (name : String) (v : Value) :
    AfterName (writeAttribute config scope name v).toList := by
  intro c hc
  rw [writeAttribute] at hc
  split at hc
  · split at hc
    · simp at hc
    · rw [String.toList_append] at hc
      obtain rfl := Option.some.inj hc
      decide
    · simp only [String.toList_append, List.append_assoc] at hc
      obtain rfl := Option.some.inj hc
      decide
  · simp at hc

/-- Attributes start with a blank, if there are any. -/
lemma afterName_attributes (tag : String) (m : Mapping) :
    AfterName (attributes config tag m).toList := by
  have hjoin : ∀ l : List String, (∀ s ∈ l, AfterName s.toList) →
      AfterName (l.flatMap String.toList) := by
    intro l hl
    induction l with
    | nil => simp [AfterName]
    | cons s l ih =>
      have hs := hl s List.mem_cons_self
      rw [List.flatMap_cons]
      cases hchars : s.toList with
      | nil => exact ih fun t ht => hl t (List.mem_cons_of_mem s ht)
      | cons d cs =>
        rw [hchars] at hs
        exact hs
  rw [attributes, String.toList_join]
  refine hjoin _ fun s hs => ?_
  obtain ⟨a, -, rfl⟩ := List.mem_map.mp hs
  exact afterName_writeAttribute _ a.1 a.2

/-- The text of a style sheet, the text of an element without children. -/
lemma reads_styleSheet (hc : config.Plain) {sheet : StyleSheet}
    (hattributes : Value.PlainEntries sheet.attributes) (hrules : StyleRule.PlainAll sheet.rules) :
    Outline.Reads (styleSheet config sheet).toList [.branch Node.styleKey []] := by
  have hscope : (Scope.element Node.styleKey sheet.attributes).Plain := hattributes
  have hcss := reads_plain (Scope.plain_interpolate hc hscope hrules.writeAll)
  have hplain : Text.Plain (attributes config Node.styleKey sheet.attributes).toList :=
    plain_attributes _ fun a ha => (hattributes.of_mem ha).1
  have hkind : Html.kind? Node.styleKey = some .normal := by decide +kernel
  have hread := reads_element hkind hplain (afterName_attributes _ _) hcss
  have htext : (styleSheet config sheet).toList =
      '<' :: (Node.styleKey.toList ++
          (attributes config Node.styleKey sheet.attributes).toList ++ ['>']) ++
        (Scope.interpolate config (.element Node.styleKey sheet.attributes)
          (StyleRule.writeAll sheet.rules)).toList ++
        '<' :: ('/' :: Node.styleKey.toList ++ ['>']) := by
    simp [styleSheet, Node.styleKey]
  rw [htext]
  exact hread

/-- An element that is not void, with a part of a walk inside it. -/
lemma reads_normal {tag attributes : String} (h : Html.kind? tag = some .normal)
    (hplain : Text.Plain attributes.toList) (hafter : AfterName attributes.toList)
    {inside : Nesting → Written} {os : List Outline} (hinside : ∀ n, (inside n).Reads os)
    (n : Nesting) :
    (((ofText n ("<" ++ tag ++ attributes ++ ">")).andThen inside).andThen
      fun n => ofText n ("</" ++ tag ++ ">")).Reads [.branch tag os] := by
  obtain ⟨hfailure, htext⟩ := hinside n
  have hopened : ((ofText n ("<" ++ tag ++ attributes ++ ">")).andThen inside).failure = none := by
    rw [andThen_of_no_failure rfl]
    exact hfailure
  refine ⟨by rw [andThen_of_no_failure hopened]; rfl, ?_⟩
  have hread : Outline.Reads ("<" ++ tag ++ attributes ++ ">" ++ (inside n).text ++
      ("</" ++ tag ++ ">")).toList [.branch tag os] := by
    simpa using reads_element h hplain hafter htext
  rw [andThen_of_no_failure hopened, andThen_of_no_failure rfl]
  exact hread

mutual

/-- The text of a walk over plain nodes without templates is read as their
outline. -/
theorem walk_reads (hc : config.Plain) : ∀ (n : Nesting) (nodes : List Node),
    Node.PlainAll nodes → Node.templateNames nodes = [] →
      (walk config e n nodes).Reads (ofNodes nodes)
  | n, [], _, _ => by
    rw [walk]
    exact reads_empty n
  | n, node :: rest, h, hno => by
    rw [Node.templateNames, List.append_eq_nil_iff] at hno
    rw [walk, ofNodes]
    exact (walkNode_reads hc n node h.1 hno.1).andThen fun n => walk_reads hc n rest h.2 hno.2

/-- The step of `walk_reads`, one case for each kind of node. -/
theorem walkNode_reads (hc : config.Plain) : ∀ (n : Nesting) (node : Node),
    node.Plain → Node.templateNamesIn node = [] →
      (walkNode config e n node).Reads (ofNode node)
  | n, .doctype children, h, hno => by
    rw [walkNode, ofNode]
    exact (reads_ofText reads_doctype _).andThen fun n => walk_reads hc n children h hno
  | n, .text content, h, _ => by
    rw [walkNode, ofNode]
    have hscope : (Scope.text content).Plain := h
    exact reads_ofText (reads_plain (Scope.plain_interpolate hc hscope h)) _
  | n, .element tag m children, h, hno => by
    obtain ⟨htag, hnames, hchildren⟩ := h
    have hplain : Text.Plain (attributes config tag m).toList := plain_attributes tag hnames
    have hafter : AfterName (attributes config tag m).toList := afterName_attributes tag m
    rw [walkNode, ofNode]
    by_cases hempty : tag = ""
    · rw [if_pos hempty, hempty]
      exact reads_empty _
    · rw [if_neg hempty]
      rcases hkind : Html.kind? tag with _ | _ | _
      · refine reads_ofText (reads_comment ?_) _
        rw [String.toList_append, Text.plain_append]
        exact ⟨by decide, htag⟩
      · exact reads_normal hkind hplain hafter (fun n => walk_reads hc n children hchildren hno) _
      · have hread : Outline.Reads ("<" ++ tag ++ attributes config tag m ++ "/>").toList
            [.branch tag []] := by
          simpa using reads_void hkind hplain hafter
        exact reads_ofText hread _
  | n, .style sheet, h, _ => by
    rw [walkNode, ofNode]
    exact reads_ofText (reads_styleSheet hc h.1 h.2) _
  | n, .template name, _, hno => by
    simp [Node.templateNamesIn] at hno

end

/-! ### Pages -/

/-- **The outline of a page**: without passes over the page, nodes without
templates are rendered without failure, and the page is read as their outline, if
neither they nor what the configuration has for them hold angle brackets. The
values of the attributes of elements may hold anything. -/
theorem read?_page (r : Renderer) (limit : ℕ) (nodes : List Node)
    (hconfig : r.config.Plain) (hno : Node.templateNames nodes = [])
    (hnodes : Node.PlainAll nodes) :
    ((r.bare limit).page nodes).failure = none ∧
      Outline.read? ((r.bare limit).page nodes).text = some (Outline.ofNodes nodes) := by
  have hwrite : ((r.bare limit).write r.nesting.enterNode nodes).Reads (Outline.ofNodes nodes) :=
    walk_reads hconfig r.nesting.enterNode nodes hnodes hno
  obtain ⟨hfailure, hreads⟩ := hwrite
  refine ⟨hfailure, ?_⟩
  have hrun : (⟨[], [], none⟩ : Reader).run ((r.bare limit).page nodes).text.toList =
      some ⟨Outline.ofNodes nodes, [], none⟩ := hreads [] []
  rw [Outline.read?, hrun]
  rfl

/-- A page with a void, an unknown and a style element, a value with angle
brackets in an attribute, and a token. -/
theorem read?_page_site :
    let config : Store := ⟨[("env", .obj [("site", .str "Acme")]), ("note", .str "<b>")], true⟩
    let sheet : StyleSheet :=
      ⟨[("media", .str "print")], [.block "p" [("color", .str "red")] [.raw "/* */"]]⟩
    let nodes := [Node.doctype [.element "html" [("title", .str "</p> \"<br>")]
      [.element "br" [] [.element "p" [] []], .element "widget" [] [.element "p" [] []],
        .style sheet, .text "\x7b%env.site%\x7d"]]]
    let r := new config Templates.none
    (r.config.Plain ∧ Node.templateNames nodes = [] ∧ Node.PlainAll nodes) ∧
      ((r.bare 50).page nodes).failure = none ∧
      Outline.read? ((r.bare 50).page nodes).text = some (Outline.ofNodes nodes) := by
  intro config sheet nodes r
  have hconfig : r.config.Plain := by
    intro v hv
    obtain rfl : v = .obj [("site", .str "Acme")] := (Option.some.inj hv).symm
    simp only [Value.Plain, Value.PlainEntries]
    decide
  have hno : Node.templateNames nodes = [] := rfl
  have hnodes : Node.PlainAll nodes := by
    simp only [nodes, sheet, Node.PlainAll, Node.Plain, StyleRule.PlainAll, StyleRule.Plain,
      Value.PlainEntries, Value.Plain]
    decide
  exact ⟨⟨hconfig, hno, hnodes⟩, read?_page r 50 nodes hconfig hno hnodes⟩

end Renderer

end PageTree
