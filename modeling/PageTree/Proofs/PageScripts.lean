/-
Linked data on a page.

The script of linked data goes through everything that happens to a page: the walk,
in which tokens are replaced, and the removal of the tokens that are left. Its JSON
holds no opening mark, so no token starts in it; and it holds an opening brace after
an opening tag that no token and no attribute can hold, so what starts before it ends
before it.

* `Cleanup.Untouched`: texts of this kind; `Cleanup.Untouched.stripChars_append`: they
  stay, wherever they stand;
* `Node.aroundFirst?`: the tags around the first element with a tag;
* `Renderer.walk_shows_of_alterFirst?`: the walk over a tree with a change in it;
* `LinkedData.tokens?_scriptText`: the JSON of a script has the tokens of the entry;
* `Renderer.page_shows_scripts`: **the scripts of linked data** stand on a finished
  page, and are read as the JSON of the entries.
-/
import PageTree.Proofs.Assembly
import PageTree.Proofs.CompileOrder
import PageTree.Proofs.PrintedJson
import PageTree.Proofs.ShownTexts

namespace PageTree

/-! ### Texts without opening marks -/

namespace Placeholder

lemma scan_eq_nil {text : String} (h : hasOpening text.toList = false) : scan text = [] :=
  List.map_eq_nil_iff.mp (Store.tokens_eq_nil_of_hasOpening h)

end Placeholder

/-- A text without opening marks is written as it is. -/
lemma Scope.interpolate_eq_self {text : String}
    (h : Placeholder.hasOpening text.toList = false) (config : Store) (scope : Scope) :
    scope.interpolate config text = text :=
  Placeholder.substitute_eq_self fun t ht => by
    simp [Store.tokens_eq_nil_of_hasOpening h] at ht

/-! ### Texts that stay -/

namespace Cleanup

open Placeholder

variable {as bs l : List Char}

/-- The characters of the start of an attribute. -/
lemma AttributeStart.of_mem (h : AttributeStart l) {c : Char} (hc : c ∈ l) :
    Text.isAsciiBlank c = true ∨ isNameChar c = true ∨ c = '=' ∨ c = '"' := by
  obtain ⟨blank, name, hblank, -, hname, rfl⟩ := h
  simp only [List.mem_cons, List.mem_append, List.not_mem_nil, or_false] at hc
  rcases hc with rfl | hc | rfl | rfl
  · exact .inl hblank
  · exact .inr (.inl (hname c hc))
  · exact .inr (.inr (.inl rfl))
  · exact .inr (.inr (.inr rfl))

lemma AttributeStart.notMem_angle (h : AttributeStart l) : '<' ∉ l ∧ '>' ∉ l := by
  constructor
  · intro hmem
    exact absurd (h.of_mem hmem) (by decide)
  · intro hmem
    exact absurd (h.of_mem hmem) (by decide)

lemma Cut.opening_infix {k : List Char} (hk : Cut k) : ['\x7b', '%'] <:+: k := by
  obtain ⟨l, rest, -, rfl, -, -⟩ := hk.exists_opening
  exact ⟨l, rest, by simp⟩

/-- The end of a cut holds its closing brace, unless it is the quote of an attribute. -/
lemma Cut.closing_mem {c₁ c₂ : List Char} (h : Cut (c₁ ++ c₂)) (hne : c₂ ≠ []) :
    '\x7d' ∈ c₂ ∨ c₂ = ['"'] := by
  generalize hcut : c₁ ++ c₂ = k at h
  cases h with
  | @token t key ht =>
    have hraw : c₁ ++ c₂ = ('\x7b' :: '%' :: (t.body ++ ['%'])) ++ ['\x7d'] := by
      rw [hcut]
      simp [Token.raw]
    obtain ⟨c₂, rfl, -⟩ := exists_append_singleton hne hraw
    exact .inl (by simp)
  | @quoted l hl t key ht =>
    obtain ⟨c₂, rfl, hfront⟩ := exists_append_singleton hne hcut
    rcases eq_or_ne c₂ [] with rfl | hne
    · exact .inr rfl
    · have hraw : c₁ ++ c₂ = (l ++ '\x7b' :: '%' :: (t.body ++ ['%'])) ++ ['\x7d'] := by
        rw [hfront]
        simp [Token.raw]
      obtain ⟨c₂, rfl, -⟩ := exists_append_singleton hne hraw
      exact .inl (by simp)

/-- A text without opening marks loses nothing. -/
lemma stripChars_eq_self (h : ¬ ['\x7b', '%'] <:+: as) : stripChars as = as := by
  induction as with
  | nil => exact stripChars_nil
  | cons c as ih =>
    have hfront : NoCut (c :: as) := by
      intro k rest hk heq
      exact h (heq ▸ hk.opening_infix.trans (List.prefix_append k rest).isInfix)
    rw [Text.pair_infix_cons_iff, not_or] at h
    rw [stripChars_cons hfront, ih h.2]

/-- Whether a text has no opening mark, starts with a tag and an opening brace after it, and
ends with a tag. -/
structure Untouched (b : List Char) : Prop where
  not_opening_infix : ¬ ['\x7b', '%'] <:+: b
  exists_brace : ∃ tag rest, b = '<' :: tag ++ '\x7b' :: rest ∧ '\x7d' ∉ tag
  exists_angle : ∃ front, b = front ++ ['>']

namespace Untouched

variable {b : List Char}

/-- No cut that starts before such a text ends in it or after it. -/
lemma not_cutAcross_left (h : Untouched b) (as cs : List Char) : ¬ CutAcross as (b ++ cs) := by
  rintro ⟨a₁, c₁, c₂, b₂, hcut, h₁, h₂, -, heq⟩
  obtain ⟨tag, rest, rfl, htag⟩ := h.exists_brace
  rw [List.append_assoc] at heq
  rcases append_eq_append_cases heq with ⟨more, hmore, -⟩ | ⟨more, hmore, rfl, hafter⟩
  · -- it would end in the opening tag
    obtain ⟨d, c₂, rfl⟩ := List.exists_cons_of_ne_nil h₂
    obtain ⟨rfl, rfl⟩ := List.cons.inj hmore
    rcases hcut.closing_mem h₂ with hmem | hquote
    · simp_all
    · exact absurd (List.cons.inj hquote).1 (by decide)
  · -- it would hold the brace
    obtain ⟨d, more, rfl⟩ := List.exists_cons_of_ne_nil hmore
    rw [← (List.cons.inj hafter).1, ← List.append_assoc] at hcut
    have hstart := hcut.attributeStart (by simp)
    exact hstart.notMem_angle.1 (by simp)

/-- No cut that starts in such a text ends after it. -/
lemma not_cutAcross_right (h : Untouched b) (cs : List Char) : ¬ CutAcross b cs := by
  rintro ⟨a₁, c₁, c₂, b₂, hcut, h₁, -, hb, -⟩
  obtain ⟨front, hfront⟩ := h.exists_angle
  obtain ⟨c₁, rfl, -⟩ := exists_append_singleton h₁ (hb.symm.trans hfront)
  obtain ⟨l, rest, hl, heq, -, -⟩ := hcut.exists_opening
  have hangle : '>' ∉ l := by
    rcases hl with rfl | hl
    · exact List.not_mem_nil
    · exact hl.notMem_angle.2
  rcases append_eq_append_cases heq with ⟨more, hmore, hopening⟩ | ⟨more, -, rfl, -⟩
  · -- its opening mark would stand in the text
    rcases more with _ | ⟨d, _ | ⟨d', more⟩⟩
    · rw [List.append_nil] at hmore
      exact hangle (hmore ▸ List.mem_append_right c₁ (List.mem_singleton_self '>'))
    · have hlast := (List.append_singleton_inj.mp hmore).2
      rw [← (List.cons.inj hopening).1] at hlast
      exact absurd hlast (by decide)
    · obtain ⟨hd, htail⟩ := List.cons.inj hopening
      obtain ⟨hd', -⟩ := List.cons.inj htail
      rw [← hd, ← hd'] at hmore
      exact h.not_opening_infix ⟨a₁ ++ l, more, by simp [hb, hmore]⟩
  · exact hangle (by simp)

/-- **A text that stays**: what is removed from a page with it is what is removed before it
and after it. -/
theorem stripChars_append (h : Untouched b) (as cs : List Char) :
    stripChars (as ++ (b ++ cs)) = stripChars as ++ (b ++ stripChars cs) := by
  rw [Cleanup.stripChars_append (h.not_cutAcross_left as cs),
    Cleanup.stripChars_append (h.not_cutAcross_right cs), stripChars_eq_self h.not_opening_infix]

end Untouched

/-- Texts that stay are found in a page in which the tokens that are left are removed. -/
lemma woven_strip {texts : List String} {page : String} (hw : Woven texts page)
    (h : ∀ text ∈ texts, Untouched text.toList) : Woven texts (strip page) := by
  induction hw with
  | nil page => exact .nil _
  | @cons before text texts rest hw ih =>
    rw [List.forall_mem_cons] at h
    have hpage : Cleanup.strip (before ++ text ++ rest) =
        Cleanup.strip before ++ text ++ Cleanup.strip rest := by
      rw [← String.toList_inj]
      simp [Cleanup.strip, h.1.stripChars_append]
    rw [hpage]
    exact .cons _ text (ih h.2)

end Cleanup

/-! ### Elements around an element -/

namespace Node

mutual

/-- The tags of the elements around the first element with a tag below some nodes. -/
def aroundFirst? (tag : String) : List Node → Option (List String)
  | [] => none
  | node :: rest => (aroundFirstIn? tag node).or (aroundFirst? tag rest)

/-- The tags of the elements around the first element with a tag in a node. -/
def aroundFirstIn? (tag : String) : Node → Option (List String)
  | .element t _ children =>
    if t = tag then some [] else (aroundFirst? tag children).map (t :: ·)
  | .doctype children => aroundFirst? tag children
  | _ => none

end

variable (tag : String) (f : Mapping → List Node → Node)

mutual

/-- There is an element to change exactly if there are elements around it to be told. -/
theorem isSome_alterFirst? : ∀ nodes,
    (alterFirst? tag f nodes).isSome = (aroundFirst? tag nodes).isSome
  | [] => rfl
  | node :: rest => by
    rw [alterFirst?, aroundFirst?, Option.isSome_or, ← isSome_alterFirstIn? node,
      ← isSome_alterFirst? rest]
    cases alterFirstIn? tag f node <;> simp

/-- The step of `isSome_alterFirst?`. -/
theorem isSome_alterFirstIn? : ∀ node,
    (alterFirstIn? tag f node).isSome = (aroundFirstIn? tag node).isSome
  | .element t m children => by
    rw [alterFirstIn?, aroundFirstIn?]
    split_ifs
    · rfl
    · rw [Option.isSome_map, Option.isSome_map, isSome_alterFirst? children]
  | .doctype children => by
    rw [alterFirstIn?, aroundFirstIn?, Option.isSome_map, isSome_alterFirst? children]
  | .text _ | .style _ | .template _ => rfl

end

end Node

/-! ### Walks over changed trees -/

namespace Renderer

open Written Node

variable {config : Store} {e : Nesting → String → Written} {texts : List String}
  {tag : String} {f : Mapping → List Node → Node}

mutual

/-- The walk over a tree shows what is shown of an element that is changed in it, unless an
element around it is written without children. -/
theorem walk_shows_of_alterFirst?
    (hf : ∀ m children n, (walkNode config e n (f m children)).Shows texts) :
    ∀ {nodes changed : List Node}, alterFirst? tag f nodes = some changed →
      (∀ around ∈ aroundFirst? tag nodes, ∀ t ∈ around, Html.kind? t = some .normal) →
      ∀ n, (walk config e n changed).Shows texts
  | [], _, h, _, _ => by simp [alterFirst?] at h
  | node :: rest, _, h, haround, n => by
    have hsome := isSome_alterFirstIn? tag f node
    rw [alterFirst?] at h
    rw [aroundFirst?] at haround
    split at h
    · next node' hnode =>
      cases h
      rw [hnode] at hsome
      rw [Option.or_of_isSome hsome.symm] at haround
      rw [walk, ← List.append_nil texts]
      exact (walkNode_shows_of_alterFirstIn? hf hnode haround n).andThen fun n => shows_nil _
    · next hnode =>
      obtain ⟨rest', hrest, rfl⟩ := Option.map_eq_some_iff.mp h
      rw [hnode, Option.isSome_none, eq_comm, Option.isSome_eq_false_iff,
        Option.isNone_iff_eq_none] at hsome
      rw [hsome, Option.none_or] at haround
      rw [walk, ← List.nil_append texts]
      exact (shows_nil _).andThen fun n => walk_shows_of_alterFirst? hf hrest haround n

/-- The step of `walk_shows_of_alterFirst?`. -/
theorem walkNode_shows_of_alterFirstIn?
    (hf : ∀ m children n, (walkNode config e n (f m children)).Shows texts) :
    ∀ {node changed : Node}, alterFirstIn? tag f node = some changed →
      (∀ around ∈ aroundFirstIn? tag node, ∀ t ∈ around, Html.kind? t = some .normal) →
      ∀ n, (walkNode config e n changed).Shows texts
  | .element t m children, _, h, haround, n => by
    rw [alterFirstIn?] at h
    rw [aroundFirstIn?] at haround
    split_ifs at h haround with htag
    · cases h
      exact hf m children n
    · obtain ⟨children', hchildren, rfl⟩ := Option.map_eq_some_iff.mp h
      have hsome := isSome_alterFirst? tag f children
      rw [hchildren, Option.isSome_some, eq_comm] at hsome
      obtain ⟨tags, htags⟩ := Option.isSome_iff_exists.mp hsome
      rw [htags, Option.map_some] at haround
      have hnormal := List.forall_mem_cons.mp (haround _ rfl)
      refine shows_normal hnormal.1 (walk_shows_of_alterFirst? hf hchildren ?_) m n
      rintro around haround
      rw [htags] at haround
      cases haround
      exact hnormal.2
  | .doctype children, _, h, haround, n => by
    obtain ⟨children', hchildren, rfl⟩ := Option.map_eq_some_iff.mp h
    rw [walkNode, ← List.nil_append texts]
    exact (shows_nil (ofText n.enterNode Html.doctype)).andThen fun n =>
      walk_shows_of_alterFirst? hf hchildren haround n
  | .text _, _, h, _, _ | .style _, _, h, _, _ | .template _, _, h, _, _ => by
    simp [alterFirstIn?] at h

end

end Renderer

/-! ### Scripts -/

namespace LinkedData

variable {entry : Value}

/-- The opening tag of a script. -/
def opening : String := "<script type=\"application/ld+json\">"

/-- The closing tag of a script. -/
def closing : String := "</script>"

/-- A script with some JSON, as it stands in a page. -/
def markup (json : String) : String := opening ++ json ++ closing

lemma exists_of_mem_entries {ld : Value} (h : entry ∈ entries ld) : ∃ m, entry = .obj m := by
  rw [entries.eq_def] at h
  split at h
  · have hmapping := (List.mem_filter.mp h).2
    cases entry with
    | obj m => exact ⟨m, rfl⟩
    | _ => simp [Value.asMapping?] at hmapping
  · next m => exact ⟨m, List.mem_singleton.mp h⟩
  · cases h

/-- Neither the end of a script nor an opening mark is in the JSON of a script. -/
lemma not_pair_infix_scriptText (entry : Value) :
    ¬ ['<', '/'] <:+: (scriptText entry).toList ∧
      ¬ ['\x7b', '%'] <:+: (scriptText entry).toList := by
  rw [scriptText, String.toList_ofList]
  exact not_pair_infix_guard _

/-- The JSON of a script has the tokens of the entry with its dates. -/
lemma tokens?_scriptText (entry : Value) :
    Json.tokens? (scriptText entry) = some (Json.valueTokens (normalize entry)) := by
  rw [scriptText, Json.tokens?_guard, String.ofList_toList, Json.tokens?_print]

/-- The JSON of a mapping starts with an opening brace. -/
lemma exists_scriptText_cons (m : Mapping) :
    ∃ rest, (scriptText (.obj m)).toList = '\x7b' :: rest := by
  rw [scriptText, String.toList_ofList, normalize, Json.print, String.append_assoc,
    String.toList_append]
  exact exists_guard_cons _ _

lemma untouched_markup (m : Mapping) :
    Cleanup.Untouched (markup (scriptText (.obj m))).toList := by
  obtain ⟨rest, hrest⟩ := exists_scriptText_cons m
  have hchars : (markup (scriptText (.obj m))).toList =
      opening.toList ++ ((scriptText (.obj m)).toList ++ closing.toList) := by
    rw [markup, String.toList_append, String.toList_append, List.append_assoc]
  constructor
  · have hopening : ¬ ['\x7b', '%'] <:+: opening.toList := by decide +kernel
    have hclosing : ¬ ['\x7b', '%'] <:+: closing.toList := by decide +kernel
    rw [hchars, Text.pair_infix_append_iff, Text.pair_infix_append_iff]
    · simp only [hopening, hclosing, (not_pair_infix_scriptText _).2, or_self, not_false_eq_true]
    · decide +kernel
    · rw [hrest, List.cons_append, List.head?_cons]
      decide
  · have htag : opening.toList = '<' :: opening.toList.tail := by decide +kernel
    refine ⟨opening.toList.tail, rest ++ closing.toList, ?_, by decide +kernel⟩
    rw [← htag, hchars, hrest, List.cons_append]
  · have hend : closing.toList = closing.toList.dropLast ++ ['>'] := by decide +kernel
    exact ⟨opening.toList ++ ((scriptText (.obj m)).toList ++ closing.toList.dropLast), by
      rw [hchars, List.append_assoc, List.append_assoc, ← hend]⟩

end LinkedData

namespace Renderer

open Written Node LinkedData

variable {config : Store} {e : Nesting → String → Written}

/-- The attributes of a script. -/
lemma attributes_script (config : Store) :
    attributes config "script" [("type", .str scriptType)] = " type=\"application/ld+json\"" := by
  have hopening : Placeholder.hasOpening scriptType.toList = false := by decide
  have hallowed : Html.isAllowed "type" = true := by decide +kernel
  have hresolved : ∀ scope, isUnresolved config scope scriptType = false := by
    intro scope
    rw [isUnresolved, Placeholder.single?, Placeholder.scan_eq_nil hopening]
  simp only [attributes, writeAttribute, attributeText?, hallowed, hresolved, List.map_cons,
    List.map_nil, Scope.interpolate_eq_self hopening, if_true, Bool.false_eq_true, if_false]
  rfl

/-- A script of linked data is written as it is, whatever the configuration. -/
lemma walkNode_script (n : Nesting) (entry : Value) :
    (walkNode config e n (script entry)).Shows [markup (scriptText entry)] := by
  intro
  have htext : (walkNode config e n (script entry)).text = markup (scriptText entry) := by
    have hkind : Html.kind? "script" = some .normal := by decide +kernel
    have hopening : Placeholder.hasOpening (scriptText entry).toList = false := by
      rw [← Bool.not_eq_true, Placeholder.hasOpening_iff]
      exact (not_pair_infix_scriptText entry).2
    simp only [script, walkNode, hkind, attributes_script, walk, text,
      Scope.interpolate_eq_self hopening, andThen_ofText_empty]
    have hopened :
        "<" ++ "script" ++ " type=\"application/ld+json\"" ++ ">" = LinkedData.opening := by
      decide +kernel
    have hclosed : "</" ++ "script" ++ ">" = LinkedData.closing := by decide +kernel
    rw [if_neg (by decide), hopened, hclosed]
    rfl
  rw [htext]
  exact .single _

/-- The scripts of linked data are written one behind the other. -/
lemma walk_scripts (n : Nesting) (ld : Value) :
    (walk config e n (scripts ld)).Shows
      ((entries ld).map fun entry => markup (scriptText entry)) := by
  rw [scripts]
  induction entries ld generalizing n with
  | nil => exact shows_nil _
  | cons entry rest ih =>
    rw [List.map_cons, List.map_cons, walk]
    exact (walkNode_script n entry).andThen ih

/-- Nodes with linked data in their head show its scripts. -/
lemma walk_inject_shows (n : Nesting) {nodes : List Node}
    (hhead : ∀ around ∈ aroundFirst? "head" nodes, ∀ tag ∈ around, Html.kind? tag = some .normal)
    (ld : Value) :
    (walk config e n (inject nodes ld).1).Shows
      ((entries ld).map fun entry => markup (scriptText entry)) := by
  have hadd : (walk config e n (addToHead nodes (scripts ld))).Shows
      ((entries ld).map fun entry => markup (scriptText entry)) := by
    rw [addToHead]
    split
    · next changed hchanged =>
      refine walk_shows_of_alterFirst? (fun m children n => ?_) hchanged hhead n
      refine shows_normal (by decide +kernel) (fun n => ?_) m n
      rw [walk_append, ← List.nil_append (List.map _ _)]
      exact (shows_nil _).andThen fun n => walk_scripts n ld
    · rw [walk_append, ← List.nil_append (List.map _ _)]
      exact (shows_nil _).andThen fun n => walk_scripts n ld
  rw [inject]
  split
  · next hnone =>
    rw [scripts, List.map_eq_nil_iff] at hnone
    rw [hnone]
    exact shows_nil _
  · exact hadd

/-- **Linked data on a page**: if nodes with linked data are written without failure, and
the tokens that are left are removed, then the scripts of all its mappings stand in the
page, one behind the other. Their JSON neither ends a script nor opens a token. It has
the tokens of the mappings with their dates, as the plain JSON of these has, and is read
like it. It is assumed that the head, if there is
one, is inside of elements that are written with their children. -/
theorem page_shows_scripts (r : Renderer) (hstrip : r.options.stripUnused = true)
    (hmin : r.options.minimize = false) (nodes : List Node) (ld : Value)
    (hpage : (r.page (inject nodes ld).1).failure = none)
    (hhead : ∀ around ∈ aroundFirst? "head" nodes, ∀ tag ∈ around,
      Html.kind? tag = some .normal) :
    Woven ((entries ld).map fun entry => markup (scriptText entry))
        (r.page (inject nodes ld).1).text ∧
      ∀ entry ∈ entries ld,
        ¬ "</".toList <:+: (scriptText entry).toList ∧
        ¬ "\x7b%".toList <:+: (scriptText entry).toList ∧
        Json.tokens? (scriptText entry) = some (Json.valueTokens (normalize entry)) ∧
        Json.tokens? (Json.print (normalize entry)) = some (Json.valueTokens (normalize entry)) ∧
        Json.read? (scriptText entry) = Json.read? (Json.print (normalize entry)) := by
  constructor
  · rw [page_text hstrip hmin]
    rw [page_failure] at hpage
    refine Cleanup.woven_strip (walk_inject_shows _ hhead ld hpage) ?_
    intro text htext
    obtain ⟨entry, hentry, rfl⟩ := List.mem_map.mp htext
    obtain ⟨m, rfl⟩ := exists_of_mem_entries hentry
    exact untouched_markup m
  · intro entry hentry
    obtain ⟨hslash, hpercent⟩ := not_pair_infix_scriptText entry
    have hscript := tokens?_scriptText entry
    have hplain := Json.tokens?_print (normalize entry)
    refine ⟨hslash, hpercent, hscript, hplain, ?_⟩
    rw [Json.read?, Json.read?, hscript, hplain]

/-- The end of a script and a token in linked data, below a head. -/
theorem page_shows_scripts_token :
    let r := new .empty Templates.none
    let nodes := [Node.element "html" [] [.element "head" [] []]]
    let ld := Value.obj [("name", .str "</script>\x7b%name%\x7d")]
    (r.options.stripUnused = true ∧ r.options.minimize = false ∧
      (r.page (inject nodes ld).1).failure = none ∧ aroundFirst? "head" nodes = some ["html"] ∧
      entries ld = [ld] ∧ Json.read? (Json.print (normalize ld)) = some ld) ∧
    Woven ((entries ld).map fun entry => markup (scriptText entry))
        (r.page (inject nodes ld).1).text ∧
      ∀ entry ∈ entries ld,
        ¬ "</".toList <:+: (scriptText entry).toList ∧
        ¬ "\x7b%".toList <:+: (scriptText entry).toList ∧
        Json.tokens? (scriptText entry) = some (Json.valueTokens (normalize entry)) ∧
        Json.tokens? (Json.print (normalize entry)) = some (Json.valueTokens (normalize entry)) ∧
        Json.read? (scriptText entry) = Json.read? (Json.print (normalize entry)) := by
  intro r nodes ld
  have hpage : (r.page (inject nodes ld).1).failure = none := by rfl
  have haround : aroundFirst? "head" nodes = some ["html"] := by decide +kernel
  have hread : Json.read? (Json.print (normalize ld)) = some ld :=
    Json.read?_print (by decide) (by decide)
  refine ⟨⟨rfl, rfl, hpage, haround, rfl, hread⟩, ?_⟩
  refine page_shows_scripts r rfl rfl nodes ld hpage fun around h tag htag => ?_
  rw [haround] at h
  obtain rfl := Option.some.inj h
  rw [List.mem_singleton.mp htag]
  decide +kernel

/-- A finished page with such a script. -/
example :
    ((new .empty Templates.none).page
      (inject [.element "head" [] []] (.obj [("name", .str "</script>\x7b%name%\x7d")])).1).text =
    "<head><script type=\"application/ld+json\">" ++
      "\x7b\"name\":\"<\\/script>\x7b\\u0025name%\x7d\"\x7d</script></head>" := by
  decide +kernel

end Renderer

end PageTree
