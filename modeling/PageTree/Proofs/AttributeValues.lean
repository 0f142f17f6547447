/-
The attributes of an element, read back with their values.

An attribute is written after its tokens are replaced, with four characters escaped, so
no text can end its value, whatever it holds. Reading the opening tag from left to right
and decoding the values gives back the attributes that an element shows, in order: a
value that is true as a key alone, and texts, numbers and sequences with their texts.

* `Html.unescape`: decoding, and `Html.unescape_escape`;
* `Renderer.shown`: the attributes that an element shows;
* `Renderer.decode_written`: they are what is written, decoded;
* `Renderer.Reaches`: the nodes that a walk comes to, those of templates among them;
* `Renderer.readsAs_opening`: **attributes are read back**.
-/
import PageTree.Proofs.OpeningTag

namespace PageTree

namespace Html

/-! ### Decoding -/

/-- A quoted value without its escapes, which are taken out from left to right. An
ampersand that starts none of them stands for itself. -/
def unescapeChars : List Char → List Char
  | '&' :: 'a' :: 'm' :: 'p' :: ';' :: rest => '&' :: unescapeChars rest
  | '&' :: 'q' :: 'u' :: 'o' :: 't' :: ';' :: rest => '"' :: unescapeChars rest
  | '&' :: 'l' :: 't' :: ';' :: rest => '<' :: unescapeChars rest
  | '&' :: 'g' :: 't' :: ';' :: rest => '>' :: unescapeChars rest
  | c :: rest => c :: unescapeChars rest
  | [] => []

/-- A quoted value without its escapes. -/
def unescape (s : String) : String := String.ofList (unescapeChars s.toList)

lemma unescapeChars_cons {c : Char} (h : c ≠ '&') (rest : List Char) :
    unescapeChars (c :: rest) = c :: unescapeChars rest := by
  rw [unescapeChars] <;> simp [h]

/-- What stands for a character is decoded as this character. -/
lemma unescapeChars_escapeChar (c : Char) (rest : List Char) :
    unescapeChars (escapeChar c ++ rest) = c :: unescapeChars rest := by
  rw [escapeChar]
  split_ifs with hamp hquote hlt hgt
  · rw [hamp]
    rfl
  · rw [hquote]
    rfl
  · rw [hlt]
    rfl
  · rw [hgt]
    rfl
  · exact unescapeChars_cons hamp rest

/-- **Decoding** gives back every text, with escapes of its own or not. -/
theorem unescape_escape (s : String) : unescape (escape s) = s := by
  have hchars : ∀ cs : List Char, unescapeChars (cs.flatMap escapeChar) = cs := by
    intro cs
    induction cs with
    | nil => rfl
    | cons c cs ih => rw [List.flatMap_cons, unescapeChars_escapeChar, ih]
  rw [unescape, escape, String.toList_ofList, hchars, String.ofList_toList]

/-- An attribute that may be written is a name if its characters are those of names. -/
lemma isName_of_isNameChar {name : String} (hallowed : isAllowed name = true)
    (h : ∀ c ∈ name.toList, Cleanup.isNameChar c = true) : IsName name := by
  refine OpeningTag.isName_of_isAllowed hallowed fun c hc => ?_
  have hchar := h c (List.mem_of_mem_tail hc)
  simp only [Cleanup.isNameChar, Bool.or_eq_true, decide_eq_true_eq] at hchar
  rcases hchar with (((hletter | rfl) | rfl) | rfl) | rfl
  · exact endsAttribute_of_isAlphanum hletter
  all_goals rfl

end Html

namespace OpeningTag

/-- A tag with its values decoded. -/
def decode (t : OpeningTag) : OpeningTag :=
  { t with attributes := t.attributes.map fun a => (a.1, a.2.map Html.unescape) }

/-- Whether a text starts with an opening tag that is read as `t`, once its values are
decoded. -/
def ReadsAs (text opening : String) (t : OpeningTag) : Prop :=
  ∃ written rest, text = opening ++ rest ∧ read? text = some (written, rest) ∧ written.decode = t

end OpeningTag

namespace Renderer

open Html OpeningTag

variable {config : Store} {node : Node} {tag : String} {m : Mapping}

/-! ### The attributes that are shown -/

/-- Whether an attribute with a value is shown: a value that is true, a string unless it is
nothing but a token that stands for nothing, a number, and a sequence. -/
def isShown (config : Store) (scope : Scope) : Value → Bool
  | .bool b => b
  | .str s => (Placeholder.single? s).all fun span => (scope.resolve? config span.token.key).isSome
  | .num _ | .arr _ => true
  | .null | .obj _ => false

/-- The text that an attribute shows, with its tokens replaced: that of its value, and for
a sequence those of its scalars with single spaces between them. A boolean has none. -/
def shownText? (config : Store) (scope : Scope) : Value → Option String
  | .bool _ => none
  | .arr items => some (scope.interpolate config
      (" ".intercalate ((items.filter Value.isScalar).map Value.text)))
  | v => some (scope.interpolate config v.text)

/-- The attributes that an element shows, in order. -/
def shown (config : Store) (tag : String) (m : Mapping) : List (String × Option String) :=
  (m.filter fun a => isAllowed a.1 && isShown config (.element tag m) a.2).map fun a =>
    (a.1, shownText? config (.element tag m) a.2)

/-- An attribute that is written, decoded: one that is shown, with its text. -/
lemma decode_written? (config : Store) (scope : Scope) (a : String × Value) :
    (written? config scope a).map (fun b => (b.1, b.2.map unescape)) =
      if isAllowed a.1 && isShown config scope a.2 then
        some (a.1, shownText? config scope a.2)
      else none := by
  obtain ⟨name, v⟩ := a
  rw [written?]
  cases hallowed : isAllowed name with
  | false => rfl
  | true =>
    cases v with
    | null => rfl
    | bool b => cases b <;> rfl
    | num n => simp [attributeText?, isShown, shownText?, unescape_escape, Value.text]
    | str s =>
      have hunresolved : isUnresolved config scope s = !isShown config scope (.str s) := by
        rw [isUnresolved, isShown]
        cases Placeholder.single? s with
        | none => rfl
        | some span => simp
      rw [attributeText?, hunresolved]
      cases isShown config scope (.str s) <;> simp [shownText?, unescape_escape, Value.text]
    | arr items => simp [attributeText?, isShown, shownText?, unescape_escape, joinItems]
    | obj entries => rfl

/-- **What is written**, decoded, is what is shown. -/
lemma decode_written (config : Store) (tag : String) (m : Mapping) :
    decode ⟨tag, written config tag m⟩ = ⟨tag, shown config tag m⟩ := by
  have hscope : ∀ scope : Scope, ∀ l : Mapping,
      (l.filterMap (written? config scope)).map (fun b => (b.1, b.2.map unescape)) =
        (l.filter fun a => isAllowed a.1 && isShown config scope a.2).map fun a =>
          (a.1, shownText? config scope a.2) := by
    intro scope l
    rw [List.map_filterMap, ← List.filterMap_eq_map, List.filterMap_filter]
    exact List.filterMap_congr fun a _ => decode_written? config scope a
  rw [decode, shown, ← hscope]
  rfl

/-! ### Reading back -/

/-- The key of an attribute that is written is one of the element. -/
lemma exists_mem_of_mem_written {b : String × Option String} (h : b ∈ written config tag m) :
    ∃ a ∈ m, a.1 = b.1 := by
  obtain ⟨a, ha, hb⟩ := List.mem_filterMap.mp h
  rw [written?, Option.ite_none_right_eq_some] at hb
  obtain ⟨text?, -, rfl⟩ := Option.map_eq_some_iff.mp hb.2
  exact ⟨a, ha, rfl⟩

/-- The written opening tag of an element is read back, whatever stands behind it. -/
lemma readsAs_append {k : TagKind} (hkind : kind? tag = some k)
    (hnames : ∀ a ∈ m, isAllowed a.1 = true → ∀ c ∈ a.1.toList, Cleanup.isNameChar c = true)
    (config : Store) (rest : String) :
    ReadsAs (opening config tag m ++ rest) (opening config tag m) ⟨tag, shown config tag m⟩ := by
  have hwritten : ∀ b ∈ written config tag m, IsName b.1 := by
    intro b hb
    obtain ⟨a, ha, hkey⟩ := exists_mem_of_mem_written hb
    have hallowed := (of_mem_written hb).1
    exact isName_of_isNameChar hallowed (hkey ▸ hnames a ha (hkey ▸ hallowed))
  have hvalues : ∀ b ∈ written config tag m, ∀ value, b.2 = some value → '"' ∉ value.toList :=
    fun b hb => (of_mem_written hb).2
  have hclosing : (if kind? tag = some .void then "/>" else ">") = ">" ∨
      (if kind? tag = some .void then "/>" else ">") = "/>" := by
    split_ifs <;> simp
  refine ⟨_, rest, rfl, ?_, decode_written config tag m⟩
  rw [opening, attributes_eq]
  exact read?_written hkind hwritten hvalues hclosing rest

/-! ### Elements of a page -/

/-- Whether a walk over nodes, with room for some templates inside each other, comes to a
node. Those before it must not end the walk, and it does not go into the children of an
element unless the tag is a normal one. -/
inductive Reaches (r : Renderer) (node : Node) : ℕ → List Node → Prop
  /-- It is the first node. -/
  | here (room : ℕ) (rest : List Node) : Reaches r node room (node :: rest)
  /-- It is in a later node. -/
  | next {room : ℕ} {first : Node} {rest : List Node}
    (hfirst : ∀ n, (walkNode r.config (r.expand room) n first).failure = none)
    (h : Reaches r node room rest) : Reaches r node room (first :: rest)
  /-- It is below a document type declaration. -/
  | doctype {room : ℕ} {children : List Node} (h : Reaches r node room children)
    (rest : List Node) : Reaches r node room (.doctype children :: rest)
  /-- It is below an element. -/
  | element {room : ℕ} {tag : String} {children : List Node} (htag : kind? tag = some .normal)
    (m : Mapping) (h : Reaches r node room children) (rest : List Node) :
    Reaches r node room (.element tag m children :: rest)
  /-- It is in a template. -/
  | template {room : ℕ} {name source : String} {inner : List Node}
    (hsource : r.templates name = some source) (hinner : Template.nodes name source = .ok inner)
    (h : Reaches r node room inner) (rest : List Node) :
    Reaches r node (room + 1) (.template name :: rest)

/-- What the first node writes stands in what all of them write. -/
lemma exists_text_walk_cons {e : Nesting → String → Written} {n : Nesting} {first : Node}
    {s : String} (h : ∃ front rest, (walkNode config e n first).text = front ++ (s ++ rest))
    (nodes : List Node) :
    ∃ front rest, (walk config e n (first :: nodes)).text = front ++ (s ++ rest) := by
  obtain ⟨front, rest, htext⟩ := h
  obtain ⟨more, hmore⟩ := Written.exists_text_andThen (walkNode config e n first)
    fun n => walk config e n nodes
  refine ⟨front, rest ++ more, ?_⟩
  rw [walk, hmore, htext, String.append_assoc, String.append_assoc]

/-- The opening tag of a node that a walk comes to is written. -/
lemma exists_text_walk {r : Renderer} (h : node.Opens tag m) {room : ℕ} {nodes : List Node}
    (hreach : r.Reaches node room nodes) (n : Nesting) :
    ∃ front rest, (walk r.config (r.expand room) n nodes).text =
      front ++ (opening r.config tag m ++ rest) := by
  induction hreach generalizing n with
  | here room rest =>
    obtain ⟨more, hmore⟩ := exists_text_walkNode h r.config (r.expand room) n
    exact exists_text_walk_cons ⟨"", more, by rw [hmore, String.empty_append]⟩ rest
  | next hfirst _ ih =>
    rw [walk, Written.andThen_of_no_failure (hfirst n)]
    obtain ⟨front, rest, htext⟩ := ih (walkNode r.config (r.expand _) n _).nesting
    exact ⟨_ ++ front, rest, by rw [htext, String.append_assoc]⟩
  | doctype _ rest ih =>
    refine exists_text_walk_cons ?_ rest
    obtain ⟨front, more, htext⟩ := ih n.enterNode
    rw [walkNode, Written.andThen_of_no_failure rfl]
    exact ⟨Html.doctype ++ front, more, (congrArg (Html.doctype ++ ·) htext).trans
      (String.append_assoc ..).symm⟩
  | @element room outer children htag attrs _ rest ih =>
    refine exists_text_walk_cons ?_ rest
    obtain ⟨front, more, htext⟩ := ih n.enterNode
    obtain ⟨closing, hclosing⟩ :=
      exists_text_walkNode_normal htag attrs children r.config (r.expand room) n
    refine ⟨opening r.config outer attrs ++ front, more ++ closing, ?_⟩
    rw [hclosing, htext]
    simp only [String.append_assoc]
  | template hsource hinner _ rest ih =>
    refine exists_text_walk_cons ?_ rest
    obtain ⟨front, more, htext⟩ := ih n.enterNode.enterTemplate
    refine ⟨front, more, ?_⟩
    rw [walkNode, expand, hsource]
    simp only [hinner]
    exact htext

/-- **Attributes are read back**: where the keys of an element that may be written are made
up of the characters of names, what the element writes is read, after decoding, as the
opening tag with the attributes that it shows; and so is what stands in a page from there
on, for each place where rendering comes to the element, if no passes are made over the
page. -/
theorem readsAs_opening (h : node.Opens tag m)
    (hnames : ∀ a ∈ m, isAllowed a.1 = true → ∀ c ∈ a.1.toList, Cleanup.isNameChar c = true)
    (r : Renderer) :
    (∀ e n, ReadsAs (walkNode r.config e n node).text (opening r.config tag m)
      ⟨tag, shown r.config tag m⟩) ∧
      (r.options.stripUnused = false → r.options.minimize = false → ∀ nodes,
        r.Reaches node (r.options.maxTemplateDepth - r.nesting.templates.current) nodes →
        ∃ front behind, (r.page nodes).text = front ++ behind ∧
          ReadsAs behind (opening r.config tag m) ⟨tag, shown r.config tag m⟩) := by
  obtain ⟨k, hkind⟩ := h.exists_kind?
  refine ⟨fun e n => ?_, fun hstrip hminimize nodes hreach => ?_⟩
  · obtain ⟨rest, hrest⟩ := exists_text_walkNode h r.config e n
    rw [hrest]
    exact readsAs_append hkind hnames r.config rest
  · have hpage : (r.page nodes).text = (r.write r.nesting.enterNode nodes).text := by
      show Cleanup.finish r.options.stripUnused r.options.minimize
        (r.write r.nesting.enterNode nodes).text = _
      rw [hstrip, hminimize]
      rfl
    obtain ⟨front, rest, htext⟩ := exists_text_walk h hreach r.nesting.enterNode
    exact ⟨front, _, hpage.trans htext, readsAs_append hkind hnames r.config rest⟩

/-- A link with values of every kind, one of them with quotes, markup and an entity, in a
paragraph behind a text. -/
theorem readsAs_opening_link :
    let r : Renderer := (new ⟨[("env", .obj [("home", .str "/>\" x=\"y")])], true⟩
      Templates.none).withOptions ⟨false, false, 50⟩
    let m : Mapping := [("href", .str "\x7b%env.home%\x7d&lt;\n"), ("hidden", .bool true),
      ("rel", .arr [.str "a", .null, .bool false, .num (.integer 7 (by decide)), .arr []]),
      ("title", .str "\x7b%a.none%\x7d"), ("onclick", .str "evil()"), ("inert", .bool false),
      ("data-x.y", .num (.integer 7 (by decide))), ("style", .obj []), ("id", .null)]
    let node := Node.element "a" m [.text "Home"]
    let nodes : List Node := [.text "Start", .element "p" [] [node, .text "End"]]
    node.Opens "a" m ∧
      (∀ a ∈ m, isAllowed a.1 = true → ∀ c ∈ a.1.toList, Cleanup.isNameChar c = true) ∧
      shown r.config "a" m = [("href", some "/>\" x=\"y&lt;\n"), ("hidden", none),
        ("rel", some "a  7"), ("data-x.y", some "7")] ∧
      r.Reaches node (r.options.maxTemplateDepth - r.nesting.templates.current) nodes ∧
      ∃ front behind, (r.page nodes).text = front ++ behind ∧
        ReadsAs behind (opening r.config "a" m) ⟨"a", shown r.config "a" m⟩ := by
  intro r m node nodes
  have hkind : kind? "a" = some .normal := by decide +kernel
  have hopens : node.Opens "a" m := .element hkind m [.text "Home"]
  have hall : m.all (fun a => !isAllowed a.1 || a.1.toList.all Cleanup.isNameChar) = true := by
    decide +kernel
  have hnames : ∀ a ∈ m, isAllowed a.1 = true →
      ∀ c ∈ a.1.toList, Cleanup.isNameChar c = true := by
    intro a ha hallowed
    have h := List.all_eq_true.mp hall a ha
    rw [hallowed] at h
    exact List.all_eq_true.mp h
  have hparagraph : kind? "p" = some .normal := by decide +kernel
  have hreach : r.Reaches node (r.options.maxTemplateDepth - r.nesting.templates.current) nodes :=
    .next (fun n => rfl) (.element hparagraph [] (.here _ _) _)
  have hread := (readsAs_opening hopens hnames r).2 rfl rfl nodes hreach
  exact ⟨hopens, hnames, by decide +kernel, hreach, hread⟩

end Renderer

end PageTree
