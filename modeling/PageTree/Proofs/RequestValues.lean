/-
The values of a request in its page.

A page is compiled when its document is loaded, and only then the source and the
route of the request are published below `env`. A token in the page that names one
of them is replaced by the published value if its path led nowhere while the page
was compiled: it stays, and is replaced when its text is written. In a template a
token is replaced then in any case. If the settings or a seed file had a value at
the path, the token in the page has already become this older value.

* `Site.get?_of_publish`: what is published is found, and the content stays;
* `Scope.interpolate_append_token`: a token of a path into the configuration;
* `Site.Replaced`: texts in which the tokens of a path have become a value;
* `Site.respond_shows_published`: **the values of a request** in its page and in
  templates;
* `Site.not_shows_published`: a page that shows an older value.
-/
import PageTree.Proofs.Assembly
import PageTree.Proofs.Assigning
import PageTree.Proofs.ShownTexts
import PageTree.Site

namespace PageTree

/-! ### Tokens of the configuration -/

namespace Scope

variable {config : Store} {path value : String}

/-- The text of a path into the configuration is trimmed. -/
lemma resolve?_of_get? (henv : isEnvPath path = true) (hget : config.get? path = some (.str value))
    (scope : Scope) : scope.resolve? config path = some (Text.trim value) := by
  rw [resolve?, if_pos henv, hget]
  rfl

/-- A token of a path into the configuration is replaced by the text that is
there, and what is before and after it on its own. -/
lemma interpolate_append_token (henv : isEnvPath path = true)
    (hget : config.get? path = some (.str value)) {t : Placeholder.Token} (hkey : t.key = path)
    {k : List Char} (ht : t.Proper k) (scope : Scope) (before after : String) :
    scope.interpolate config (before ++ t.rawText ++ after) =
      scope.interpolate config before ++ Text.trim value ++ scope.interpolate config after := by
  rw [interpolate, Placeholder.substitute_append_token ht, hkey, resolve?_of_get? henv hget]
  rfl

end Scope

namespace Site

open Store

/-! ### Publishing -/

variable {config config' : Store} {settings : List (String × Value)}

/-- Publishing puts the settings at their paths, one after the other. -/
lemma settings_of_publish (h : publish settings config = .ok config') :
    config'.settings =
      settings.foldl (fun m e => assign m (KeyPath.split e.1) e.2) config.settings := by
  induction settings generalizing config with
  | nil =>
    cases h
    rfl
  | cons e rest ih =>
    rw [publish, List.foldlM_cons] at h
    obtain ⟨next, hnext, h⟩ := exists_of_bind_eq_ok h
    rw [set?, guarded] at hnext
    split_ifs at hnext
    cases hnext
    exact ih h

/-- Whether neither of two paths leads through the other. -/
def Apart (p q : List String) : Prop := ¬ p <+: q ∧ ¬ q <+: p

instance (p q : List String) : Decidable (Apart p q) := inferInstanceAs (Decidable (_ ∧ _))

/-- A path of names that is apart from what is published finds what it found
before. -/
lemma lookup?_foldl_assign {other : List String} (hnames : ∀ c ∈ other, KeyPath.IsName c)
    (hapart : ∀ e ∈ settings, Apart (KeyPath.split e.1) other) (m : Mapping) :
    Mapping.lookup? (settings.foldl (fun m e => assign m (KeyPath.split e.1) e.2) m) other =
      Mapping.lookup? m other := by
  induction settings generalizing m with
  | nil => rfl
  | cons e rest ih =>
    rw [List.forall_mem_cons] at hapart
    rw [List.foldl_cons, ih hapart.2]
    exact lookup?_assign_of_not_prefix hapart.1.1 hapart.1.2 hnames m e.2

/-- What is published is found, if nothing that is published later leads through
its path. -/
lemma get?_publish {earlier later : List (String × Value)} {path : String} {v : Value}
    (h : publish (earlier ++ (path, v) :: later) config = .ok config')
    (hnames : ∀ c ∈ KeyPath.split path, KeyPath.IsName c)
    (hapart : ∀ e ∈ later, Apart (KeyPath.split e.1) (KeyPath.split path))
    (hne : KeyPath.split path ≠ []) : config'.get? path = some v := by
  rw [Store.get?, settings_of_publish h, List.foldl_append, List.foldl_cons,
    lookup?_foldl_assign hnames hapart]
  exact lookup?_assign hne _ v

variable {s : Site} {route : String} {request : Request}

/-- What a request publishes. -/
lemma published_eq (s : Site) (route : String) (request : Request) :
    ∃ more : List (String × Value), (∀ e ∈ more, e.1 = RenderOptions.minimizePath) ∧
      s.published route request =
        ("env.src", .str s.settings.src) :: ("env.route", .str route) ::
          ("env.request_id", .str request.id.text) :: more := by
  rw [published]
  cases s.settings.minimize with
  | none => exact ⟨[], by simp, rfl⟩
  | some minimize => exact ⟨[(RenderOptions.minimizePath, .bool minimize)], by simp, rfl⟩

/-- The source and the route of a request are published, and the content of the
page stays as it was. -/
lemma get?_of_publish (h : publish (s.published route request) config = .ok config') :
    config'.get? "env.src" = some (.str s.settings.src) ∧
      config'.get? "env.route" = some (.str route) ∧
      config'.get? contentPath = config.get? contentPath := by
  have hsrc : KeyPath.split "env.src" = ["env", "src"] := by decide +kernel
  have hroute : KeyPath.split "env.route" = ["env", "route"] := by decide +kernel
  have hid : KeyPath.split "env.request_id" = ["env", "request_id"] := by decide +kernel
  have hminimize : KeyPath.split RenderOptions.minimizePath = ["minimize"] := by decide +kernel
  have hcontent : KeyPath.split contentPath = ["content"] := by decide +kernel
  have henv : KeyPath.IsName "env" := fun _ => rfl
  obtain ⟨more, hmore, hpublished⟩ := published_eq s route request
  have hlater : ∀ other, Apart ["minimize"] other →
      ∀ e ∈ more, Apart (KeyPath.split e.1) other := by
    intro other hother e he
    rw [hmore e he, hminimize]
    exact hother
  rw [hpublished] at h
  refine ⟨?_, ?_, ?_⟩
  · have hafter : publish ([] ++ ("env.src", .str s.settings.src) :: ("env.route", .str route) ::
        ("env.request_id", .str request.id.text) :: more) config = .ok config' := h
    refine get?_publish hafter ?_ ?_ (by simp [hsrc])
    · rw [hsrc]
      exact List.forall_mem_cons.mpr ⟨henv, List.forall_mem_singleton.mpr fun _ => rfl⟩
    · simp only [List.forall_mem_cons, hsrc, hroute, hid]
      exact ⟨by decide, by decide, hlater _ (by decide)⟩
  · have hafter : publish ([("env.src", .str s.settings.src)] ++ ("env.route", .str route) ::
        ("env.request_id", .str request.id.text) :: more) config = .ok config' := h
    refine get?_publish hafter ?_ ?_ (by simp [hroute])
    · rw [hroute]
      exact List.forall_mem_cons.mpr ⟨henv, List.forall_mem_singleton.mpr fun _ => rfl⟩
    · simp only [List.forall_mem_cons, hroute, hid]
      exact ⟨by decide, hlater _ (by decide)⟩
  · rw [Store.get?, Store.get?, hcontent, settings_of_publish h]
    refine lookup?_foldl_assign (List.forall_mem_singleton.mpr fun _ => rfl) ?_ config.settings
    simp only [List.forall_mem_cons, hsrc, hroute, hid]
    exact ⟨by decide, by decide, by decide, hlater _ (by decide)⟩

/-! ### The configuration of a request -/

/-- The steps of the configuration of a request. -/
lemma exists_of_configFor (h : s.configFor route request = .ok config) :
    ∃ base paged shown, s.settings.seeds.foldlM (addSeed s.files) s.config = .ok base ∧
      addPage (s.pageAt? route) base = .ok paged ∧
      publish (s.published route request) paged = .ok shown ∧ config = shown.lock := by
  rw [configFor] at h
  obtain ⟨base, hbase, h⟩ := exists_of_bind_eq_ok h
  obtain ⟨paged, hpaged, h⟩ := exists_of_bind_eq_ok h
  obtain ⟨shown, hshown, h⟩ := exists_of_bind_eq_ok h
  cases h
  exact ⟨base, paged, shown, hbase, eq_ok_of_mapError hpaged, eq_ok_of_mapError hshown, rfl⟩

/-- The settings that a document is compiled in: those of a store with the document
laid over them. -/
def overlaid (base : Store) (document : Mapping) : Store :=
  { base with settings := Mapping.merge base.settings (Mapping.expand document) }

/-- Loading a document compiles it in these settings. -/
lemma settings_of_addPage {base paged : Store} {document : Mapping}
    (h : addPage (some document) base = .ok paged) :
    paged.settings = compileAll (overlaid base document).settings := by
  rw [addPage, load?, guarded] at h
  split_ifs at h
  cases h
  rfl

/-- The nodes of a page show the texts of its content. -/
lemma exists_of_nodes? {nodes : List Node} (h : nodes? config = .ok (some nodes)) :
    ∃ content, config.get? contentPath = some content ∧
      (Node.textsOfValue content).Sublist (Node.shownTexts nodes) := by
  rw [nodes?] at h
  split at h
  · cases h
  · next content hcontent =>
    obtain ⟨tree, htree, h⟩ := exists_of_map_eq_ok h
    refine ⟨content, hcontent, (Node.sublist_of_ofValue htree).trans ?_⟩
    split at h
    · next ld _ =>
      cases h
      exact LinkedData.sublist_inject tree ld
    · cases h
      exact .refl _

/-- A response with the page of a configuration that is made without failure. -/
lemma exists_of_respond {body : String} (h : s.respond route request = .ok ⟨200, body⟩) :
    ∃ config nodes, s.configFor route request = .ok config ∧
      nodes? config = .ok (some nodes) ∧
      ((Renderer.new config s.templates).page nodes).failure = none ∧
      body = ((Renderer.new config s.templates).page nodes).text := by
  rw [respond] at h
  obtain ⟨config, hconfig, h⟩ := exists_of_bind_eq_ok h
  obtain ⟨found, hfound, h⟩ := exists_of_bind_eq_ok h
  cases found with
  | none => simp [Response.notFound, pure, Except.pure] at h
  | some nodes =>
    have hpage : Response.ofPage ((Renderer.new config s.templates).page nodes) = ⟨200, body⟩ :=
      Except.ok.inj h
    rw [Response.ofPage, Response.mk.injEq] at hpage
    refine ⟨config, nodes, eq_ok_of_mapError hconfig, eq_ok_of_mapError hfound, ?_, hpage.2.symm⟩
    by_contra hfailure
    simp [hfailure] at hpage

/-- What is published is found by the tokens of a page. -/
lemma get?_of_configFor (h : s.configFor route request = .ok config) {path value : String}
    (hvalue : (path, value) ∈ [("env.src", s.settings.src), ("env.route", route)]) :
    config.get? path = some (.str value) := by
  obtain ⟨base, paged, shown, -, -, hshown, rfl⟩ := exists_of_configFor h
  obtain ⟨hsrc, hroute, -⟩ := get?_of_publish hshown
  simp only [List.mem_cons, List.not_mem_nil, or_false, Prod.mk.injEq] at hvalue
  rcases hvalue with ⟨rfl, rfl⟩ | ⟨rfl, rfl⟩
  · exact hsrc
  · exact hroute

/-- The content of a page is that of its document with its strings compiled, while a
path that leads nowhere in it leads nowhere. -/
lemma exists_content_of_configFor (h : s.configFor route request = .ok config) {base : Store}
    (hbase : s.settings.seeds.foldlM (addSeed s.files) s.config = .ok base) {document : Mapping}
    (hpage : s.pageAt? route = some document) {path : List String}
    (hnowhere : Mapping.lookup? (overlaid base document).settings path = none) {content' : Value}
    (hcontent' : config.get? contentPath = some content') :
    ∃ content, (overlaid base document).get? contentPath = some content ∧
      Value.Reworded (Recompiled path) content content' := by
  obtain ⟨base', paged, shown, hbase', hpaged, hshown, rfl⟩ := exists_of_configFor h
  obtain rfl : base = base' := Except.ok.inj (hbase.symm.trans hbase')
  obtain ⟨-, -, hcontent⟩ := get?_of_publish hshown
  rw [hpage] at hpaged
  have hrel := (recompiled_compileAll hnowhere).lookup? (KeyPath.split contentPath)
  rw [← settings_of_addPage hpaged] at hrel
  have hpaged' : paged.get? contentPath = some content' := hcontent.symm.trans hcontent'
  exact Value.exists_of_rel_some (hpaged' ▸ hrel)

/-! ### Pages -/

/-- Whether a text is written for a string in which every token of a path becomes a
value. What is before and after the token is put in other words, as a relation says,
and then its tokens are replaced, each on its own. -/
def Replaced (R : String → String → Prop) (config : Store) (path value : String)
    (s written : String) : Prop :=
  ∀ (before after : String) (t : Placeholder.Token), s = before ++ t.rawText ++ after →
    t.key = path → ∃ (scope : Scope) (before' after' : String), R before before' ∧
      R after after' ∧
      written = scope.interpolate config before' ++ value ++ scope.interpolate config after'

/-- A text whose tokens of a path are still there when it is written. -/
lemma replaced_text {R : String → String → Prop} {path value : String}
    (henv : Scope.isEnvPath path = true) (hpath : Placeholder.IsKey path.toList)
    (hget : config.get? path = some (.str value))
    (hR : ∀ {t : Placeholder.Token} {k : List Char} {before after s : String}, t.key = path →
      t.Proper k → R (before ++ t.rawText ++ after) s → ∃ before' after',
        s = before' ++ t.rawText ++ after' ∧ R before before' ∧ R after after')
    {content content' : String} (h : R content content') :
    Replaced R config path (Text.trim value) content (Renderer.text config content') := by
  intro before after t hcontent hkey
  have hne : t.key ≠ "" := by
    rw [hkey]
    rintro rfl
    exact absurd henv (by decide +kernel)
  obtain ⟨k, ht⟩ := Placeholder.Token.exists_proper hne (hkey ▸ hpath)
  rw [hcontent] at h
  obtain ⟨before', after', rfl, hbefore, hafter⟩ := hR hkey ht h
  exact ⟨.text (before' ++ t.rawText ++ after'), before', after', hbefore, hafter,
    Scope.interpolate_append_token henv hget hkey ht _ before' after'⟩

/-- The paths that a request publishes lead into the configuration and can be
written as tokens. -/
lemma isEnvPath_of_mem {path value src : String}
    (h : (path, value) ∈ [("env.src", src), ("env.route", route)]) :
    Scope.isEnvPath path = true ∧ Placeholder.IsKey path.toList := by
  simp only [List.mem_cons, List.not_mem_nil, or_false, Prod.mk.injEq] at h
  rcases h with ⟨rfl, -⟩ | ⟨rfl, -⟩
  · exact ⟨by decide +kernel, by decide +kernel⟩
  · exact ⟨by decide +kernel, by decide +kernel⟩

/-- **The values of a request** in its page: if the path of a published value led
nowhere in the settings that the page was compiled in, then every token of this path
in a text of the page's content has become the trimmed value where the text stands
in the page, and so has every such token in a text that is not compiled, as those of
templates are. -/
theorem respond_shows_published {body : String}
    (h : s.respond route request = .ok ⟨200, body⟩) {base : Store}
    (hbase : s.settings.seeds.foldlM (addSeed s.files) s.config = .ok base) {document : Mapping}
    (hpage : s.pageAt? route = some document) {path value : String}
    (hvalue : (path, value) ∈ [("env.src", s.settings.src), ("env.route", route)])
    (hnowhere : (overlaid base document).get? path = none) :
    ∃ config nodes content written,
      s.configFor route request = .ok config ∧ nodes? config = .ok (some nodes) ∧
      (overlaid base document).get? contentPath = some content ∧
      let r := Renderer.new config s.templates
      body = Cleanup.finish true r.options.minimize (r.draft nodes) ∧
      Woven written (r.draft nodes) ∧
      List.Forall₂ (Replaced (Recompiled (KeyPath.split path)) config path (Text.trim value))
        (Node.textsOfValue content) written ∧
      ∀ text, Replaced Eq config path (Text.trim value) text (Renderer.text config text) := by
  obtain ⟨config, nodes, hconfig, hnodes, hfailure, hbody⟩ := exists_of_respond h
  obtain ⟨content', hcontent', htexts⟩ := exists_of_nodes? hnodes
  obtain ⟨content, hcontent, hreworded⟩ :=
    exists_content_of_configFor hconfig hbase hpage hnowhere hcontent'
  have hget := get?_of_configFor hconfig hvalue
  obtain ⟨henv, hkey⟩ := isEnvPath_of_mem hvalue
  refine ⟨config, nodes, content, (Node.textsOfValue content').map (Renderer.text config), hconfig,
    hnodes, hcontent, hbody, ?_, ?_, ?_⟩
  -- The texts of the content stand one behind the other, with what else the nodes show.
  · exact (Renderer.walk_shows _ nodes hfailure).sublist (htexts.map _)
  -- Each of them was compiled, which kept its tokens, before it was written.
  · refine List.forall₂_map_right_iff.mpr ((Node.forall₂_textsOfValue hreworded).imp ?_)
    intro text text' htext
    refine replaced_text henv hkey hget (fun hpath ht hcompiled => ?_) htext
    rw [← hpath] at hcompiled ⊢
    exact hcompiled.exists_append ht
  · intro text
    exact replaced_text henv hkey hget (fun _ _ hsame => ⟨_, _, hsame.symm, rfl, rfl⟩) rfl

/-- A page whose text names the source, and a template with the same text. -/
def sourceSite (config : Store) : Site :=
  let content : Value := .obj [("p", .obj [("children", .arr
    [.obj [("textNode", .str "from \x7b%env.src%\x7d, ")], .obj [("include", .str "note")]])])]
  { config
    documents := Collections.empty.insert "pages" [("route", .str "/"), ("content", content)]
    templates := Templates.ofList [("note", "\x7b\"textNode\": \"\x7b%env.src%\x7d\"\x7d")]
    files := Files.none
    settings := { src := " /new " } }

/-- The page under settings that say nothing about the source. -/
theorem respond_shows_published_source :
    let s := sourceSite ⟨[("env", .obj [("title", .str "Shop")])], true⟩
    let request := Request.new ⟨0⟩
    let document : Mapping := (s.pageAt? "/").getD []
    s.respond "/" request = .ok ⟨200, "<p>from /new, /new</p>"⟩ ∧
      s.settings.seeds.foldlM (addSeed s.files) s.config = .ok s.config ∧
      s.pageAt? "/" = some document ∧
      ("env.src", " /new ") ∈ [("env.src", s.settings.src), ("env.route", "/")] ∧
      (overlaid s.config document).get? "env.src" = none ∧
      ∃ config nodes content written,
        s.configFor "/" request = .ok config ∧ nodes? config = .ok (some nodes) ∧
        (overlaid s.config document).get? contentPath = some content ∧
        let r := Renderer.new config s.templates
        "<p>from /new, /new</p>" = Cleanup.finish true r.options.minimize (r.draft nodes) ∧
        Woven written (r.draft nodes) ∧
        List.Forall₂ (Replaced (Recompiled (KeyPath.split "env.src")) config "env.src"
          (Text.trim " /new ")) (Node.textsOfValue content) written ∧
        ∀ text, Replaced Eq config "env.src" (Text.trim " /new ") text
          (Renderer.text config text) := by
  intro s request document
  have hrespond : s.respond "/" request = .ok ⟨200, "<p>from /new, /new</p>"⟩ :=
    eq_ok_of_toOption (by decide +kernel)
  have hbase : s.settings.seeds.foldlM (addSeed s.files) s.config = .ok s.config := rfl
  have hpage : s.pageAt? "/" = some document := by decide +kernel
  have hvalue : ("env.src", " /new ") ∈ [("env.src", s.settings.src), ("env.route", "/")] :=
    List.mem_cons_self
  have hnowhere : (overlaid s.config document).get? "env.src" = none := by decide +kernel
  exact ⟨hrespond, hbase, hpage, hvalue, hnowhere,
    respond_shows_published hrespond hbase hpage hvalue hnowhere⟩

/-- Under settings with an older source the text of the page shows the older one, and
the text of the template the one that is published. -/
theorem not_shows_published :
    let s := sourceSite ⟨[("env", .obj [("src", .str "/old")])], true⟩
    let request := Request.new ⟨0⟩
    ((s.configFor "/" request).toOption.bind fun config => config.get? "env.src") =
        some (.str " /new ") ∧
      s.respond "/" request = .ok ⟨200, "<p>from /old, /new</p>"⟩ := by
  intro s request
  exact ⟨by decide +kernel, eq_ok_of_toOption (by decide +kernel)⟩

end Site

end PageTree
