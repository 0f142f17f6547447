/-
The layers of a request's configuration.

The configuration of a request starts from the settings of the site. The data of each
seed file that can be used is laid over them, then the document of the page; after each
layer the strings are compiled. What the request publishes comes last, so it is found
whatever the layers hold. If no string has an opening mark, compiling does nothing, and
the configuration is the layers alone.

* `Site.layers`: the data of the seed files and of the page;
* `Site.configFor_of_mutable`, `Site.exists_configFor_of_locked`: the configuration of a
  request in one expression, and why there is none;
* `Site.get?_of_published`: what is published is found;
* `Site.configFor_layers`: **the layers** of a configuration.
-/
import PageTree.Proofs.InPlace
import PageTree.Proofs.Merging
import PageTree.Proofs.Recompiling
import PageTree.Proofs.RequestValues

namespace PageTree

/-! ### One layer -/

namespace Store

open Value

variable {m data : Mapping} {s : Store}

/-- Some settings after a mapping is loaded. -/
def loaded (m data : Mapping) : Mapping := compileAll (Mapping.merge m (Mapping.expand data))

/-- Whether no string of some settings has an opening mark. -/
def Markless (m : Mapping) : Prop := ∀ text ∈ entryStrings m, ¬ "\x7b%".toList <:+: text.toList

instance (m : Mapping) : Decidable (Markless m) :=
  inferInstanceAs (Decidable (∀ text ∈ entryStrings m, ¬ "\x7b%".toList <:+: text.toList))

/-- Compiling leaves strings without opening marks alone. -/
lemma Markless.compileAll_eq (h : Markless m) : compileAll m = m := by
  refine compileAll_eq_self fun text htext => ?_
  refine compileText_of_tokens_eq_nil (tokens_eq_nil_of_hasOpening ?_)
  rw [← Bool.not_eq_true, Placeholder.hasOpening_iff]
  exact h text htext

lemma Markless.merge (h : Markless m) (hdata : Markless data) :
    Markless (Mapping.merge m (Mapping.expand data)) :=
  Value.forall_strings_mergeEntries (Value.forall_strings_expand hdata) h

/-- Layers without opening marks are merged and nothing else. -/
lemma Markless.foldl_loaded {layers : List Mapping} (h : Markless m)
    (hlayers : ∀ data ∈ layers, Markless data) :
    layers.foldl loaded m =
      layers.foldl (fun m data => Mapping.merge m (Mapping.expand data)) m := by
  induction layers generalizing m with
  | nil => rfl
  | cons data rest ih =>
    rw [List.forall_mem_cons] at hlayers
    have hmerge := h.merge hlayers.1
    rw [List.foldl_cons, List.foldl_cons, loaded, hmerge.compileAll_eq, ih hmerge hlayers.2]

end Store

namespace Site

open Store

variable {s : Site} {route : String} {request : Request} {config config' : Store}

/-! ### All layers -/

/-- The data of the seed files that can be used, in order. -/
def seedData (s : Site) : List Mapping :=
  s.settings.seeds.filterMap fun seed => (Source.ofFile s.files seed).toOption

/-- What is laid over the settings of a site: the data of its seed files, and the document
of the page. -/
def layers (s : Site) (route : String) : List Mapping := s.seedData ++ (s.pageAt? route).toList

/-- Changes of settings that are not locked, one after the other. -/
lemma foldlM_of_mutable {ε β : Type} {change : Store → β → Except ε Store}
    {f : Mapping → β → Mapping} (hchange : ∀ m b, change ⟨m, true⟩ b = .ok ⟨f m b, true⟩)
    (bs : List β) (m : Mapping) :
    bs.foldlM change ⟨m, true⟩ = .ok ⟨bs.foldl f m, true⟩ := by
  induction bs generalizing m with
  | nil => rfl
  | cons b rest ih =>
    rw [List.foldlM_cons, hchange]
    exact ih (f m b)

/-- A seed file that can be used is loaded, and any other one is passed over. -/
lemma addSeed_of_mutable (files : Files) (m : Mapping) (seed : String) :
    addSeed files ⟨m, true⟩ seed =
      .ok ⟨((Source.ofFile files seed).toOption.map (loaded m)).getD m, true⟩ := by
  rw [addSeed, loadFile?, loadSource?_of_mutable rfl]
  cases hfile : Source.ofFile files seed with
  | ok data => rfl
  | error e =>
    have hsource := Operation.isSourceError_of_ofFile hfile
    simp only [Except.map, hsource, if_true]
    rfl

/-- Only the data of the seed files that can be used matters. -/
lemma foldlM_addSeed_of_mutable (files : Files) (seeds : List String) (m : Mapping) :
    seeds.foldlM (addSeed files) ⟨m, true⟩ =
      .ok ⟨(seeds.filterMap fun seed => (Source.ofFile files seed).toOption).foldl loaded m,
        true⟩ := by
  rw [foldlM_of_mutable (addSeed_of_mutable files), List.foldl_filterMap]
  congr 3
  funext m seed
  cases (Source.ofFile files seed).toOption <;> rfl

lemma addPage_of_mutable (page : Option Mapping) (m : Mapping) :
    addPage page ⟨m, true⟩ = .ok ⟨page.toList.foldl loaded m, true⟩ := by
  cases page <;> rfl

lemma publish_of_mutable (settings : List (String × Value)) (m : Mapping) :
    publish settings ⟨m, true⟩ =
      .ok ⟨settings.foldl (fun m e => assign m (KeyPath.split e.1) e.2) m, true⟩ :=
  foldlM_of_mutable (fun _ _ => rfl) settings m

/-- The configuration of a request in one expression. -/
lemma configFor_of_mutable (h : s.config.mutable = true) (route : String) (request : Request) :
    s.configFor route request =
      .ok ⟨(s.published route request).foldl (fun m e => assign m (KeyPath.split e.1) e.2)
        ((s.layers route).foldl loaded s.config.settings), false⟩ := by
  have hbase : s.config = ⟨s.config.settings, true⟩ := by rw [← h]
  rw [configFor, hbase, foldlM_addSeed_of_mutable, layers, List.foldl_append]
  simp only [bind, Except.bind, addPage_of_mutable, Except.mapError, publish_of_mutable]
  rfl

/-- On a locked base the first change is refused. -/
lemma exists_configFor_of_locked (h : s.config.mutable = false) (route : String)
    (request : Request) : ∃ change, s.configFor route request = .error (.locked ⟨change⟩) := by
  have hbase : s.config = ⟨s.config.settings, false⟩ := by rw [← h]
  rw [configFor, hbase]
  cases s.settings.seeds with
  | cons seed rest => exact ⟨.load, rfl⟩
  | nil =>
    cases s.pageAt? route with
    | some document => exact ⟨.load, rfl⟩
    | none => exact ⟨.set, rfl⟩

/-! ### What is published -/

/-- The id of a request and the setting for minimized pages are published. -/
lemma get?_of_published (h : publish (s.published route request) config = .ok config') :
    config'.get? "env.request_id" = some (.str request.id.text) ∧
      ∀ minimize, s.settings.minimize = some minimize →
        config'.get? RenderOptions.minimizePath = some (.bool minimize) := by
  have hid : KeyPath.split "env.request_id" = ["env", "request_id"] := by decide +kernel
  have hminimize : KeyPath.split RenderOptions.minimizePath = ["minimize"] := by decide +kernel
  constructor
  · obtain ⟨more, hmore, hpublished⟩ := published_eq s route request
    rw [hpublished] at h
    have hafter : publish ([("env.src", .str s.settings.src), ("env.route", .str route)] ++
        ("env.request_id", .str request.id.text) :: more) config = .ok config' := h
    refine get?_publish hafter ?_ (fun e he => ?_) (by simp [hid])
    · rw [hid]
      exact List.forall_mem_cons.mpr ⟨fun _ => rfl, List.forall_mem_singleton.mpr fun _ => rfl⟩
    · rw [hmore e he, hid, hminimize]
      decide
  · intro minimize hsome
    rw [published, hsome] at h
    refine get?_publish h ?_ (fun e he => absurd he List.not_mem_nil) (by simp [hminimize])
    rw [hminimize]
    exact List.forall_mem_singleton.mpr fun _ => rfl

/-- **The layers** of a configuration: on a base that is not locked the configuration of a
request is always made, and what the request publishes is found in it, whatever the base,
the seed files and the page hold. If none of their strings has an opening mark, then it is
the base with the data of the seed files and of the page merged into it, in this order,
keys with dots being paths, and with what is published put at its paths. -/
theorem configFor_layers (s : Site) (hmut : s.config.mutable = true) (route : String)
    (request : Request) :
    ∃ config, s.configFor route request = .ok config ∧
      config.get? "env.src" = some (.str s.settings.src) ∧
      config.get? "env.route" = some (.str route) ∧
      config.get? "env.request_id" = some (.str request.id.text) ∧
      (∀ minimize, s.settings.minimize = some minimize →
        config.get? RenderOptions.minimizePath = some (.bool minimize)) ∧
      ((∀ data ∈ s.config.settings :: s.layers route, Markless data) →
        config = ⟨(s.published route request).foldl (fun m e => assign m (KeyPath.split e.1) e.2)
          ((s.layers route).foldl (fun m data => Mapping.merge m (Mapping.expand data))
            s.config.settings), false⟩) := by
  have hconfig := configFor_of_mutable hmut route request
  obtain ⟨base, paged, shown, -, -, hshown, heq⟩ := exists_of_configFor hconfig
  obtain ⟨hsrc, hroute, -⟩ := get?_of_publish hshown
  obtain ⟨hid, hminimize⟩ := get?_of_published hshown
  refine ⟨_, hconfig, ?_, ?_, ?_, ?_, ?_⟩
  · rw [heq]
    exact hsrc
  · rw [heq]
    exact hroute
  · rw [heq]
    exact hid
  · rw [heq]
    exact hminimize
  · intro hmarkless
    rw [List.forall_mem_cons] at hmarkless
    rw [hmarkless.1.foldl_loaded hmarkless.2]

/-- A site whose settings, seed file and page say other things about `env`. -/
def scalarSite : Site where
  config := ⟨[("env", .str "none"), ("lang", .str "en")], true⟩
  documents := Collections.empty.insert "pages" [("route", .str "/"), ("env.src", .arr [.null])]
  templates := Templates.none
  files path :=
    if path = "site.json" then .ok "\x7b\"env\": [1, 2], \"site.name\": \"Acme\"\x7d"
    else .error .missing
  settings := { seeds := ["site.json"], src := "/static", minimize := some true }

/-- What is published takes the place of all this. -/
theorem configFor_layers_scalar :
    let s := scalarSite
    let request := Request.new ⟨0⟩
    s.config.mutable = true ∧ (∀ data ∈ s.config.settings :: s.layers "/", Markless data) ∧
    ∃ config, s.configFor "/" request = .ok config ∧
      config.get? "env.src" = some (.str s.settings.src) ∧
      config.get? "env.route" = some (.str "/") ∧
      config.get? "env.request_id" = some (.str request.id.text) ∧
      (∀ minimize, s.settings.minimize = some minimize →
        config.get? RenderOptions.minimizePath = some (.bool minimize)) ∧
      ((∀ data ∈ s.config.settings :: s.layers "/", Markless data) →
        config = ⟨(s.published "/" request).foldl (fun m e => assign m (KeyPath.split e.1) e.2)
          ((s.layers "/").foldl (fun m data => Mapping.merge m (Mapping.expand data))
            s.config.settings), false⟩) := by
  intro s request
  have hmut : s.config.mutable = true := rfl
  have hmarkless : ∀ data ∈ s.config.settings :: s.layers "/", Markless data := by decide +kernel
  exact ⟨hmut, hmarkless, configFor_layers s hmut "/" request⟩

/-- The settings of the request in order. -/
example : ((scalarSite.configFor "/" (Request.new ⟨0⟩)).toOption.map (·.settings)) =
    some [
      ("env", .obj [("src", .str "/static"), ("route", .str "/"),
        ("request_id", .str "00000000-0000-0000-0000-000000000000")]),
      ("lang", .str "en"), ("site", .obj [("name", .str "Acme")]), ("route", .str "/"),
      ("minimize", .bool true)] := by
  decide +kernel

end Site

end PageTree
