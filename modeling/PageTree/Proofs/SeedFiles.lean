/-
Seed files that cannot be used.

A request makes its configuration on a copy of the base, in place: what is done before an
error stays done, and an error of a seed file is caught, with the copy as it is then. So a
file that cannot be used must leave nothing behind in the copy, and an error of the lock
must not be caught with the others. The program is made of the changes in place; it does
what the function does, and only on the copy.

* `Desk`, `Building`: a base and a copy of it, and programs that work on the copy;
* `Building.Does`: programs that do to the copy what a function does to a store;
* `Site.build`, `Site.build_does`: the configuration of a request as a program;
* `Site.usable`: a site without the seed files that cannot be used;
* `Site.build_unless_locked`: **bad seed files** cost themselves alone, and nothing goes
  wrong but on a locked base.
-/
import PageTree.Proofs.Layers

namespace PageTree

/-! ### Programs on a copy -/

/-- The base configuration of a site, and the copy of it that a request works on. -/
structure Desk where
  base : Store
  copy : Workspace

/-- Programs that work on a copy. What was done before an error stays done. -/
abbrev Building (α : Type) := EStateM ConfigError Desk α

namespace Building

open InPlace

/-- Starts with a copy of the base. -/
def start : Building Unit :=
  modify fun d => { d with copy := { d.copy with store := d.base } }

/-- An operation on the copy. -/
def perform (op : Operation) : Building Unit := fun d =>
  match op.run d.copy with
  | .ok _ copy => .ok () { d with copy }
  | .error e copy => .error e { d with copy }

/-- Loads a seed file into the copy. An error of the file is caught, any other error goes
on. -/
def addSeed (files : Files) (seed : String) : Building Unit :=
  tryCatch (perform (.loadFile files seed)) fun e =>
    if e.isSourceError then pure () else throw e

/-- Loads the document of a page into the copy, if there is one. -/
def addPage : Option Mapping → Building Unit
  | some document => perform (.loadMap document)
  | none => pure ()

/-- Puts some settings into the copy. -/
def publish (settings : List (String × Value)) : Building Unit :=
  settings.forM fun e => perform (.set e.1 e.2)

/-- Locks the copy, and answers it. -/
def finish : Building Store := fun d =>
  .ok d.copy.store.lock { d with copy := { d.copy with store := d.copy.store.lock } }

/-! ### Programs and functions -/

/-- Whether a program does to the copy what a function does to a store, and nothing to the
base. -/
structure Does (x : Building Unit) (f : Store → Except ConfigError Store) : Prop where
  ok : ∀ {here there}, f here = .ok there → ∀ base looks,
    ∃ looks', x ⟨base, ⟨here, looks⟩⟩ = .ok () ⟨base, ⟨there, looks'⟩⟩
  error : ∀ {here e}, f here = .error e → ∀ base looks,
    ∃ copy, x ⟨base, ⟨here, looks⟩⟩ = .error e ⟨base, copy⟩

namespace Does

variable {x y : Building Unit} {f g : Store → Except ConfigError Store}

/-- A program that leaves the copy as it is if there is an error. -/
lemma of_eq (h : ∀ base here looks, ∃ looks', x ⟨base, ⟨here, looks⟩⟩ =
    match f here with
    | .ok there => .ok () ⟨base, ⟨there, looks'⟩⟩
    | .error e => .error e ⟨base, ⟨here, looks'⟩⟩) : Does x f where
  ok := by
    intro here there hf base looks
    obtain ⟨looks', hrun⟩ := h base here looks
    exact ⟨looks', by rw [hrun, hf]⟩
  error := by
    intro here e hf base looks
    obtain ⟨looks', hrun⟩ := h base here looks
    exact ⟨⟨here, looks'⟩, by rw [hrun, hf]⟩

lemma congr (h : Does x f) (hfg : ∀ here, f here = g here) : Does x g := funext hfg ▸ h

/-- Nothing. -/
lemma pure : Does (pure ()) .ok := of_eq fun _ _ looks => ⟨looks, rfl⟩

/-- One program after another. -/
lemma bind (hx : Does x f) (hy : Does y g) : Does (do x; y) fun here => f here >>= g where
  ok := by
    intro here there h base looks
    obtain ⟨between, hf, hg⟩ := exists_of_bind_eq_ok h
    obtain ⟨looks', hrun⟩ := hx.ok hf base looks
    obtain ⟨looks'', hrun'⟩ := hy.ok hg base looks'
    exact ⟨looks'', (bind_of_ok hrun _).trans hrun'⟩
  error := by
    intro here e h base looks
    cases hf : f here with
    | error e' =>
      obtain ⟨copy, hrun⟩ := hx.error hf base looks
      rw [hf] at h
      cases h
      exact ⟨copy, bind_of_error hrun _⟩
    | ok between =>
      obtain ⟨looks', hrun⟩ := hx.ok hf base looks
      rw [hf] at h
      obtain ⟨copy, hrun'⟩ := hy.error h base looks'
      exact ⟨copy, (bind_of_ok hrun _).trans hrun'⟩

/-- Many programs one after the other. -/
lemma forM {β : Type} {x : β → Building Unit} {f : Store → β → Except ConfigError Store}
    (h : ∀ b, Does (x b) fun here => f here b) (bs : List β) :
    Does (bs.forM x) fun here => bs.foldlM f here := by
  induction bs with
  | nil => exact .pure
  | cons b rest ih =>
    simp only [List.foldlM_cons]
    exact (h b).bind ih

end Does

/-- An operation as a program and as a function. After an error the copy is as it was. -/
lemma perform_eq (op : Operation) (base here : Store) (looks : List Access) :
    perform op ⟨base, ⟨here, looks⟩⟩ =
      match op.outcome here with
      | .ok (_, there) => .ok () ⟨base, ⟨there, looks ++ op.accesses here⟩⟩
      | .error e => .error e ⟨base, ⟨here, looks ++ op.accesses here⟩⟩ := by
  rw [perform, Operation.run_eq]
  cases op.outcome here <;> rfl

lemma perform_does (op : Operation) :
    Does (perform op) fun here => (op.outcome here).map (·.2) := by
  refine .of_eq fun base here looks => ⟨looks ++ op.accesses here, ?_⟩
  rw [perform_eq]
  cases op.outcome here <;> rfl

/-- A seed file that cannot be used leaves nothing behind. -/
lemma addSeed_does (files : Files) (seed : String) :
    Does (addSeed files seed) fun here => Site.addSeed files here seed := by
  refine .of_eq fun base here looks =>
    ⟨looks ++ (Operation.loadFile files seed).accesses here, ?_⟩
  have hload := perform_eq (.loadFile files seed) base here looks
  simp only [addSeed, tryCatch, tryCatchThe, MonadExceptOf.tryCatch, EStateM.tryCatch, hload]
  rw [Operation.outcome, Site.addSeed]
  cases here.loadFile? files seed with
  | ok there => rfl
  | error e => cases hsource : e.isSourceError <;> simp [Except.map, hsource] <;> rfl

lemma addPage_does (page : Option Mapping) :
    Does (addPage page) fun here => (Site.addPage page here).mapError .locked := by
  cases page with
  | none => exact .pure
  | some document =>
    refine (perform_does (.loadMap document)).congr fun here => ?_
    rw [Operation.outcome, Site.addPage]
    cases here.load? document <;> rfl

lemma publish_does (settings : List (String × Value)) :
    Does (publish settings) fun here => (Site.publish settings here).mapError .locked := by
  have hset := Does.forM (fun e : String × Value => perform_does (.set e.1 e.2)) settings
  refine hset.congr fun here => ?_
  clear hset
  induction settings generalizing here with
  | nil => rfl
  | cons e rest ih =>
    rw [List.foldlM_cons, Site.publish, List.foldlM_cons, Operation.outcome]
    cases here.set? e.1 e.2 with
    | ok there => exact ih there
    | error reason => rfl

end Building

/-! ### The configuration of a request -/

namespace Site

open Building

variable {s : Site} {route : String} {request : Request}

/-- What a request does to the copy. -/
def changes (s : Site) (route : String) (request : Request) : Building Unit := do
  s.settings.seeds.forM (Building.addSeed s.files)
  Building.addPage (s.pageAt? route)
  Building.publish (s.published route request)

/-- The configuration of a request, made in place. -/
def build (s : Site) (route : String) (request : Request) : Building Store := do
  start
  s.changes route request
  finish

/-- What a request does to a store before it is locked. -/
def changed (s : Site) (route : String) (request : Request) (here : Store) :
    Except ConfigError Store := do
  let here ← s.settings.seeds.foldlM (Site.addSeed s.files) here
  let here ← (Site.addPage (s.pageAt? route) here).mapError .locked
  (Site.publish (s.published route request) here).mapError .locked

lemma configFor_eq_changed (s : Site) (route : String) (request : Request) :
    s.configFor route request = (s.changed route request s.config).map Store.lock := by
  rw [configFor, changed]
  cases s.settings.seeds.foldlM (Site.addSeed s.files) s.config with
  | error e => rfl
  | ok here =>
    simp only [bind, Except.bind]
    cases (Site.addPage (s.pageAt? route) here).mapError ConfigError.locked with
    | error e => rfl
    | ok here => rfl

lemma changes_does (s : Site) (route : String) (request : Request) :
    Does (s.changes route request) (s.changed route request) :=
  (Does.forM (addSeed_does s.files) s.settings.seeds).bind
    ((addPage_does (s.pageAt? route)).bind (publish_does (s.published route request)))

/-- The program answers what the function gives, and leaves the base as it is. -/
lemma build_does (s : Site) (route : String) (request : Request) (copy : Workspace) :
    ∃ there, s.build route request ⟨s.config, copy⟩ =
      match s.configFor route request with
      | .ok config => .ok config ⟨s.config, there⟩
      | .error e => .error e ⟨s.config, there⟩ := by
  have hstart : start ⟨s.config, copy⟩ = .ok () ⟨s.config, ⟨s.config, copy.accesses⟩⟩ := rfl
  have hchanges := changes_does s route request
  rw [build, InPlace.bind_of_ok hstart, configFor_eq_changed]
  cases hresult : s.changed route request s.config with
  | ok config =>
    obtain ⟨looks, hrun⟩ := hchanges.ok hresult s.config copy.accesses
    exact ⟨_, InPlace.bind_of_ok hrun _⟩
  | error e =>
    obtain ⟨there, hrun⟩ := hchanges.error hresult s.config copy.accesses
    exact ⟨there, InPlace.bind_of_error hrun _⟩

/-- A site without the seed files that cannot be used. -/
def usable (s : Site) : Site :=
  { s with settings := { s.settings with
      seeds := s.settings.seeds.filter fun seed => (Source.ofFile s.files seed).isOk } }

lemma layers_usable (s : Site) (route : String) : s.usable.layers route = s.layers route := by
  have hdata : s.usable.seedData = s.seedData := by
    rw [seedData, seedData, usable, List.filterMap_filter]
    congr 1
    funext seed
    cases Source.ofFile s.files seed <;> rfl
  rw [layers, layers, hdata]
  rfl

/-- A request fails on the lock of the base, or seed files that cannot be used make no
difference. -/
lemma configFor_cases (s : Site) (route : String) (request : Request) :
    (s.config.mutable = false ∧
      ∃ change, s.configFor route request = .error (.locked ⟨change⟩)) ∨
    (s.config.mutable = true ∧ ∃ config, s.configFor route request = .ok config ∧
      config.mutable = false ∧ s.usable.configFor route request = .ok config) := by
  cases hmut : s.config.mutable with
  | false => exact .inl ⟨rfl, exists_configFor_of_locked hmut route request⟩
  | true =>
    have hmut' : s.usable.config.mutable = true := hmut
    refine .inr ⟨rfl, _, configFor_of_mutable hmut route request, rfl, ?_⟩
    rw [configFor_of_mutable hmut', layers_usable]
    rfl

/-- **Bad seed files** cost themselves alone. The configuration of a request is not made
exactly if the base is locked, and then the error tells of the lock. Otherwise it is locked,
and the same without the seed files that cannot be used. In place it is made on a copy, and
the base stays as it is, whatever happens. -/
theorem build_unless_locked (s : Site) (route : String) (request : Request) (copy : Workspace) :
    ((∃ e, s.configFor route request = .error e) ↔ s.config.mutable = false) ∧
    (∀ e, s.configFor route request = .error e → ∃ change, e = .locked ⟨change⟩) ∧
    (∀ config, s.configFor route request = .ok config →
      config.mutable = false ∧ s.usable.configFor route request = .ok config) ∧
    ∃ there, s.build route request ⟨s.config, copy⟩ =
      match s.configFor route request with
      | .ok config => .ok config ⟨s.config, there⟩
      | .error e => .error e ⟨s.config, there⟩ := by
  refine ⟨?_, ?_, ?_, build_does s route request copy⟩
  all_goals
    rcases configFor_cases s route request with
      ⟨hlocked, change, hresult⟩ | ⟨hmut, config, hresult, hconfig, husable⟩
  · exact ⟨fun _ => hlocked, fun _ => ⟨_, hresult⟩⟩
  · simp [hresult, hmut]
  · intro e he
    obtain rfl := Except.error.inj (hresult.symm.trans he)
    exact ⟨change, rfl⟩
  · simp [hresult]
  · simp [hresult]
  · intro config' hconfig'
    obtain rfl := Except.ok.inj (hresult.symm.trans hconfig')
    exact ⟨hconfig, husable⟩

/-- A site with a seed file that is missing, one that is a sequence, one without a known
format, and one that can be used. -/
def spoiltSite : Site where
  config := .empty
  documents := Collections.empty
  templates := .none
  files path :=
    if path = "list.json" then .ok "[1, 2]"
    else if path = "site.json" then .ok "\x7b\"title\": \"Acme\"\x7d"
    else .error .missing
  settings := { seeds := ["none.json", "list.json", "site.ini", "site.json"] }

/-- Only the last of these seed files is needed. -/
theorem build_unless_locked_spoilt :
    let request := Request.new ⟨0⟩
    let config : Store := ⟨[("title", .str "Acme"), ("env", .obj [("src", .str ""),
      ("route", .str "/"), ("request_id", .str "00000000-0000-0000-0000-000000000000")])], false⟩
    spoiltSite.usable.settings.seeds = ["site.json"] ∧
      spoiltSite.configFor "/" request = .ok config ∧
      config.mutable = false ∧ spoiltSite.usable.configFor "/" request = .ok config := by
  intro request config
  have hseeds : spoiltSite.usable.settings.seeds = ["site.json"] := by decide +kernel
  have hconfig : spoiltSite.configFor "/" request = .ok config :=
    eq_ok_of_toOption (by decide +kernel)
  exact ⟨hseeds, hconfig,
    (build_unless_locked spoiltSite "/" request ⟨.empty, []⟩).2.2.1 config hconfig⟩

end Site

end PageTree
