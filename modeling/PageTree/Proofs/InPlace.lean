/-
Changes in place.

The functions of a store give a new store, or an error and no store. A program that
works on one store in place has to be more careful, since what it did before an error
stays done. Here the changes are such programs: each looks at the lock where it does,
loading changes the settings before compiling looks at the lock once more, and every
text that is read or parsed is written down. They do what the functions do, so no change
stops half-way, in any run.

* `InPlace`, `Workspace`: programs that change a store and look at sources;
* `InPlace.set` up to `InPlace.loadSource`: the changes as programs;
* `Operation`: the changes, with locking and unlocking; `Operation.run` as programs and
  `Operation.outcome` as functions;
* `Operation.run_eq`: **programs and functions** do the same;
* `Operation.runAll_of_locked`: runs on a locked store;
* `Operation.run_atomic`: **errors and locks** at any point of a run.
-/
import Mathlib.Tactic.Common
import PageTree.Config.Source

namespace PageTree

/-! ### Programs -/

/-- A look at a source. -/
inductive Access where
  | read (path : String)
  | parse (name : String)

/-- A store, and the looks at sources so far. -/
structure Workspace where
  store : Store
  accesses : List Access

/-- A workspace after looks at sources. -/
def Workspace.look (w : Workspace) (accesses : List Access) : Workspace :=
  { w with accesses := w.accesses ++ accesses }

/-- A workspace with its settings changed. -/
def Workspace.mapSettings (w : Workspace) (f : Mapping → Mapping) : Workspace :=
  { w with store := { w.store with settings := f w.store.settings } }

/-- Programs that change a store. What was done before an error stays done. -/
abbrev InPlace (α : Type) := EStateM ConfigError Workspace α

namespace InPlace

/-- Stops with an error if the store is locked. -/
def ensureMutable (change : Change) : InPlace Unit := do
  if (← get).store.mutable then pure () else throw (.locked ⟨change⟩)

/-- Changes the settings. -/
def modifySettings (f : Mapping → Mapping) : InPlace Unit := modify (·.mapSettings f)

/-- Writes a look at a source down. -/
def access (a : Access) : InPlace Unit := modify (·.look [a])

/-- Puts a value at a dot path. -/
def set (path : String) (v : Value) : InPlace Unit := do
  ensureMutable .set
  modifySettings (Store.assign · (KeyPath.split path) v)

/-- Takes the value at a dot path away, and answers it. -/
def remove (path : String) : InPlace (Option Value) := do
  ensureMutable .remove
  match Store.take? (.obj (← get).store.settings) (KeyPath.split path) with
  | some (removed, .obj m) =>
    modifySettings fun _ => m
    pure (some removed)
  | _ => pure none

/-- Compiles the strings one after the other. -/
def compile : InPlace Unit := do
  ensureMutable .compile
  let places := Value.stringPlaces (.obj (← get).store.settings)
  places.forM fun place => modifySettings (Store.compileAt · place)

/-- Merges a mapping in, and compiles. -/
def loadMap (data : Mapping) : InPlace Unit := do
  ensureMutable .load
  modifySettings (Mapping.merge · (Mapping.expand data))
  compile

/-- The mapping that a text writes. -/
def parse (text : String) (format : Format) (name : String) : InPlace Mapping := do
  access (.parse name)
  match Source.parse text format name with
  | .ok m => pure m
  | .error e => throw e

/-- The mapping that a file holds. -/
def readFile (files : Files) (path : String) : InPlace Mapping :=
  match Format.ofPath? path with
  | none => throw (.unsupported path)
  | some format => do
    access (.read path)
    match files path with
    | .ok text => parse text format path
    | .error reason => throw (.unreadable path reason)

/-- The looks at a file: it is read if its name tells a format, and parsed if it can be
read. -/
def fileAccesses (files : Files) (path : String) : List Access :=
  match Format.ofPath? path, files path with
  | none, _ => []
  | some _, .ok _ => [.read path, .parse path]
  | some _, .error _ => [.read path]

/-- Loads the mapping of a source. -/
def loadSource (source : InPlace Mapping) : InPlace Unit := do
  ensureMutable .load
  let data ← source
  loadMap data

end InPlace

/-! ### Operations -/

/-- What can be done to a store. A file is loaded from the files as they are then. -/
inductive Operation where
  | set (path : String) (v : Value)
  | remove (path : String)
  | compile
  | loadMap (data : Mapping)
  | loadText (text : String) (format : Format) (name : String)
  | loadFile (files : Files) (path : String)
  | lock
  | unlock

namespace Operation

/-- The change that an operation makes, if a lock refuses it. -/
def change? : Operation → Option Change
  | .set .. => some .set
  | .remove _ => some .remove
  | .compile => some .compile
  | .loadMap _ | .loadText .. | .loadFile .. => some .load
  | .lock | .unlock => none

/-- Whether an operation looks at a source. -/
def hasSource : Operation → Bool
  | .loadText .. | .loadFile .. => true
  | _ => false

/-- An operation as a program; its answer is the value that is taken away. -/
def run : Operation → InPlace (Option Value)
  | .set path v => do InPlace.set path v; pure none
  | .remove path => InPlace.remove path
  | .compile => do InPlace.compile; pure none
  | .loadMap data => do InPlace.loadMap data; pure none
  | .loadText text format name => do InPlace.loadSource (.parse text format name); pure none
  | .loadFile files path => do InPlace.loadSource (.readFile files path); pure none
  | .lock => do modify fun w => { w with store := w.store.lock }; pure none
  | .unlock => do modify fun w => { w with store := w.store.unlock }; pure none

/-- An operation as a function of the store. -/
def outcome (op : Operation) (s : Store) : Except ConfigError (Option Value × Store) :=
  match op with
  | .set path v => ((s.set? path v).mapError .locked).map (none, ·)
  | .remove path => (s.remove? path).mapError .locked
  | .compile => (s.compile?.mapError .locked).map (none, ·)
  | .loadMap data => ((s.load? data).mapError .locked).map (none, ·)
  | .loadText text format name => (s.loadText? text format name).map (none, ·)
  | .loadFile files path => (s.loadFile? files path).map (none, ·)
  | .lock => .ok (none, s.lock)
  | .unlock => .ok (none, s.unlock)

/-- The looks of an operation at sources, which a locked store does not allow. -/
def accesses (op : Operation) (s : Store) : List Access :=
  if s.mutable then
    match op with
    | .loadText _ _ name => [.parse name]
    | .loadFile files path => InPlace.fileAccesses files path
    | _ => []
  else []

/-- The workspace after an operation. -/
def after (w : Workspace) (op : Operation) : Workspace :=
  match op.run w with
  | .ok _ there | .error _ there => there

/-- The workspace after a run. -/
def runAll (ops : List Operation) (w : Workspace) : Workspace := ops.foldl after w

end Operation

/-! ### Programs and functions -/

namespace Workspace

variable {α : Type}

/-- The result of reading, with the workspace as it is. -/
def answer (w : Workspace) : Except ConfigError α → EStateM.Result ConfigError Workspace α
  | .ok a => .ok a w
  | .error e => .error e w

/-- The result of a function of the store, with the new store in the workspace, or with
the workspace as it is if there is an error. -/
def settle (w : Workspace) :
    Except ConfigError (α × Store) → EStateM.Result ConfigError Workspace α
  | .ok (a, s) => .ok a { w with store := s }
  | .error e => .error e w

@[simp] lemma look_nil (w : Workspace) : w.look [] = w := by
  rw [look, List.append_nil]

lemma look_look (w : Workspace) (as bs : List Access) :
    (w.look as).look bs = w.look (as ++ bs) := by
  simp only [look, List.append_assoc]

end Workspace

/-- A store that is not locked loads whatever mapping a source holds. -/
lemma Store.loadSource?_of_mutable {s : Store} (h : s.mutable = true)
    (data : Except ConfigError Mapping) :
    s.loadSource? data = data.map fun m =>
      { s with settings := compileAll (Mapping.merge s.settings (Mapping.expand m)) } := by
  rw [loadSource?, if_pos h]
  cases data with
  | error e => rfl
  | ok m =>
    rw [Except.bind, load?, guarded, if_pos h]
    rfl

namespace InPlace

variable {w : Workspace} {α : Type}

lemma bind_of_ok {σ α β : Type} {x : EStateM ConfigError σ α} {a : α} {here there : σ}
    (h : x here = .ok a there) (next : α → EStateM ConfigError σ β) :
    (x >>= next) here = next a there := by
  simp only [bind, EStateM.bind, h]

lemma bind_of_error {σ α β : Type} {x : EStateM ConfigError σ α} {e : ConfigError}
    {here there : σ} (h : x here = .error e there) (next : α → EStateM ConfigError σ β) :
    (x >>= next) here = .error e there := by
  simp only [bind, EStateM.bind, h]

lemma ensureMutable_of_locked (h : w.store.mutable = false) (change : Change)
    (next : Unit → InPlace α) :
    (ensureMutable change >>= next) w = .error (.locked ⟨change⟩) w := by
  have hstop : ensureMutable change w = .error (.locked ⟨change⟩) w := by
    obtain ⟨⟨m, _⟩, accesses⟩ := w
    obtain rfl : _ = false := h
    rfl
  exact bind_of_error hstop next

lemma ensureMutable_of_mutable (h : w.store.mutable = true) (change : Change)
    (next : Unit → InPlace α) : (ensureMutable change >>= next) w = next () w := by
  have hpass : ensureMutable change w = .ok () w := by
    obtain ⟨⟨m, _⟩, accesses⟩ := w
    obtain rfl : _ = true := h
    rfl
  exact bind_of_ok hpass next

/-- Many changes of the settings, one after the other. -/
lemma forM_modifySettings {β : Type} (f : Mapping → β → Mapping) (bs : List β) (w : Workspace) :
    (bs.forM fun b => modifySettings (f · b)) w = .ok () (w.mapSettings (bs.foldl f)) := by
  induction bs generalizing w with
  | nil => rfl
  | cons b rest ih => exact ih (w.mapSettings (f · b))

/-! What the programs do to a store that is not locked. -/

lemma set_of_mutable (h : w.store.mutable = true) (path : String) (v : Value) :
    set path v w = .ok () (w.mapSettings (Store.assign · (KeyPath.split path) v)) :=
  ensureMutable_of_mutable h _ _

lemma remove_of_mutable (h : w.store.mutable = true) (path : String) :
    remove path w =
      match Store.take? (.obj w.store.settings) (KeyPath.split path) with
      | some (removed, .obj m) => .ok (some removed) (w.mapSettings fun _ => m)
      | _ => .ok none w := by
  have hget : (get : InPlace Workspace) w = .ok w w := rfl
  rw [remove, ensureMutable_of_mutable h, bind_of_ok hget]
  rcases Store.take? (.obj w.store.settings) (KeyPath.split path) with _ | ⟨removed, v⟩
  · rfl
  · cases v <;> rfl

lemma compile_of_mutable (h : w.store.mutable = true) :
    compile w = .ok () (w.mapSettings Store.compileAll) := by
  rw [compile, ensureMutable_of_mutable h]
  exact forM_modifySettings Store.compileAt _ w

/-- The settings are changed twice, and the second look at the lock lets pass what the
first one has. -/
lemma loadMap_of_mutable (h : w.store.mutable = true) (data : Mapping) :
    loadMap data w = .ok ()
      (w.mapSettings fun m => Store.compileAll (Mapping.merge m (Mapping.expand data))) := by
  rw [loadMap, ensureMutable_of_mutable h]
  exact compile_of_mutable (w := w.mapSettings (Mapping.merge · (Mapping.expand data))) h

lemma parse_eq (text : String) (format : Format) (name : String) (w : Workspace) :
    parse text format name w = (w.look [.parse name]).answer (Source.parse text format name) := by
  have haccess : access (.parse name) w = .ok () (w.look [.parse name]) := rfl
  rw [parse, bind_of_ok haccess]
  cases Source.parse text format name <;> rfl

lemma readFile_eq (files : Files) (path : String) (w : Workspace) :
    readFile files path w =
      (w.look (fileAccesses files path)).answer (Source.ofFile files path) := by
  have haccess : access (.read path) w = .ok () (w.look [.read path]) := rfl
  cases hformat : Format.ofPath? path with
  | none =>
    simp only [readFile, Source.ofFile, fileAccesses, hformat, Workspace.look_nil]
    rfl
  | some format =>
    simp only [readFile, Source.ofFile, fileAccesses, hformat, bind_of_ok haccess]
    cases files path with
    | error reason => rfl
    | ok text =>
      simp only [parse_eq, Workspace.look_look]
      rfl

/-- Loading the mapping of a source is the function, after the looks at the source. -/
lemma loadSource_of_mutable (h : w.store.mutable = true) {source : InPlace Mapping}
    {accesses : List Access} {data : Except ConfigError Mapping}
    (hsource : source w = (w.look accesses).answer data) :
    loadSource source w = (w.look accesses).settle ((w.store.loadSource? data).map ((), ·)) := by
  rw [loadSource, ensureMutable_of_mutable h, Store.loadSource?_of_mutable h]
  cases data with
  | error e => exact bind_of_error hsource _
  | ok m =>
    rw [bind_of_ok hsource, loadMap_of_mutable (w := w.look accesses) h]
    rfl

end InPlace

namespace Operation

open InPlace

variable {op : Operation} {w : Workspace} {s : Store} {change : Change}

/-- **A locked store** refuses every change, before anything is looked at. -/
lemma run_of_locked (h : w.store.mutable = false) (hchange : op.change? = some change) :
    op.run w = .error (.locked ⟨change⟩) w := by
  cases op with
  | lock | unlock => cases hchange
  | remove path =>
    obtain rfl := Option.some.inj hchange
    exact ensureMutable_of_locked h _ _
  | set _ _ | compile | loadMap _ | loadText _ _ _ | loadFile _ _ =>
    obtain rfl := Option.some.inj hchange
    exact bind_of_error (ensureMutable_of_locked h _ _) _

lemma outcome_of_locked (h : s.mutable = false) (hchange : op.change? = some change) :
    op.outcome s = .error (.locked ⟨change⟩) := by
  cases op with
  | lock | unlock => cases hchange
  | set _ _ | remove _ | compile | loadMap _ | loadText _ _ _ | loadFile _ _ =>
    obtain rfl := Option.some.inj hchange
    simp only [outcome, Store.set?, Store.remove?, Store.compile?, Store.load?, Store.loadText?,
      Store.loadFile?, Store.loadSource?, Store.guarded, h]
    rfl

/-- A locked store and an operation without a source allow no looks. -/
lemma look_accesses (h : w.store.mutable = false ∨ op.hasSource = false) :
    w.look (op.accesses w.store) = w := by
  have hnil : op.accesses w.store = [] := by
    rcases h with h | h
    · exact if_neg (by rw [h]; exact Bool.false_ne_true)
    · cases op with
      | loadText _ _ _ | loadFile _ _ => cases h
      | _ => exact ite_self []
  rw [hnil, w.look_nil]

/-- A load answers no value. -/
lemma answer_none {x : InPlace Unit} {there : Workspace} {loaded : Except ConfigError Store}
    (h : x w = there.settle (loaded.map ((), ·))) :
    (do x; pure none : InPlace (Option Value)) w = there.settle (loaded.map (none, ·)) := by
  cases loaded with
  | ok s => exact bind_of_ok h _
  | error e => exact bind_of_error h _

/-- **Programs and functions** do the same, and a function that gives an error is a
program that leaves the store alone. -/
theorem run_eq (op : Operation) (w : Workspace) :
    op.run w = (w.look (op.accesses w.store)).settle (op.outcome w.store) := by
  cases hmut : w.store.mutable with
  | false =>
    rw [look_accesses (.inl hmut)]
    cases hchange : op.change? with
    | some change =>
      rw [run_of_locked hmut hchange, outcome_of_locked hmut hchange]
      rfl
    | none =>
      cases op with
      | lock | unlock => rfl
      | _ => cases hchange
  | true =>
    obtain ⟨⟨m, _⟩, accesses⟩ := w
    obtain rfl : _ = true := hmut
    cases op with
    | set path v =>
      rw [look_accesses (.inr rfl)]
      exact bind_of_ok (set_of_mutable rfl path v) _
    | remove path =>
      rw [look_accesses (.inr rfl), run, remove_of_mutable rfl, outcome, Store.remove?,
        Store.guarded, if_pos rfl]
      rcases Store.take? (.obj m) (KeyPath.split path) with _ | ⟨removed, v⟩
      · rfl
      · cases v <;> rfl
    | compile =>
      rw [look_accesses (.inr rfl)]
      exact bind_of_ok (compile_of_mutable rfl) _
    | loadMap data =>
      rw [look_accesses (.inr rfl)]
      exact bind_of_ok (loadMap_of_mutable rfl data) _
    | loadText text format name =>
      exact answer_none (loadSource_of_mutable rfl (parse_eq text format name _))
    | loadFile files path =>
      exact answer_none (loadSource_of_mutable rfl (readFile_eq files path _))
    | lock | unlock =>
      rw [look_accesses (.inr rfl)]
      rfl

/-! ### Runs -/

/-- An operation leaves a locked store as it is, unless it is the one that unlocks it. -/
lemma after_of_locked (h : w.store.mutable = false) (hop : op ≠ .unlock) : after w op = w := by
  rw [after]
  cases hchange : op.change? with
  | some change => rw [run_of_locked h hchange]
  | none =>
    cases op with
    | lock =>
      obtain ⟨⟨m, _⟩, accesses⟩ := w
      obtain rfl : _ = false := h
      rfl
    | unlock => exact absurd rfl hop
    | _ => cases hchange

/-- **Runs on a locked store** change nothing and look at nothing until it is
unlocked. -/
lemma runAll_of_locked {ops : List Operation} (h : w.store.mutable = false)
    (hops : ∀ op ∈ ops, op ≠ .unlock) : runAll ops w = w := by
  induction ops with
  | nil => rfl
  | cons op rest ih =>
    rw [List.forall_mem_cons] at hops
    rw [runAll, List.foldl_cons, after_of_locked h hops.1]
    exact ih hops.2

/-! ### What can go wrong -/

lemma isSourceError_of_parse {text name : String} {format : Format} {e : ConfigError}
    (h : Source.parse text format name = .error e) : e.isSourceError = true := by
  rw [Source.parse] at h
  split at h <;> cases h <;> rfl

lemma isSourceError_of_ofFile {files : Files} {path : String} {e : ConfigError}
    (h : Source.ofFile files path = .error e) : e.isSourceError = true := by
  rw [Source.ofFile] at h
  split at h
  · cases h
    rfl
  · split at h
    · cases h
      rfl
    · exact isSourceError_of_parse h

lemma eq_error_of_load (h : s.mutable = true) {data : Except ConfigError Mapping}
    {e : ConfigError}
    (he : (s.loadSource? data).map ((none : Option Value), ·) = .error e) : data = .error e := by
  rw [Store.loadSource?_of_mutable h] at he
  cases data with
  | error reason =>
    cases he
    rfl
  | ok m => cases he

/-- If a store is not locked, nothing goes wrong but with sources. -/
lemma isSourceError_of_outcome (h : s.mutable = true) {e : ConfigError}
    (he : op.outcome s = .error e) : op.hasSource = true ∧ e.isSourceError = true := by
  cases op with
  | set _ _ | remove _ | compile | loadMap _ =>
    simp only [outcome, Store.set?, Store.remove?, Store.compile?, Store.load?, Store.guarded, h,
      if_true] at he
    cases he
  | loadText text format name => exact ⟨rfl, isSourceError_of_parse (eq_error_of_load h he)⟩
  | loadFile files path => exact ⟨rfl, isSourceError_of_ofFile (eq_error_of_load h he)⟩
  | lock | unlock => cases he

/-- The result of a program is an error if that of the function is. -/
lemma outcome_of_run {e : ConfigError} {there : Workspace} (h : op.run w = .error e there) :
    op.outcome w.store = .error e ∧ there.store = w.store := by
  rw [run_eq] at h
  cases hresult : op.outcome w.store with
  | ok result =>
    rw [hresult] at h
    cases h
  | error reason =>
    rw [hresult] at h
    cases h
    exact ⟨rfl, rfl⟩

/-- **Errors and locks** at any point of a run. An operation does what its function
does; with an error it leaves the store as it was, settings and lock. On a locked store
every change is refused before any source is looked at, and no run changes anything
until it unlocks the store. On any other store no operation fails but for a source. -/
theorem run_atomic (w : Workspace) (before : List Operation) (op : Operation) :
    let here := runAll before w
    op.run here = (here.look (op.accesses here.store)).settle (op.outcome here.store) ∧
    (∀ e there, op.run here = .error e there → there.store = here.store) ∧
    (here.store.mutable = false →
      (∀ change, op.change? = some change → op.run here = .error (.locked ⟨change⟩) here) ∧
      ∀ ops : List Operation, (∀ later ∈ ops, later ≠ .unlock) → runAll ops here = here) ∧
    (here.store.mutable = true →
      (op.hasSource = false → ∃ removed there, op.run here = .ok removed there) ∧
      ∀ e there, op.run here = .error e there → e.isSourceError = true) := by
  intro here
  refine ⟨run_eq op here, fun e there h => (outcome_of_run h).2, fun hlocked => ?_, fun hmut => ?_⟩
  · exact ⟨fun change hchange => run_of_locked hlocked hchange,
      fun ops hops => runAll_of_locked hlocked hops⟩
  · have herror : ∀ e there, op.run here = .error e there →
        op.hasSource = true ∧ e.isSourceError = true := by
      intro e there h
      exact isSourceError_of_outcome hmut (outcome_of_run h).1
    refine ⟨fun hsource => ?_, fun e there h => (herror e there h).2⟩
    cases hrun : op.run here with
    | ok removed there => exact ⟨removed, there, rfl⟩
    | error e there =>
      rw [(herror e there hrun).1] at hsource
      cases hsource

/-- A file is loaded into a store that has been locked: it is not even read. -/
theorem run_atomic_locked :
    let w : Workspace := ⟨.empty, []⟩
    let before : List Operation := [.set "title" (.str "Acme"), .lock, .remove "title"]
    (runAll before w).store = ⟨[("title", .str "Acme")], false⟩ ∧
      (loadFile .none "site.json").run (runAll before w) =
        .error (.locked ⟨.load⟩) (runAll before w) ∧ (runAll before w).accesses = [] := by
  intro w before
  have hstore : (runAll before w).store = ⟨[("title", .str "Acme")], false⟩ := by decide +kernel
  have hlocked : (runAll before w).store.mutable = false := by rw [hstore]
  exact ⟨hstore, ((run_atomic w before (.loadFile .none "site.json")).2.2.1 hlocked).1 _ rfl, rfl⟩

end Operation

end PageTree
