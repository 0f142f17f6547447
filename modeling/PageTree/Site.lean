/-
Sites: pages by their routes.

A page is made in steps. The settings of the site, its seed files one after the
other, and the document of the page are laid over each other; what is known of
the request is published below `env`; then the configuration is locked, and the
tree in it is rendered. A seed file that cannot be used is passed over.

* `Site`, `SiteSettings`;
* `Site.configFor`: the configuration of a request;
* `Site.respond`: the response to a request;
* `SiteError`: why there is none.
-/
import PageTree.Collections.Select
import PageTree.LinkedData
import PageTree.Render
import PageTree.Request

namespace PageTree

/-! ### Sites and responses -/

/-- How a site makes its pages. -/
structure SiteSettings where
  /-- The seed files, in order. -/
  seeds : List String := []
  /-- The collection of the documents of pages. -/
  pagesCollection : String := "pages"
  /-- Where the assets of the site are. -/
  src : String := ""
  /-- Whether pages are minimized; if given, the configuration has no say. -/
  minimize : Option Bool := none
deriving DecidableEq

/-- A site. -/
structure Site where
  config : Store
  documents : DocumentSource
  templates : Templates
  files : Files
  settings : SiteSettings

/-- A response: a status and a page. -/
structure Response where
  status : Nat
  body : String
deriving DecidableEq

namespace Response

/-- The response to a request for a route without content. -/
def notFound (route : String) : Response :=
  ⟨404, Html.comment ("no content for route: " ++ route)⟩

/-- The response with a page. After a failure it holds what was written
before. -/
def ofPage (page : Renderer.Page) : Response :=
  ⟨if page.failure.isNone then 200 else 500, page.text⟩

/-- Whether a response is a success. -/
def isSuccess (r : Response) : Bool := 200 ≤ r.status && r.status < 300

end Response

/-- Why there is no response. -/
inductive SiteError where
  /-- The configuration cannot be made. -/
  | config (e : ConfigError)
  /-- The content of the page is no tree. -/
  | content (e : TreeError)

/-- The message of an error. -/
def SiteError.message : SiteError → String
  | .config e => e.message
  | .content e => "Invalid page content: " ++ e.message

namespace Site

/-! ### The configuration of a request -/

/-- The path of the tree of a page. -/
def contentPath : String := "content"

/-- The path of the route in the document of a page. -/
def routePath : String := "route"

/-- The configuration after a seed file; one that cannot be used changes
nothing. -/
def addSeed (files : Files) (config : Store) (seed : String) : Except ConfigError Store :=
  match config.loadFile? files seed with
  | .ok config => .ok config
  | .error e => if e.isSourceError then .ok config else .error e

/-- The document of the page at a route; none if the documents give no answer. -/
def pageAt? (s : Site) (route : String) : Option Mapping :=
  match s.documents.select s.settings.pagesCollection [(routePath, .str route)] {} false with
  | .ok pages => pages.head?
  | .error _ => none

/-- The configuration after the document of a page. -/
def addPage (page : Option Mapping) (config : Store) : Except Locked Store :=
  match page with
  | some document => config.load? document
  | none => .ok config

/-- The settings that a request publishes. -/
def published (s : Site) (route : String) (request : Request) : List (String × Value) :=
  [("env.src", .str s.settings.src), ("env.route", .str route),
    ("env.request_id", .str request.id.text)] ++
  match s.settings.minimize with
  | some minimize => [(RenderOptions.minimizePath, .bool minimize)]
  | none => []

/-- The configuration after some settings. -/
def publish (settings : List (String × Value)) (config : Store) : Except Locked Store :=
  settings.foldlM (fun config e => config.set? e.1 e.2) config

/-- The configuration of a request, locked. -/
def configFor (s : Site) (route : String) (request : Request) : Except ConfigError Store := do
  let config ← s.settings.seeds.foldlM (addSeed s.files) s.config
  let config ← (addPage (s.pageAt? route) config).mapError .locked
  let config ← (publish (s.published route request) config).mapError .locked
  return config.lock

/-! ### Responses -/

/-- The nodes of the page in a configuration, with its linked data; nothing
when there is no content. -/
def nodes? (config : Store) : Except TreeError (Option (List Node)) :=
  match config.get? contentPath with
  | none => .ok none
  | some content =>
    (Node.ofValue content).map fun nodes =>
      match config.get? LinkedData.path with
      | some ld => some (LinkedData.inject nodes ld).1
      | none => some nodes

/-- The response to a request for a route. -/
def respond (s : Site) (route : String) (request : Request) : Except SiteError Response := do
  let config ← (s.configFor route request).mapError .config
  match ← (nodes? config).mapError .content with
  | none => return .notFound route
  | some nodes => return .ofPage ((Renderer.new config s.templates).page nodes)

end Site

end PageTree
