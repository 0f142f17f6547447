/-
The command line: one page of a site.

* `Outcome`: what comes out of a run, with what is written where;
* `RunOptions.run`: the outcome of some options;
* `RunOptions.missingFiles`: the files that are needed and not yet read;
* `CommandLine.run`: the outcome of some arguments.
-/
import PageTree.CommandLine.Options
import PageTree.Site

namespace PageTree

/-! ### Texts -/

namespace CommandLine

/-- The name of the program with its version. -/
def versionText : String := "ido 0.1.0"

/-- How the program is used, line by line. -/
def helpLines : List String := [
  "Render a page from configuration and documents",
  "",
  "Usage: ido [OPTIONS]",
  "",
  "Options:",
  "  -c, --config <FILE>     Configuration seed file (JSON, YAML or TOML); may be repeated",
  "  -d, --documents <FILE>  Collections of documents, including the `pages` collection",
  "  -r, --route <ROUTE>     Route of the page to render [default: /]",
  "      --src <PREFIX>      Base path for static assets, available as " ++
    "\x7b%env.src%\x7d [default: ]",
  "      --minimize          Minimize the rendered HTML",
  "  -t, --templates <DIR>   Directory holding included tag trees",
  "  -o, --output <FILE>     Write the page here instead of stdout",
  "  -h, --help              Print help",
  "  -V, --version           Print version"]

end CommandLine

/-! ### Runs -/

/-- What comes out of a run. -/
inductive Outcome where
  /-- A text that was asked for instead of a page. -/
  | message (text : String)
  /-- The arguments were wrong. -/
  | misuse
  /-- There is no page. -/
  | failure (reason : String)
  /-- A response, to be written to a file or to the standard output. -/
  | response (route : String) (output : Option String) (r : Response)

namespace Outcome

/-- What is written to the standard output. -/
def stdout : Outcome → String
  | .message text => text ++ "\n"
  | .response _ none r => r.body ++ "\n"
  | _ => ""

/-- What is written to a file: its path and its text. -/
def file? : Outcome → Option (String × String)
  | .response _ (some path) r => some (path, r.body)
  | _ => none

/-- The exit status; `written` tells whether the file could be written. -/
def exitStatus (written : Bool) : Outcome → Nat
  | .message _ => 0
  | .misuse => 2
  | .failure _ => 1
  | .response _ _ r => if written && r.isSuccess then 0 else 1

/-- What is wrong, in words. -/
def complaint? (written : Bool) : Outcome → Option String
  | .message _ => none
  | .misuse => some "wrong usage; for more information, try '--help'."
  | .failure reason => some reason
  | .response route output r =>
    if !written then some ("Failed to write " ++ output.getD "")
    else if r.isSuccess then none
    else some ("Route " ++ route ++ " rendered with status " ++ toString r.status)

end Outcome

/-- What comes out when there is nothing to run. -/
def Stop.outcome : Stop → Outcome
  | .help => .message ("\n".intercalate CommandLine.helpLines)
  | .version => .message CommandLine.versionText
  | .misuse => .misuse

namespace RunOptions

/-- The route that is rendered. -/
def routeOrRoot (r : RunOptions) : String := r.route.getD "/"

/-- The collections of documents. -/
def collections (r : RunOptions) (files : Files) : Except CollectionsError Collections :=
  match r.documents with
  | some path => Collections.ofFile files path
  | none => .ok .empty

/-- The source of templates. -/
def templateSource (r : RunOptions) (files : Files) : Templates :=
  match r.templates with
  | some root => Templates.ofFolder files root
  | none => Templates.none

/-- The site that the options describe. -/
def site (r : RunOptions) (files : Files) (documents : Collections) : Site where
  config := Store.empty
  documents := documents
  templates := r.templateSource files
  files := files
  settings := {
    seeds := r.configs
    src := r.src.getD ""
    minimize := if r.minimize then some true else none }

/-- The outcome of some options. -/
def run (r : RunOptions) (files : Files) (request : Request) : Outcome :=
  match r.collections files with
  | .error e => .failure e.message
  | .ok documents =>
    match (r.site files documents).respond r.routeOrRoot request with
    | .error e => .failure ("Failed to render route " ++ r.routeOrRoot ++ ": " ++ e.message)
    | .ok response => .response r.routeOrRoot r.output response

/-! ### Files that are needed -/

/-- Names with the names of the templates inside their templates. -/
def addInner (templates : Templates) (names : List String) : List String :=
  (names ++ names.flatMap fun name =>
    match (templates name).map (Template.nodes name) with
    | some (.ok nodes) => Node.templateNames nodes
    | _ => []).eraseDups

/-- The names of the templates on the page of some configuration, and some
rounds deep inside each other. -/
def templateNames (templates : Templates) (config : Store) (rounds : Nat) : List String :=
  match Site.nodes? config with
  | .ok (some nodes) => rounds.repeat (addInner templates) (Node.templateNames nodes)
  | _ => []

/-- The files that a run needs and that are not among those already read. A
template that is not read yet is at most as many templates deep as there are
files read. -/
def missingFiles (r : RunOptions) (known : List (String × Except ReadFailure String))
    (request : Request) : List String :=
  let files : Files := fun path => (known.lookup path).getD (.error .missing)
  let first := r.documents.toList ++ r.configs
  let templates :=
    match r.templates, r.collections files with
    | some root, .ok documents =>
      match (r.site files documents).configFor r.routeOrRoot request with
      | .ok config =>
        (templateNames (r.templateSource files) config known.length).filterMap
          (Template.path? · root)
      | .error _ => []
    | _, _ => []
  (first ++ templates).filter fun path => (known.lookup path).isNone

end RunOptions

/-- The outcome of some arguments. -/
def CommandLine.run (args : List String) (files : Files) (request : Request) : Outcome :=
  match RunOptions.parse args with
  | .error reason => reason.outcome
  | .ok r => r.run files request

end PageTree
