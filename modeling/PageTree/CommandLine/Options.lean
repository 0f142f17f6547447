/-
The options of the command line.

Options stand in any order, and all but `--config` at most once. A value that
is not attached to its option is the next argument, which must not look like an
option. The first thing that is wrong ends the reading, and so does the first
option that asks for help or the version.

* `RunOptions`: what is asked for;
* `RunOptions.parse`: the options of the arguments, or why there are none.
-/
import PageTree.CommandLine.Argument

namespace PageTree

/-- What is asked for. -/
structure RunOptions where
  configs : List String := []
  documents : Option String := none
  route : Option String := none
  src : Option String := none
  minimize : Bool := false
  templates : Option String := none
  output : Option String := none
deriving DecidableEq

namespace RunOptions

/-- A value in the place of none. -/
def fill? (current : Option String) (value : String) : Option (Option String) :=
  if current.isNone then some (some value) else none

/-- The path that a value is; it must not be empty. -/
def path? (value : String) : Option String := if value = "" then none else some value

/-- Options with one more value. -/
def add? (r : RunOptions) (o : ValueOption) (value : String) : Option RunOptions :=
  match o with
  | .config => do
    let path ← path? value
    return { r with configs := r.configs ++ [path] }
  | .documents => do
    let documents ← fill? r.documents (← path? value)
    return { r with documents }
  | .route => do
    let route ← fill? r.route value
    return { r with route }
  | .src => do
    let src ← fill? r.src value
    return { r with src }
  | .templates => do
    let templates ← fill? r.templates (← path? value)
    return { r with templates }
  | .output => do
    let output ← fill? r.output (← path? value)
    return { r with output }

/-- Options after the arguments in a list. -/
def parseFrom (r : RunOptions) (args : List String) : Except Stop RunOptions :=
  match args with
  | [] => .ok r
  | arg :: rest =>
    match Argument.ofChars arg.toList with
    | .stop reason => .error reason
    | .terminator => if rest = [] then .ok r else .error .misuse
    | .minimize =>
      if r.minimize then .error .misuse else parseFrom { r with minimize := true } rest
    | .option o (some value) =>
      match r.add? o value with
      | some r => parseFrom r rest
      | none => .error .misuse
    | .option o none =>
      match rest with
      | [] => .error .misuse
      | value :: rest =>
        if Argument.looksLikeOption value then .error .misuse
        else
          match r.add? o value with
          | some r => parseFrom r rest
          | none => .error .misuse
termination_by args.length

/-- The options of the arguments. -/
def parse (args : List String) : Except Stop RunOptions := parseFrom {} args

end RunOptions

end PageTree
