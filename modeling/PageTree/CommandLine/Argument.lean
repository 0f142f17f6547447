/-
Arguments of the command line, one by one.

An argument starts with two hyphens and a long name, or with one hyphen and a
letter; other arguments are only good as values. A value may be attached to an
option: after an equals sign, or right after the letter.

* `ValueOption`: the options that take a value;
* `Argument`, `Argument.ofChars`;
* `Stop`: why there is nothing to run.
-/
namespace PageTree

/-- Why there is nothing to run. -/
inductive Stop where
  /-- Help is asked for. -/
  | help
  /-- The version is asked for. -/
  | version
  /-- The arguments are wrong. -/
  | misuse
deriving DecidableEq

/-- The options that take a value. -/
inductive ValueOption where
  | config
  | documents
  | route
  | src
  | templates
  | output
deriving DecidableEq

/-- An argument, by what it looks like. -/
inductive Argument where
  /-- An option, with the value attached to it. -/
  | option (o : ValueOption) (value : Option String)
  /-- The option `--minimize`. -/
  | minimize
  /-- The end of the options. -/
  | terminator
  /-- An argument that ends the reading. -/
  | stop (reason : Stop)
deriving DecidableEq

namespace Argument

/-- The option with a long name. -/
def ofName? (name : String) : Option ValueOption :=
  match name with
  | "config" => some .config
  | "documents" => some .documents
  | "route" => some .route
  | "src" => some .src
  | "templates" => some .templates
  | "output" => some .output
  | _ => none

/-- The option with a letter. -/
def ofLetter? (letter : Char) : Option ValueOption :=
  match letter with
  | 'c' => some .config
  | 'd' => some .documents
  | 'r' => some .route
  | 't' => some .templates
  | 'o' => some .output
  | _ => none

/-- The argument with a long name and the value after its equals sign. -/
def ofLong (name : String) (value : Option String) : Argument :=
  match ofName? name with
  | some o => .option o value
  | none =>
    if value.isSome then .stop .misuse
    else if name = "minimize" then .minimize
    else if name = "help" then .stop .help
    else if name = "version" then .stop .version
    else .stop .misuse

/-- The value attached to a letter; an equals sign before it is left out. -/
def attached? : List Char → Option String
  | [] => none
  | '=' :: value => some (String.ofList value)
  | value => some (String.ofList value)

/-- The argument of a letter and what is attached to it. -/
def ofShort (letter : Char) (rest : List Char) : Argument :=
  match ofLetter? letter with
  | some o => .option o (attached? rest)
  | none =>
    if letter = 'h' then .stop .help
    else if letter = 'V' then .stop .version
    else .stop .misuse

/-- An argument by its text. -/
def ofChars : List Char → Argument
  | ['-', '-'] => .terminator
  | '-' :: '-' :: rest =>
    let name := String.ofList (rest.takeWhile (· ≠ '='))
    match rest.dropWhile (· ≠ '=') with
    | _ :: value => ofLong name (some (String.ofList value))
    | [] => ofLong name none
  | '-' :: letter :: rest => ofShort letter rest
  | _ => .stop .misuse

/-- Whether an argument cannot be the value of the option before it. -/
def looksLikeOption (arg : String) : Bool :=
  match arg.toList with
  | '-' :: _ :: _ => true
  | _ => false

end Argument

end PageTree
