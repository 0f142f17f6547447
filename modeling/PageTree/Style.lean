/-
The text of style sheets.

A block is written as its selector, an opening brace, its declarations, the
rules inside it, and a closing brace. A declaration ends with a semicolon; it is
written only if its value is a scalar.

* `StyleRule.write`, `StyleRule.writeAll`.
-/
import PageTree.Node

namespace PageTree

namespace StyleRule

/-- The text of the value of a declaration: strings as they are, other scalars
as JSON. -/
def declarationText? (v : Value) : Option String :=
  match v with
  | .str s => some s
  | .num _ | .bool _ => some (Json.print v)
  | _ => none

/-- The text of declarations. -/
def writeDeclarations (declarations : Mapping) : String :=
  String.join (declarations.map fun d =>
    match declarationText? d.2 with
    | some text => d.1 ++ ":" ++ text ++ ";"
    | none => "")

mutual
/-- The text of a rule. -/
def write : StyleRule → String
  | .raw css => css
  | .block selector declarations nested =>
    selector ++ "\x7b" ++ writeDeclarations declarations ++ writeAll nested ++ "\x7d"

/-- The text of rules, one after the other. -/
def writeAll : List StyleRule → String
  | [] => ""
  | rule :: rest => write rule ++ writeAll rest
end

end StyleRule

end PageTree
