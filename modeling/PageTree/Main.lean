/-
The program: reads its arguments and the files that they name, writes a page,
and exits.
-/
import PageTree.CommandLine

namespace PageTree

namespace Program

/-- Why a file could not be read. -/
def failureOf : IO.Error → ReadFailure
  | .noFileOrDirectory .. => .missing
  | .inappropriateType _ 21 _ => .isFolder
  | .inappropriateType _ 20 _ => .notFolder
  | e => .other (toString e)

/-- The text of a file. -/
def readText (path : String) : IO (Except ReadFailure String) := do
  try
    return .ok (← IO.FS.readFile path)
  catch e =>
    return .error (failureOf e)

/-- Reads files until nothing that a run needs is missing. -/
partial def gather (options : RunOptions) (request : Request)
    (known : List (String × Except ReadFailure String)) :
    IO (List (String × Except ReadFailure String)) := do
  match options.missingFiles known request with
  | [] => return known
  | path :: _ => gather options request ((path, ← readText path) :: known)

/-- Writes a file, if there is one to write. -/
def writeText : Option (String × String) → IO Bool
  | none => return true
  | some (path, text) => do
    try
      IO.FS.writeFile path text
      return true
    catch _ =>
      return false

/-- Carries an outcome out. -/
def carryOut (outcome : Outcome) : IO UInt32 := do
  let written ← writeText outcome.file?
  IO.print outcome.stdout
  if let some text := outcome.complaint? written then
    IO.eprintln ("Error: " ++ text)
  return UInt32.ofNat (outcome.exitStatus written)

/-- A request with a random id. -/
def newRequest : IO Request := do
  let bits ← IO.rand 0 (BitVec.allOnes 128).toNat
  return Request.new (RequestId.ofRandom (BitVec.ofNat 128 bits))

end Program

end PageTree

/-- Renders the page that the arguments ask for. -/
def main (args : List String) : IO UInt32 := do
  let request ← PageTree.Program.newRequest
  match PageTree.RunOptions.parse args with
  | .error reason => PageTree.Program.carryOut reason.outcome
  | .ok options =>
    let known ← PageTree.Program.gather options request []
    let files : PageTree.Files := fun path => (known.lookup path).getD (.error .missing)
    PageTree.Program.carryOut (options.run files request)
