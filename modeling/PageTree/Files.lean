/-
Files that a site is read from.

A file system is known only by what reading a path gives. A folder held in
memory is one such file system: a list of files, each with the parts of its
path; the folders are those on the way to the files.

* `Files`, `ReadFailure.message`;
* `Folder.read`: reading a path that starts in a folder;
* `Folder.write?`: the folder after a file is written.
-/
import PageTree.FilePath

namespace PageTree

/-- Why a file could not be read. -/
inductive ReadFailure where
  | missing
  | isFolder
  | notFolder
  | other (text : String)
deriving DecidableEq

/-- The message of a failed read. -/
def ReadFailure.message : ReadFailure → String
  | .missing => "No such file or directory (os error 2)"
  | .isFolder => "Is a directory (os error 21)"
  | .notFolder => "Not a directory (os error 20)"
  | .other text => text

/-- A file system, by the text of its files. -/
abbrev Files := String → Except ReadFailure String

/-- A file system without any file. -/
def Files.none : Files := fun _ => .error .missing

/-! ### Folders in memory -/

/-- The files of a folder with the parts of their paths. -/
structure Folder where
  files : List (List (List Char) × String)

namespace Folder

/-- The parts of a path that name folders and files. -/
def partsOf (path : String) : List (List Char) :=
  (FilePath.splitSlashes path.toList).filter (!FilePath.isSkipped ·)

/-- A folder of files under relative paths; of two files with one path the
later one stays. -/
def ofList (files : List (String × String)) : Folder :=
  ⟨(files.map fun f => (partsOf f.1, f.2)).reverse⟩

/-- Where a walk along a path is. -/
inductive Place where
  /-- In the folder reached by some parts. -/
  | folder (parts : List (List Char))
  /-- At a file. -/
  | file (parts : List (List Char)) (text : String)
  /-- Above the folder in memory. -/
  | outside

/-- What some parts name. -/
def place? (d : Folder) (parts : List (List Char)) : Option Place :=
  match d.files.lookup parts with
  | some text => some (.file parts text)
  | none =>
    if parts = [] ∨ d.files.any (fun f => parts.isPrefixOf f.1) then some (.folder parts) else none

/-- One step of a walk. Only a folder has anything inside, itself included. -/
def step (d : Folder) (place : Place) (part : List Char) : Except ReadFailure Place :=
  match place with
  | .file .. => .error .notFolder
  | .outside =>
    if FilePath.isSkipped part ∨ part = ['.', '.'] then .ok .outside else .error .missing
  | .folder parts =>
    if FilePath.isSkipped part then .ok place
    else if part = ['.', '.'] then
      .ok (if parts = [] then .outside else .folder parts.dropLast)
    else
      match d.place? (parts ++ [part]) with
      | some place => .ok place
      | none => .error .missing

/-- Walks along a path. -/
def walk (d : Folder) (path : String) : Except ReadFailure Place :=
  match path.toList with
  | [] => .error .missing
  | '/' :: rest => (FilePath.splitSlashes rest).foldlM d.step .outside
  | cs => (FilePath.splitSlashes cs).foldlM d.step (.folder [])

/-- The text of the file at a path. -/
def read (d : Folder) : Files := fun path =>
  match d.walk path with
  | .ok (.file _ text) => .ok text
  | .ok _ => .error .isFolder
  | .error e => .error e

/-- The folder with a file written at a path, which must lie in it. -/
def write? (d : Folder) (path text : String) : Option Folder :=
  let parts := FilePath.splitSlashes path.toList
  match path.toList.head?, parts.getLast? with
  | some '/', _ | none, _ => none
  | _, some last =>
    if FilePath.isSkipped last ∨ last = ['.', '.'] then none
    else
      match parts.dropLast.foldlM d.step (.folder []) with
      | .ok (.folder above) =>
        match d.place? (above ++ [last]) with
        | some (.folder _) => none
        | _ => some ⟨(above ++ [last], text) :: d.files⟩
      | _ => none
  | _, none => none

end Folder

end PageTree
