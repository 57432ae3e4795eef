/-
  Sluice.Folder

  A folder of text files, as a value. Paths are relative to it; a path ends at a file, at a
  folder, or at nothing, and on its way it may pass folders only. Two dots lead out of the
  folder too, where nothing is known but further folders above.

  Every operation looks at a path in the same order: its text first, then the names on its way
  one by one, then what stands at its end.
-/

import Sluice.Folder.Path

namespace Sluice

/-- Why a file operation fails. -/
inductive FileError where
  | notFound
  | alreadyExists
  | notADirectory
  | isADirectory
  /-- A name, or the path as a whole, that is too long. -/
  | nameTooLong
  /-- A path with a character that no path can hold. -/
  | nulByte
deriving Repr, DecidableEq

/-- The wording of a file error, with its number if the system has one. -/
def FileError.message : FileError → String
  | notFound => "No such file or directory (os error 2)"
  | alreadyExists => "File exists (os error 17)"
  | notADirectory => "Not a directory (os error 20)"
  | isADirectory => "Is a directory (os error 21)"
  | nameTooLong => "File name too long (os error 36)"
  | nulByte => "file name contained an unexpected NUL byte"

/-- What stands at a place. -/
inductive FolderEntry where
  | file (content : String)
  | folder
deriving Repr, DecidableEq

/-- The files and folders below a folder, by the names that lead to them. -/
structure Folder where
  entries : List (List String × FolderEntry) := []

namespace Folder

/-! ## Places -/

/-- Whether a place is the folder itself or lies above it. -/
def isAbove (place : List String) : Bool :=
  place.all (· == "..")

/-- What stands at a place. -/
def entry? (f : Folder) (place : List String) : Option FolderEntry :=
  if isAbove place then some .folder else f.entries.lookup place

/-- Put something at a place. -/
def put (f : Folder) (place : List String) (e : FolderEntry) : Folder :=
  ⟨(place, e) :: f.entries.filter fun old => old.1 ≠ place⟩

/-- Most bytes of a name. -/
def maxName : Nat := 255

/-- Most bytes of a path. -/
def maxPath : Nat := 4095

/-- The place that a name leads to from a folder. -/
def step (here : List String) (name : String) : Except FileError (List String) :=
  if name = "." then .ok here
  else if name = ".." then .ok (if isAbove here then here ++ [".."] else here.dropLast)
  else if maxName < name.utf8ByteSize then .error .nameTooLong
  else .ok (here ++ [name])

/-- The place that names lead to, all of which have to lead to folders. -/
def enter (f : Folder) (here : List String) : List String → Except FileError (List String)
  | [] => .ok here
  | name :: rest => do
    let there ← step here name
    match f.entry? there with
    | some .folder => f.enter there rest
    | some (.file _) => .error .notADirectory
    | none => .error .notFound

/-- The folder in which a path ends, and its last name. -/
def approach (f : Folder) (p : Path) : Except FileError (List String × String) := do
  if p.names.any (·.toList.contains '\x00') then throw .nulByte
  if p.names = [""] then throw .notFound
  if maxPath < p.byteSize then throw .nameTooLong
  return (← f.enter [] p.steps.dropLast, p.steps.getLast?.getD ".")

/-- What stands at the end of a path. A path to a file has no slash at its end. -/
def find (f : Folder) (p : Path) : Except FileError FolderEntry := do
  let (here, name) ← f.approach p
  match f.entry? (← step here name) with
  | none => throw .notFound
  | some (.file content) => if p.endsInSlash then throw .notADirectory else return .file content
  | some .folder => return .folder

/-! ## Operations -/

/-- Whether something stands at a path. -/
def contains (f : Folder) (p : Path) : Bool :=
  (f.find p).toOption.isSome

/-- Whether a folder stands at a path. -/
def hasFolder (f : Folder) (p : Path) : Bool :=
  (f.find p).toOption == some .folder

/-- The content of a file. -/
def read (f : Folder) (path : String) : Except FileError String := do
  match ← f.find (.ofText path) with
  | .file content => return content
  | .folder => throw .isADirectory

/-- Write a file. Its folder has to be there, and no slash may stand at the end. -/
def write (f : Folder) (path content : String) : Except FileError Folder := do
  let p := Path.ofText path
  let (here, name) ← f.approach p
  if p.endsInSlash then throw .isADirectory
  let place ← step here name
  match f.entry? place with
  | some .folder => throw .isADirectory
  | _ => return f.put place (.file content)

/-- Make a folder in one that is there. -/
def makeFolder (f : Folder) (p : Path) : Except FileError Folder := do
  let (here, name) ← f.approach p
  let place ← step here name
  match f.entry? place with
  | some _ => throw .alreadyExists
  | none => return f.put place .folder

/-- Make the first of a list of folders, each of which lies in the next; the others are made
only as far as they are missing. Those made before an error stay. -/
def makeFolders (f : Folder) : List Path → Except FileError Unit × Folder
  | [] => (.ok (), f)
  | p :: above =>
    match f.makeFolder p with
    | .ok f => (.ok (), f)
    | .error .notFound =>
      match f.makeFolders above with
      | (.error e, f) => (.error e, f)
      | (.ok _, f) =>
        match f.makeFolder p with
        | .ok f => (.ok (), f)
        | .error e => (if f.hasFolder p then .ok () else .error e, f)
    | .error e => (if f.hasFolder p then .ok () else .error e, f)

end Folder

end Sluice
