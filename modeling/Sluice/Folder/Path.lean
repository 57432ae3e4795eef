/-
  Sluice.Folder.Path

  Paths as they are written: names with slashes between them. An empty name, which a doubled
  or trailing slash makes, and a dot lead nowhere and do not count, but for a dot that starts
  the path. The stages of a path are its beginnings that end in a name that counts; all but
  the longest are the folders it lies in.
-/

import Sluice.Text.Cut

namespace Sluice

/-- A path, as the names between its slashes. -/
structure Path where
  names : List String
deriving Repr, DecidableEq

namespace Path

/-- Read a path. -/
def ofText (s : String) : Path :=
  ⟨(Text.splitAtChar '/' s.toList).map String.ofList⟩

/-- Size of a path in bytes. -/
def byteSize (p : Path) : Nat :=
  p.names.foldl (fun size name => size + 1 + name.utf8ByteSize) 0 - 1

/-- Whether a path ends in a slash. -/
def endsInSlash (p : Path) : Bool :=
  p.names.getLast? == some ""

/-- The names that lead somewhere or stay: all but the empty ones. -/
def steps (p : Path) : List String :=
  p.names.filter fun name => !name.isEmpty

/-- Whether the name at an index counts. -/
def counts (p : Path) (i : Nat) : Bool :=
  match p.names[i]? with
  | some name => !name.isEmpty && (name != "." || i == 0)
  | none => false

/-- The beginnings of a path that end in a name that counts, longest first. -/
def stages (p : Path) : List Path :=
  ((List.range p.names.length).reverse.filter p.counts).map fun i => ⟨p.names.take (i + 1)⟩

/-- The folders that a path lies in, innermost first. -/
def folders (p : Path) : List Path :=
  p.stages.tail

end Path

end Sluice
