/-
  Sluice.Toml.Node

  A TOML document as a tree, and how it grows. A table remembers how it came to be, because
  that decides who may still add to it: a header may add to a table that was only implied by
  longer headers, a dotted key to one that dotted keys made, and nobody to an inline table that
  is complete.
-/

import Sluice.Number.Binary
import Sluice.Record

namespace Sluice.Toml

/-- How a table came to be. -/
inductive Origin where
  /-- By a header of its own, or as the document itself. -/
  | header
  /-- As part of the path of a header. -/
  | implied
  /-- As part of a dotted key. -/
  | dotted
  /-- Written between braces. -/
  | inline
  /-- As part of a dotted key between braces. -/
  | inlineDotted
deriving Repr, DecidableEq

/-- A value of a document. -/
inductive Node where
  | text (s : String)
  | integer (n : Int)
  | float (x : Number)
  | bool (b : Bool)
  /-- A date, a time of day, or both, in normal form. -/
  | moment (s : String)
  | array (items : List Node)
  | table (origin : Origin) (entries : List (String × Node))
  /-- Tables under headers in double brackets. -/
  | tables (items : List (List (String × Node)))

/-- A table under construction. -/
structure Table where
  origin : Origin
  entries : Record Node := []

/-- A way to reach a table by a path of keys. -/
inductive Way where
  /-- By a header. -/
  | header
  /-- By a dotted key. -/
  | dotted
  /-- By a dotted key between braces. -/
  | inline
deriving Repr, DecidableEq

namespace Way

/-- Whether tables of an origin may be passed. -/
def passes : Way → Origin → Bool
  | header, .header | header, .implied | header, .dotted => true
  | dotted, .implied | dotted, .dotted => true
  | inline, .inlineDotted => true
  | _, _ => false

/-- The origin of a table made on the way. -/
def makes : Way → Origin
  | header => .implied
  | dotted => .dotted
  | inline => .inlineDotted

/-- Whether the tables of double brackets may be passed. -/
def passesTables : Way → Bool
  | inline => false
  | _ => true

end Way

namespace Table

/-- Change the table at the end of a path. Missing tables are made on the way; of tables under
double brackets the last one counts. -/
def modify? (way : Way) (change : Table → Option Table) : List String → Table → Option Table
  | [], t => change t
  | key :: path, t =>
    let put (node : Node) : Table := { t with entries := t.entries.set key node }
    match t.entries.get? key with
    | none =>
      (modify? way change path { origin := way.makes }).map fun inner =>
        put (.table inner.origin inner.entries)
    | some (.table origin entries) =>
      if way.passes origin then
        (modify? way change path { origin, entries }).map fun inner =>
          put (.table inner.origin inner.entries)
      else none
    | some (.tables items) =>
      match way.passesTables, items.getLast? with
      | true, some last =>
        (modify? way change path { origin := .header, entries := last }).map fun inner =>
          put (.tables (items.dropLast ++ [inner.entries]))
      | _, _ => none
    | some _ => none

/-- Add an entry under a new key. A dotted key ends in a table that dotted keys made, a plain key
in any other. -/
def add? (isDotted : Bool) (key : String) (node : Node) (t : Table) : Option Table :=
  let madeByDots := t.origin == .dotted || t.origin == .inlineDotted
  if madeByDots != isDotted then none
  else if t.entries.contains key then none
  else some { t with entries := t.entries.set key node }

/-- Add an entry under a path of keys. -/
def addAt? (way : Way) (path : List String) (node : Node) (t : Table) : Option Table :=
  match path.getLast? with
  | none => none
  | some key => t.modify? way (add? (decide (1 < path.length)) key node) path.dropLast

/-- Make the table of a header, or take up one that was implied. -/
def openTable? (key : String) (t : Table) : Option Table :=
  match t.entries.get? key with
  | none => some { t with entries := t.entries.set key (.table .header []) }
  | some (.table .implied entries) =>
    some { t with entries := t.entries.set key (.table .header entries) }
  | some _ => none

/-- Add a table to those under double brackets. -/
def openItem? (key : String) (t : Table) : Option Table :=
  match t.entries.get? key with
  | none => some { t with entries := t.entries.set key (.tables [[]]) }
  | some (.tables items) => some { t with entries := t.entries.set key (.tables (items ++ [[]])) }
  | some _ => none

/-- Open the table of a header, with single or double brackets. -/
def openAt? (double : Bool) (path : List String) (t : Table) : Option Table :=
  match path.getLast? with
  | none => none
  | some key => t.modify? .header (if double then openItem? key else openTable? key) path.dropLast

end Table

end Sluice.Toml
