/-
  Sluice.Source.Scan

  Source text to logical lines. Comments and outer blanks are removed, lines that are empty
  then are dropped, and the others keep their line number, counted from one.

  Outside string literals `#` and `//` start a comment that ends with the line, and `/*` one
  that ends at the next `*/`, which may be lines away; a closed block leaves one space, so
  that what stands on its two sides stays apart. String literals end with their line.
-/

import Sluice.Source.Quoting
import Sluice.Text.Cut

namespace Sluice.Source

/-- A logical line with its line number. -/
structure Line where
  number : Nat
  text : String
deriving Repr, DecidableEq

/-- The logical lines of a source, and the line of a block comment that never ends. -/
structure Scanned where
  lines : List Line
  unterminated : Option Nat
deriving Repr, DecidableEq

/-- Put a character in front of what is left of a line. -/
def keep (c : Char) (stripped : List Char × Option Nat) : List Char × Option Nat :=
  (c :: stripped.1, stripped.2)

/-- What is left of line `number`, and the line of the block comment that is open at its end,
when the reader enters with the block comment `block` open, or else stands at `q`. -/
def stripLine (number : Nat) (block : Option Nat) (q : Quoting) :
    List Char → List Char × Option Nat
  | [] => ([], block)
  | [c] =>
    if block.isSome then ([], block)
    else if q = .outside ∧ c = '#' then ([], none)
    else ([c], none)
  | c :: d :: rest =>
    if block.isSome then
      -- The end of a block leaves one space, so words on its two sides stay apart.
      if c = '*' ∧ d = '/' then keep ' ' (stripLine number none .outside rest)
      else stripLine number block q (d :: rest)
    else if q = .outside ∧ (c = '#' ∨ (c = '/' ∧ d = '/')) then ([], none)
    else if q = .outside ∧ c = '/' ∧ d = '*' then
      stripLine number (some number) .outside rest
    else keep c (stripLine number none (q.after c) (d :: rest))

/-- The logical lines of raw lines, the first of which has number `number`. -/
def scanLines (number : Nat) (block : Option Nat) : List (List Char) → Scanned
  | [] => ⟨[], block⟩
  | raw :: rest =>
    let (kept, still) := stripLine number block .outside raw
    let scanned := scanLines (number + 1) still rest
    let text := Text.trimChars kept
    if text.isEmpty then scanned
    else { scanned with lines := ⟨number, String.ofList text⟩ :: scanned.lines }

/-- The logical lines of a source text. -/
def scan (source : String) : Scanned :=
  scanLines 1 none (Text.lines source.toList)

end Sluice.Source
