/-
  Sluice.Text.Casing

  Full case mappings of a text. A letter may become several characters, and a capital sigma
  becomes a final sigma when it ends a word: a cased letter stands before it and none after
  it, where case-ignorable characters are passed over.
-/

import Sluice.Text.CaseTable
import Sluice.Text.Class

namespace Sluice.Text

/-- Image of a code point under a table of runs (first, last, distance, image of the first). -/
def runImage? (runs : List (Nat × Nat × Nat × Nat)) (code : Nat) : Option Nat :=
  (runs.find? fun (first, last, stride, _) =>
    first ≤ code && code ≤ last && (code - first) % stride == 0).map
      fun (first, _, _, image) => image + (code - first)

/-- Image of a character under a table of runs and a table of several-character images. -/
def caseImage (runs : List (Nat × Nat × Nat × Nat)) (specials : List (Nat × List Nat))
    (c : Char) : List Char :=
  match runImage? runs c.toNat with
  | some image => [Char.ofNat image]
  | none =>
    match specials.lookup c.toNat with
    | some images => images.map Char.ofNat
    | none => [c]

/-- Upper case of one ASCII character. -/
def asciiUpper (c : Char) : Char :=
  if 0x61 ≤ c.toNat && c.toNat ≤ 0x7a then Char.ofNat (c.toNat - 0x20) else c

/-- Lower case of one ASCII character; other characters are kept. -/
def asciiLower (c : Char) : Char :=
  if 0x41 ≤ c.toNat && c.toNat ≤ 0x5a then Char.ofNat (c.toNat + 0x20) else c

/-- Upper case of one character. -/
def upperImage (c : Char) : List Char :=
  if c.toNat < 0x80 then [asciiUpper c] else caseImage upperRuns upperSpecials c

/-- Lower case of one character, wherever it stands. -/
def lowerImage (c : Char) : List Char :=
  if c.toNat < 0x80 then [asciiLower c] else caseImage lowerRuns lowerSpecials c

/-- Whether a cased letter is met first once case-ignorable characters are passed over. -/
def meetsCased (cs : List Char) : Bool :=
  match cs.dropWhile fun c => inRanges caseIgnorableRanges c.toNat with
  | [] => false
  | c :: _ => inRanges casedRanges c.toNat

/-- Lower case of the rest of a text; `before` holds what precedes it, nearest first. -/
def lowerFrom (before : List Char) : List Char → List Char
  | [] => []
  | c :: cs =>
    let image :=
      if c = 'Σ' then (if meetsCased before && !meetsCased cs then ['ς'] else ['σ'])
      else lowerImage c
    image ++ lowerFrom (c :: before) cs

/-- Upper case of a text. -/
def toUpper (s : String) : String :=
  String.ofList (s.toList.flatMap upperImage)

/-- Lower case of a text. -/
def toLower (s : String) : String :=
  String.ofList (lowerFrom [] s.toList)

/-- Lower case of the ASCII letters of a text. -/
def toAsciiLower (s : String) : String :=
  String.ofList (s.toList.map asciiLower)

end Sluice.Text
