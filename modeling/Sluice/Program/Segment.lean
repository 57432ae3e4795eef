/-
  Sluice.Program.Segment

  Reading one operator between two bars: a branch keyword, a bare name, a call with
  arguments, or a lens with a body. The body is itself a chain of steps between bars, each a
  field, a comparison, the sum, or an operator that is no lens.

  The name is the longest run of letters, numbers and underscores; what follows it has to be
  nothing, `( … )` or `\x7b … \x7d`.
-/

import Sluice.Program.Node
import Sluice.Source.Split

namespace Sluice

/-- Why a segment cannot be read. -/
inductive SegmentError where
  | emptySegment
  | missingName
  | bodyNotAllowed (name : String)
  | badPoolTarget
  | unexpected (rest name : String)
  | emptyBody
  | notAllowedInBody (segment : String)
  | missingComparison (found : String)
  | missingOperand (symbol : String)
deriving Repr, DecidableEq

namespace SegmentError

/-- The wording of an error. -/
def message : SegmentError → String
  | emptySegment => "empty segment"
  | missingName => "expected an operator name"
  | bodyNotAllowed name => s!"'{name}' does not take a \x7b \x7d body"
  | badPoolTarget => "to_pool takes exactly one pool name"
  | unexpected rest name => s!"unexpected `{rest}` after '{name}'"
  | emptyBody => "empty lens body"
  | notAllowedInBody segment => s!"`{segment}` cannot be used inside a lens body"
  | missingComparison found => s!"expected a comparison, found `{found}`"
  | missingOperand symbol => s!"missing operand after '{symbol}'"

end SegmentError

namespace Segment

open Sluice.Source (splitArgs splitPipes)

/-- A character of an operator name. -/
def isNameChar (c : Char) : Bool :=
  Text.isLetterOrNumber c || c == '_'

/-- A name: a letter or underscore, then letters, numbers and underscores. -/
def isIdentifier : List Char → Bool
  | [] => false
  | c :: cs => (Text.isLetter c || c == '_') && cs.all isNameChar

/-- The pool that an argument of a pool write names: `count`, `$count` and `'count'` are the
same pool. -/
def poolTarget (argument : List Char) : List Char :=
  Text.trimWhile Source.isQuote ((Text.trimChars argument).dropWhile (· == '$'))

/-- The comparisons, those of two characters first. -/
def comparisons : List Comparison :=
  [.ge, .le, .eq, .ne, .gt, .lt]

/-- The comparison whose symbol a text starts with. -/
def comparisonAt? (cs : List Char) : Option Comparison :=
  comparisons.find? fun op => op.symbol.toList.isPrefixOf cs

/-- A comparison of the value at a path with the operand written after the symbol. -/
def readComparison (path : List String) (cs : List Char) : Except SegmentError LensStep :=
  match comparisonAt? cs with
  | none => .error (.missingComparison (String.ofList cs))
  | some op =>
    let operand := Text.trimChars (cs.drop op.symbol.length)
    if operand.isEmpty then .error (.missingOperand op.symbol)
    else .ok (.compare path op (.source (String.ofList operand)))

/-- The segments of a field path; a leading `value` is the value itself. -/
def fieldPath (cs : List Char) : List String :=
  let parts := (Text.splitAtChar '.' cs).filter fun part => !part.isEmpty
  let parts := parts.map String.ofList
  match parts with
  | "value" :: rest => rest
  | parts => parts

/-- The text between the first and the last character. -/
def within (cs : List Char) : List Char :=
  cs.tail.dropLast

/-- Whether a text starts with one character and ends with another. -/
def isBetween (opening closing : Char) (cs : List Char) : Bool :=
  cs.head? == some opening && cs.getLast? == some closing

/-- A call with arguments between parentheses; a pool write is a call of its own kind. -/
def readCall (name segment inside : List Char) : Except SegmentError Segment :=
  let parts := splitArgs inside
  let arguments := parts.map fun part => Argument.source (String.ofList part)
  if name = "to_pool".toList then
    match parts with
    | [target] =>
      if isIdentifier (poolTarget target) then
        .ok ⟨.poolWrite (String.ofList (poolTarget target)), String.ofList name, arguments,
          String.ofList segment⟩
      else .error .badPoolTarget
    | _ => .error .badPoolTarget
  else .ok ⟨.operator, String.ofList name, arguments, String.ofList segment⟩

/-- The inside of brackets is shorter than the text with them. -/
theorem length_within_lt {opening closing : Char} {cs : List Char}
    (h : isBetween opening closing cs = true) : (within cs).length < cs.length := by
  cases cs with
  | nil => simp [isBetween] at h
  | cons c cs =>
    simp only [within, List.tail_cons, List.length_dropLast, List.length_cons]
    omega

/-- Dropping a beginning and trimming never lengthens. -/
theorem length_dropWhile_trim_le (p : Char → Bool) (cs : List Char) :
    (Text.trimChars (cs.dropWhile p)).length ≤ cs.length :=
  Nat.le_trans (Source.length_trimChars_le _) (List.dropWhile_suffix p).length_le

/-- A part between pipes is never longer than the text it was split from. -/
theorem length_le_of_mem_splitPipes {cs part : List Char} (h : part ∈ splitPipes cs) :
    part.length ≤ cs.length := by
  unfold Source.splitPipes Source.splitTopLevel at h
  obtain ⟨piece, hm, rfl⟩ := List.mem_map.1 h
  exact Nat.le_trans (Source.length_trimChars_le piece) (Source.length_le_of_mem_pieces hm)

mutual

/-- Read one segment. -/
def readChars (source : List Char) : Except SegmentError Segment :=
  let segment := Text.trimChars source
  if segment.isEmpty then .error .emptySegment
  else match branchOfKeyword? segment with
    | some expects =>
      .ok ⟨.branch expects, String.ofList segment, [], String.ofList segment⟩
    | none =>
      let name := segment.takeWhile isNameChar
      let rest := Text.trimChars (segment.dropWhile isNameChar)
      if !isIdentifier name then .error .missingName
      else if rest.isEmpty then
        .ok ⟨.operator, String.ofList name, [], String.ofList segment⟩
      else if isBetween '\x7b' '\x7d' rest then
        match Lens.ofName? (String.ofList name) with
        | none => .error (.bodyNotAllowed (String.ofList name))
        | some lens =>
          match readBody (within rest) with
          | .error e => .error e
          | .ok body =>
            .ok ⟨.lens lens body, String.ofList name, [], String.ofList segment⟩
      else if isBetween '(' ')' rest then readCall name segment (within rest)
      else .error (.unexpected (String.ofList rest) (String.ofList name))
termination_by 3 * source.length
decreasing_by
  have h1 := length_within_lt (by assumption : isBetween '\x7b' '\x7d' rest = true)
  have h2 : rest.length ≤ segment.length := length_dropWhile_trim_le isNameChar segment
  have h3 : segment.length ≤ source.length := Source.length_trimChars_le source
  exact Nat.lt_of_lt_of_le (show 3 * (within rest).length + 2 < 3 * rest.length by omega)
    (Nat.mul_le_mul_left 3 (Nat.le_trans h2 h3))

/-- Read the text between the braces of a lens. -/
def readBody (source : List Char) : Except SegmentError LensBody :=
  let raw := Text.trimChars source
  if raw.isEmpty then .error .emptyBody
  else match (splitPipes raw).attach.mapM fun part => readStep part.1 with
    | .error e => .error e
    | .ok steps => .ok ⟨String.ofList raw, steps⟩
termination_by 3 * source.length + 2
decreasing_by
  have h1 := length_le_of_mem_splitPipes part.2
  have h2 : raw.length ≤ source.length := Source.length_trimChars_le source
  omega

/-- Read one step of a lens body. -/
def readStep (source : List Char) : Except SegmentError LensStep :=
  let segment := Text.trimChars source
  if segment = ['+'] then .ok .sum
  else if segment.head? = some '.' then
    let path := segment.tail
    let isPathChar := fun c => isNameChar c || c == '.'
    let fields := fieldPath (path.takeWhile isPathChar)
    let rest := Text.trimChars (path.dropWhile isPathChar)
    if rest.isEmpty then .ok (.field fields) else readComparison fields rest
  else if (comparisonAt? segment).isSome then readComparison [] segment
  else match readChars segment with
    | .error e => .error e
    | .ok read =>
      match read.kind with
      | .operator => .ok (.call read.name read.arguments)
      | _ => .error (.notAllowedInBody (String.ofList segment))
termination_by 3 * source.length + 1
decreasing_by
  have h : segment.length ≤ source.length := Source.length_trimChars_le source
  exact Nat.lt_succ_of_le (Nat.mul_le_mul_left 3 h)

end

/-- Read one segment. -/
def read (source : String) : Except SegmentError Segment :=
  readChars source.toList

end Segment

/-- Read the text between the braces of a lens. -/
def LensBody.read (source : String) : Except SegmentError LensBody :=
  Segment.readBody source.toList

end Sluice
