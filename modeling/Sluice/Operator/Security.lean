/-
  Sluice.Operator.Security

  The domain library `security`: masking, redaction, a check of e-mail addresses, and the
  Adler-32 checksum of a text's UTF-8 bytes.
-/

import Sluice.Operator.Math
import Sluice.Operator.Network

namespace Sluice

variable {σ : Type}

namespace Security

/-- The modulus of the checksum. -/
def checksumModulus : UInt32 := 65521

/-- Take one byte into the two sums of the checksum. -/
def checksumStep (sums : UInt32 × UInt32) (byte : UInt8) : UInt32 × UInt32 :=
  let a := (sums.1 + byte.toUInt32) % checksumModulus
  (a, (sums.2 + a) % checksumModulus)

/-- The Adler-32 checksum: one plus the sum of the bytes, and above it the sum of those sums. -/
def checksum (data : List UInt8) : UInt32 :=
  let sums := data.foldl checksumStep (1, 0)
  (sums.2 <<< 16) ||| sums.1

/-- Hide all but the last characters, four by default, behind a character, `*` by default. -/
def mask (input : Value) (args : Arguments) : Attempt Value := do
  let text := input.render.toList
  let visible ← wholeNumber (← args.numberOr 0 4.0)
  let cover := (args.textOr 1 "*").toList.head?.getD '*'
  let hidden := text.length - visible
  return .text (String.ofList (List.replicate hidden cover ++ text.drop hidden))

/-- Replace every occurrence of the arguments' texts, one after the other. -/
def redact (input : Value) (args : Arguments) : Attempt Value := do
  let text := (← input.expectText).toList
  return .text <| String.ofList <| args.foldl
    (fun text arg =>
      let word := arg.render.toList
      if word.isEmpty then text else Text.replaceText word "[REDACTED]".toList text)
    text

/-- A local part, one `@`, and a domain of at least two labels, with no blank anywhere. -/
def isEmail (s : String) : Bool :=
  match Text.splitOnce '@' s.toList with
  | none => false
  | some (localPart, domain) =>
    let labels := Text.splitAtChar '.' domain
    !localPart.isEmpty && !domain.contains '@' && !s.toList.any Text.isBlank &&
      decide (2 ≤ labels.length) && labels.all fun label => !label.isEmpty

/-- The library `security`. -/
def library : Library σ where
  name := "security"
  tier := .domain
  entries := [
    .pure "mask" (.between 0 2) mask,
    .pure "redact" (.atLeast 1) redact,
    .pure "validate_email" (.exactly 0) fun input _ => .ok (.bool (isEmail input.render)),
    .pure "checksum" (.exactly 0) fun input _ =>
      .ok (.number (Number.ofNat (checksum (Network.bytes input.render)).toNat))]

end Security

end Sluice
