/-
  Sluice.Operator.Network

  The domain library `network`: percent encoding, query strings and addresses.

  Percent encoding works on the UTF-8 bytes of a text: letters, digits and `-_.~` stand for
  themselves, any other byte is written as a percent sign and two hexadecimal digits. Reading
  also takes a plus sign for a space.
-/

import Sluice.Operator.Core

namespace Sluice

variable {σ : Type}

namespace Network

/-- The UTF-8 bytes of a text. -/
def bytes (s : String) : List UInt8 :=
  s.toUTF8.toList

/-- A byte that stands for itself in percent encoding. -/
def isPlain (b : UInt8) : Bool :=
  let c := Char.ofNat b.toNat
  Text.isAsciiLetter c || Text.isDigit c || c == '-' || c == '_' || c == '.' || c == '~'

/-- An upper case hexadecimal digit. -/
def hexDigit (n : Nat) : Char :=
  if n < 10 then Char.ofNat (0x30 + n) else Char.ofNat (0x41 + (n - 10))

/-- One byte in percent encoding. -/
def encodeByte (b : UInt8) : List Char :=
  if isPlain b then [Char.ofNat b.toNat]
  else ['%', hexDigit (b.toNat / 16), hexDigit (b.toNat % 16)]

/-- A text in percent encoding. -/
def encode (s : String) : String :=
  String.ofList ((bytes s).flatMap encodeByte)

/-- The byte of an escape's two characters: two hexadecimal digits, or a plus sign and one. -/
def escapeByte? (a b : UInt8) : Option UInt8 :=
  (Text.unsigned? Text.hexValue? 16 [Char.ofNat a.toNat, Char.ofNat b.toNat]).map UInt8.ofNat

/-- The bytes that percent-encoded bytes stand for, or the place of the first bad escape;
`place` counts the bytes before. -/
def decodeBytes (place : Nat) : List UInt8 → Except Nat (List UInt8)
  | [] => .ok []
  | [c] => if c = 0x25 then .error place else .ok [if c = 0x2b then 0x20 else c]
  | [c, d] =>
    if c = 0x25 then .error place
    else match decodeBytes (place + 1) [d] with
      | .ok rest => .ok ((if c = 0x2b then 0x20 else c) :: rest)
      | .error bad => .error bad
  | c :: d :: e :: rest =>
    if c = 0x25 then
      -- Bytes of longer characters are no digits, so an escape never cuts one apart.
      match escapeByte? d e with
      | none => .error place
      | some b =>
        match decodeBytes (place + 3) rest with
        | .ok more => .ok (b :: more)
        | .error bad => .error bad
    else match decodeBytes (place + 1) (d :: e :: rest) with
      | .ok more => .ok ((if c = 0x2b then 0x20 else c) :: more)
      | .error bad => .error bad

/-- The text that a percent-encoded text stands for. -/
def decode (s : String) : Attempt String :=
  match decodeBytes 0 (bytes s) with
  | .error place => Attempt.refuseDomain s!"invalid percent escape at byte {place}"
  | .ok decoded =>
    match String.fromUTF8? ⟨decoded.toArray⟩ with
    | some text => .ok text
    | none => Attempt.refuseDomain "decoded text is not valid UTF-8"

/-- One pair of a query string; a missing value is empty. -/
def queryPair (pair : List Char) : Attempt (String × Value) := do
  let (key, content) := (Text.splitOnce '=' pair).getD (pair, [])
  let key ← decode (String.ofList key)
  let content ← decode (String.ofList content)
  return (key, .text content)

/-- The object of a query string: the last of two pairs with one key wins. -/
def parseQuery (input : Value) (_ : Arguments) : Attempt Value := do
  let query := (← input.expectText).toList.dropWhile (· == '?')
  let pairs := (Text.splitAtChar '&' query).filter fun pair => !pair.isEmpty
  return .object (Record.ofEntries (← pairs.mapM queryPair))

/-- A number from 0 to 255 of one to three digits, without leading zeros. -/
def isOctet (cs : List Char) : Bool :=
  decide (cs.length ≤ 3) && (decide (cs.length ≤ 1) || cs.head? != some '0') &&
    match Text.digitsValue? Text.digitValue? 10 cs with
    | some n => decide (n ≤ 255)
    | none => false

/-- Four octets with points between them. -/
def isIpv4 (s : String) : Bool :=
  let parts := Text.splitAtChar '.' s.toList
  decide (parts.length = 4) && parts.all isOctet

/-- The library `network`. -/
def library : Library σ where
  name := "network"
  tier := .domain
  entries := [
    .pure "url_encode" (.exactly 0) fun input _ => .ok (.text (encode input.render)),
    .pure "url_decode" (.exactly 0) fun input _ => do
      return .text (← decode (← input.expectText)),
    .pure "parse_query" (.exactly 0) parseQuery,
    .pure "is_ipv4" (.exactly 0) fun input _ => .ok (.bool (isIpv4 input.render))]

end Network

end Sluice
