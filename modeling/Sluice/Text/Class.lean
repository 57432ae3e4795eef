/-
  Sluice.Text.Class

  Character classes of source text and values: blanks (Unicode White_Space), letters and
  numbers (Alphabetic, and the categories Nd, Nl, No), controls, and the characters that a
  quoted text has to spell out.

  Each class answers for ASCII directly and consults its table only above ASCII.
-/

import Sluice.Text.LetterTable
import Sluice.Text.VisibleTable

namespace Sluice.Text

/-- Whether a code point lies in one of the closed ranges of a table. -/
def inRanges (table : List (Nat × Nat)) (code : Nat) : Bool :=
  table.any fun range => range.1 ≤ code && code ≤ range.2

/-- White space: the 25 code points with the property White_Space. -/
def isBlank (c : Char) : Bool :=
  let n := c.toNat
  n == 0x20 || (0x09 ≤ n && n ≤ 0x0d) || n == 0x85 || n == 0xa0 || n == 0x1680 ||
    (0x2000 ≤ n && n ≤ 0x200a) || n == 0x2028 || n == 0x2029 || n == 0x202f || n == 0x205f ||
    n == 0x3000

/-- An ASCII decimal digit. -/
def isDigit (c : Char) : Bool :=
  0x30 ≤ c.toNat && c.toNat ≤ 0x39

/-- An ASCII letter. -/
def isAsciiLetter (c : Char) : Bool :=
  (0x41 ≤ c.toNat && c.toNat ≤ 0x5a) || (0x61 ≤ c.toNat && c.toNat ≤ 0x7a)

/-- A letter of any script: the property Alphabetic. -/
def isLetter (c : Char) : Bool :=
  if c.toNat < 0x80 then isAsciiLetter c else inRanges alphabeticRanges c.toNat

/-- A letter, or a character of a number category. -/
def isLetterOrNumber (c : Char) : Bool :=
  if c.toNat < 0x80 then isAsciiLetter c || isDigit c
  else inRanges alphabeticRanges c.toNat || inRanges numericRanges c.toNat

/-- A control character: U+0000 to U+001F and U+007F to U+009F. -/
def isControl (c : Char) : Bool :=
  c.toNat < 0x20 || (0x7f ≤ c.toNat && c.toNat < 0xa0)

/-- A character that a quoted text cannot show as it is: it has no glyph, or it would join
the character before it. -/
def isHidden (c : Char) : Bool :=
  if c.toNat < 0x80 then isControl c
  else inRanges extendingRanges c.toNat || inRanges hiddenRanges c.toNat

/-! ## Digits -/

/-- Value of an ASCII digit. -/
def digitValue? (c : Char) : Option Nat :=
  if isDigit c then some (c.toNat - 0x30) else none

/-- Value of a hexadecimal digit of either case. -/
def hexValue? (c : Char) : Option Nat :=
  let n := c.toNat
  if isDigit c then some (n - 0x30)
  else if 0x61 ≤ n && n ≤ 0x66 then some (n - 0x61 + 10)
  else if 0x41 ≤ n && n ≤ 0x46 then some (n - 0x41 + 10)
  else none

/-- The number that a non-empty list of digits denotes in a base, most significant first;
`none` as soon as one character is not a digit. -/
def digitsValue? (value? : Char → Option Nat) (base : Nat) (digits : List Char) : Option Nat :=
  if digits.isEmpty then none
  else digits.foldl (fun acc c => acc.bind fun n => (value? c).map (base * n + ·)) (some 0)

/-- An unsigned number in a base: one plus sign may stand before its digits. -/
def unsigned? (value? : Char → Option Nat) (base : Nat) : List Char → Option Nat
  | '+' :: digits => digitsValue? value? base digits
  | digits => digitsValue? value? base digits

/-- Digits of a number in lower case hexadecimal, without leading zeros. -/
def hexDigits (n : Nat) : List Char :=
  Nat.toDigits 16 n

/-- The last `width` digits are kept aligned: zeros are written in front of a shorter list. -/
def padZeros (width : Nat) (digits : List Char) : List Char :=
  List.replicate (width - digits.length) '0' ++ digits

end Sluice.Text
