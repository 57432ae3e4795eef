/-
  Sluice.Toml.Scalar

  The values of TOML that hold no others: strings in four spellings, numbers, booleans, dates
  and times. A reader takes what it reads from the front of the text and leaves the rest.
-/

import Sluice.Number.Text
import Sluice.Toml.Node

namespace Sluice.Toml

open Sluice.Text (isDigit isAsciiLetter digitValue? hexValue? digitsValue?)

/-- Reads something from the front of a text. -/
abbrev Reader (α : Type) := List Char → Option (α × List Char)

/-! ## Strings -/

/-- A character that a string or a comment can hold as it is: a tab or what is no ASCII
control. -/
def isPlain (c : Char) : Bool :=
  c == '\t' || (0x20 ≤ c.toNat && c.toNat ≠ 0x7f)

/-- The character of a code in hexadecimal digits. -/
def codeChar? (digits : List Char) : Option Char :=
  match digitsValue? hexValue? 16 digits with
  | some n => if n.isValidChar then some (Char.ofNat n) else none
  | none => none

/-- The character of an escape of one letter. -/
def escaped? : Char → Option Char
  | 'b' => some '\x08'
  | 't' => some '\t'
  | 'n' => some '\n'
  | 'f' => some '\x0c'
  | 'r' => some '\r'
  | '"' => some '"'
  | '\\' => some '\\'
  | _ => none

/-- Put a character in front of what was read. -/
def consChar (c : Char) (rest : Option (List Char × List Char)) : Option (List Char × List Char) :=
  rest.map fun (cs, after) => (c :: cs, after)

/-- The rest of a string between double quotes. -/
def basicBody : Reader (List Char)
  | [] => none
  | '"' :: rest => some ([], rest)
  | '\\' :: 'u' :: a :: b :: c :: d :: rest =>
    (codeChar? [a, b, c, d]).bind fun ch => consChar ch (basicBody rest)
  | '\\' :: 'U' :: a :: b :: c :: d :: e :: f :: g :: h :: rest =>
    (codeChar? [a, b, c, d, e, f, g, h]).bind fun ch => consChar ch (basicBody rest)
  | '\\' :: c :: rest => (escaped? c).bind fun ch => consChar ch (basicBody rest)
  | c :: rest => if isPlain c && c != '\\' then consChar c (basicBody rest) else none

/-- The rest of a string between single quotes. -/
def literalBody : Reader (List Char)
  | [] => none
  | '\'' :: rest => some ([], rest)
  | c :: rest => if isPlain c then consChar c (literalBody rest) else none

/-- The end of a string between triple quotes: three to five quotes, of which the last three
close it. -/
def closing? (quote : Char) (cs : List Char) : Option (List Char × List Char) :=
  let run := (cs.takeWhile (· == quote)).length
  if 3 ≤ run && run ≤ 5 then some (List.replicate (run - 3) quote, cs.drop run) else none

/-- Whether a text starts with a run of three quotes. -/
def startsTriple (quote : Char) (cs : List Char) : Bool :=
  cs.take 3 == [quote, quote, quote]

/-- Whether only blanks stand before the next line break. -/
def endsLine (cs : List Char) : Bool :=
  match cs.dropWhile fun c => c == ' ' || c == '\t' with
  | '\n' :: _ => true
  | '\r' :: '\n' :: _ => true
  | _ => false

/-- The rest of a string between triple double quotes. After a backslash at the end of a line,
`skipping` passes over blanks and line breaks. -/
def tripleBasicBody (skipping : Bool) : Reader (List Char)
  | [] => none
  | '\r' :: '\n' :: rest =>
    if skipping then tripleBasicBody true rest else consChar '\n' (tripleBasicBody false rest)
  | '\\' :: 'u' :: a :: b :: c :: d :: rest =>
    (codeChar? [a, b, c, d]).bind fun ch => consChar ch (tripleBasicBody false rest)
  | '\\' :: 'U' :: a :: b :: c :: d :: e :: f :: g :: h :: rest =>
    (codeChar? [a, b, c, d, e, f, g, h]).bind fun ch => consChar ch (tripleBasicBody false rest)
  | '\\' :: c :: rest =>
    -- A backslash at the end of a line joins it to the next text.
    if endsLine (c :: rest) then tripleBasicBody true rest
    else (escaped? c).bind fun ch => consChar ch (tripleBasicBody false rest)
  | c :: rest =>
    if skipping && (c == ' ' || c == '\t' || c == '\n') then tripleBasicBody true rest
    else if startsTriple '"' (c :: rest) then closing? '"' (c :: rest)
    else if (isPlain c && c != '\\') || c == '\n' then consChar c (tripleBasicBody false rest)
    else none

/-- The rest of a string between triple single quotes. -/
def tripleLiteralBody : Reader (List Char)
  | [] => none
  | '\r' :: '\n' :: rest => consChar '\n' (tripleLiteralBody rest)
  | c :: rest =>
    if startsTriple '\'' (c :: rest) then closing? '\'' (c :: rest)
    else if isPlain c || c == '\n' then consChar c (tripleLiteralBody rest)
    else none

/-- A line break right after an opening triple quote does not count. -/
def dropFirstBreak : List Char → List Char
  | '\n' :: rest => rest
  | '\r' :: '\n' :: rest => rest
  | cs => cs

/-- A string in any of its spellings. -/
def string? : Reader (List Char)
  | '"' :: '"' :: '"' :: rest => tripleBasicBody false (dropFirstBreak rest)
  | '\'' :: '\'' :: '\'' :: rest => tripleLiteralBody (dropFirstBreak rest)
  | '"' :: rest => basicBody rest
  | '\'' :: rest => literalBody rest
  | _ => none

/-! ## Numbers -/

/-- Digits, where an underscore may stand between two of them. -/
def underscored? (isDigitOf : Char → Bool) : List Char → Option (List Char)
  | [] => none
  | [c] => if isDigitOf c then some [c] else none
  | c :: '_' :: rest =>
    if isDigitOf c then (underscored? isDigitOf rest).map (c :: ·) else none
  | c :: rest => if isDigitOf c then (underscored? isDigitOf rest).map (c :: ·) else none

/-- Decimal digits without a leading zero. -/
def decimalDigits? (cs : List Char) : Option (List Char) :=
  match cs with
  | ['0'] => some ['0']
  | '0' :: _ => none
  | _ => underscored? isDigit cs

/-- A sign, and whether it is a minus. -/
def splitSign : List Char → Bool × List Char
  | '+' :: rest => (false, rest)
  | '-' :: rest => (true, rest)
  | cs => (false, cs)

/-- A number in a base other than ten. -/
def inBase? (base : Nat) (cs : List Char) : Option Nat :=
  let value? (c : Char) : Option Nat := (hexValue? c).filter (· < base)
  (underscored? (fun c => (value? c).isSome) cs).bind (digitsValue? value? base)

/-- The integers of a document are those of 64 bits. -/
def inRange (n : Int) : Bool :=
  decide (-(Int.ofNat (Nat.pow 2 63)) ≤ n) && decide (n < Int.ofNat (Nat.pow 2 63))

/-- An integer. -/
def integer? (cs : List Char) : Option Int :=
  let found : Option Int :=
    match cs with
    | '0' :: 'x' :: digits => (inBase? 16 digits).map Int.ofNat
    | '0' :: 'o' :: digits => (inBase? 8 digits).map Int.ofNat
    | '0' :: 'b' :: digits => (inBase? 2 digits).map Int.ofNat
    | _ =>
      let (negative, digits) := splitSign cs
      ((decimalDigits? digits).bind (digitsValue? digitValue? 10)).map fun n =>
        if negative then -(n : Int) else n
  found.filter inRange

/-- An exponent, with its mark. -/
def exponentDigits? : List Char → Option (List Char)
  | [] => some []
  | mark :: rest =>
    if mark == 'e' || mark == 'E' then
      let (negative, digits) := splitSign rest
      (underscored? isDigit digits).map fun ds => 'e' :: (if negative then '-' :: ds else ds)
    else none

/-- A fraction or an exponent, or both. -/
def fractionDigits? : List Char → Option (List Char)
  | '.' :: rest =>
    let digits := rest.takeWhile fun c => isDigit c || c == '_'
    let more := rest.dropWhile fun c => isDigit c || c == '_'
    (underscored? isDigit digits).bind fun ds =>
      (exponentDigits? more).map fun es => '.' :: ds ++ es
  | [] => none
  | cs => exponentDigits? cs

/-- A number with a fraction or an exponent, or a spelled infinity or NaN. A number too large for
a double is refused. -/
def float? (cs : List Char) : Option Number :=
  let (negative, magnitude) := splitSign cs
  let signed (ds : List Char) := if negative then '-' :: ds else ds
  if magnitude = "inf".toList || magnitude = "nan".toList then Number.readChars? (signed magnitude)
  else
    let whole := magnitude.takeWhile fun c => isDigit c || c == '_'
    let rest := magnitude.dropWhile fun c => isDigit c || c == '_'
    match decimalDigits? whole, fractionDigits? rest with
    | some ds, some fs =>
      (Number.readChars? (signed (ds ++ fs))).filter fun x => Number.isFinite x || negative
    | _, _ => none

/-! ## Dates and times -/

/-- A number of two digits within bounds. -/
def twoDigits? (least most : Nat) (a b : Char) : Option Nat :=
  (digitsValue? digitValue? 10 [a, b]).filter fun n => decide (least ≤ n) && decide (n ≤ most)

/-- Days of a month. -/
def daysIn (year month : Nat) : Nat :=
  if month = 2 then
    if year % 4 = 0 && (year % 100 ≠ 0 || year % 400 = 0) then 29 else 28
  else if month = 4 || month = 6 || month = 9 || month = 11 then 30
  else 31

/-- Whether a text is a date. -/
def isDate : List Char → Bool
  | [y1, y2, y3, y4, '-', m1, m2, '-', d1, d2] =>
    match digitsValue? digitValue? 10 [y1, y2, y3, y4], twoDigits? 1 12 m1 m2 with
    | some year, some month => (twoDigits? 1 (daysIn year month) d1 d2).isSome
    | _, _ => false
  | _ => false

/-- The fraction of a second, after its point: nine places count, and zeros at the end do not.
A fraction of zero is left out with its point. -/
def fractionText (digits : List Char) : List Char :=
  match Text.dropEndWhile (· == '0') (digits.take 9) with
  | [] => []
  | kept => '.' :: kept

/-- A time of day, from the front of a text. -/
def time? : Reader (List Char)
  | h1 :: h2 :: ':' :: m1 :: m2 :: ':' :: s1 :: s2 :: rest =>
    match twoDigits? 0 23 h1 h2, twoDigits? 0 59 m1 m2, twoDigits? 0 60 s1 s2 with
    | some _, some _, some _ =>
      let time := [h1, h2, ':', m1, m2, ':', s1, s2]
      match rest with
      | '.' :: fraction =>
        let digits := fraction.takeWhile isDigit
        if digits.isEmpty then none
        else some (time ++ fractionText digits, fraction.dropWhile isDigit)
      | _ => some (time, rest)
    | _, _, _ => none
  | _ => none

/-- An offset from universal time, or nothing. No offset counts as a positive one. -/
def offset? : List Char → Option (List Char)
  | [] => some []
  | ['Z'] | ['z'] => some ['Z']
  | [sign, h1, h2, ':', m1, m2] =>
    if sign == '+' || sign == '-' then
      match twoDigits? 0 23 h1 h2, twoDigits? 0 59 m1 m2 with
      | some hours, some minutes =>
        let sign := if hours = 0 && minutes = 0 then '+' else sign
        some [sign, h1, h2, ':', m1, m2]
      | _, _ => none
    else none
  | _ => none

/-- A time of day with an optional offset. -/
def zonedTime? (cs : List Char) : Option (List Char) :=
  match time? cs with
  | some (time, rest) => (offset? rest).map (time ++ ·)
  | none => none

/-- A date, a time of day, or both, in normal form. -/
def moment? (cs : List Char) : Option (List Char) :=
  if isDate (cs.take 10) then
    match cs.drop 10 with
    | [] => some cs
    | mark :: time =>
      if mark == 'T' || mark == 't' then (zonedTime? time).map fun t => cs.take 10 ++ 'T' :: t
      else none
  else
    match time? cs with
    | some (time, []) => some time
    | _ => none

/-! ## Words -/

/-- The characters of numbers, dates, times and names of constants. -/
def isWordChar (c : Char) : Bool :=
  isDigit c || isAsciiLetter c || c == '+' || c == '-' || c == '_' || c == '.' || c == ':'

/-- A value written as one word. -/
def word? (cs : List Char) : Option Node :=
  if cs = "true".toList then some (.bool true)
  else if cs = "false".toList then some (.bool false)
  else
    match moment? cs, integer? cs with
    | some t, _ => some (.moment (String.ofList t))
    | none, some n => some (.integer n)
    | none, none => (float? cs).map .float

/-- A value that holds no others. Between a date and a time of day a blank may stand. -/
def scalar? : Reader Node := fun cs =>
  match cs with
  | '"' :: _ | '\'' :: _ => (string? cs).map fun (s, rest) => (.text (String.ofList s), rest)
  | _ =>
    let word := cs.takeWhile isWordChar
    let rest := cs.dropWhile isWordChar
    match isDate word, rest with
    | true, ' ' :: a :: b :: ':' :: more =>
      if isDigit a && isDigit b then
        let time := (a :: b :: ':' :: more).takeWhile isWordChar
        (zonedTime? time).map fun t =>
          (.moment (String.ofList (word ++ 'T' :: t)), (a :: b :: ':' :: more).dropWhile isWordChar)
      else (word? word).map (·, rest)
    | _, _ => (word? word).map (·, rest)

end Sluice.Toml
