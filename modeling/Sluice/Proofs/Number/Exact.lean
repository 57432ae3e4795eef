/-
  Sluice.Proofs.Number.Exact

  Numbers that are read exactly.

  Rounding to the nearest double leaves alone what is a double already (`nearestBits_units`), so a
  whole double is read back from its decimal digits, except that a negative zero loses its sign.
  Where a text is a plain integer below 10^15, a literal reads the number that JSON has for it.
-/

import Mathlib.Algebra.Group.Nat.Defs
import Mathlib.Data.List.TakeWhile
import Sluice.Literal

namespace Sluice

-- ============================================================================
-- Bits
-- ============================================================================

namespace Number

theorem toNat_ofMagnitudeBits (negative : Bool) {bits : Nat} (h : bits < 2 ^ 63) :
    (ofMagnitudeBits negative bits).bits.toNat = if negative then bits + 2 ^ 63 else bits := by
  cases negative with
  | false =>
    simp only [ofMagnitudeBits, Bool.false_eq_true, if_false]
    exact UInt64.toNat_ofNat_of_lt (Nat.lt_trans h (by decide))
  | true =>
    simp only [ofMagnitudeBits, if_true, Nat.pow_eq]
    exact UInt64.toNat_ofNat_of_lt (Nat.add_lt_add_right h (2 ^ 63))

theorem isNegative_ofMagnitudeBits (negative : Bool) {bits : Nat} (h : bits < 2 ^ 63) :
    isNegative (ofMagnitudeBits negative bits) = negative := by
  rw [isNegative, toNat_ofMagnitudeBits negative h, Nat.pow_eq]
  cases negative with
  | false => simpa using h
  | true => simp

theorem magnitudeBits_ofMagnitudeBits (negative : Bool) {bits : Nat} (h : bits < 2 ^ 63) :
    magnitudeBits (ofMagnitudeBits negative bits) = bits := by
  rw [magnitudeBits, toNat_ofMagnitudeBits negative h, Nat.pow_eq]
  cases negative with
  | false => simpa using Nat.mod_eq_of_lt h
  | true => simpa using Nat.mod_eq_of_lt h

theorem magnitudeBits_lt (x : Number) : magnitudeBits x < 2 ^ 63 :=
  Nat.mod_lt _ (by decide)

/-- A double is its sign and its magnitude. -/
theorem ofMagnitudeBits_self (x : Number) :
    ofMagnitudeBits (isNegative x) (magnitudeBits x) = x := by
  have hlt := x.bits.toNat_lt
  have heq := toNat_ofMagnitudeBits (isNegative x) (magnitudeBits_lt x)
  have hbits : (ofMagnitudeBits (isNegative x) (magnitudeBits x)).bits = x.bits := by
    refine UInt64.toNat_inj.1 (heq.trans ?_)
    simp only [isNegative, magnitudeBits, Nat.pow_eq, decide_eq_true_eq]
    split <;> omega
  exact congrArg Number.mk hbits

-- ============================================================================
-- Rounding
-- ============================================================================

/-- A multiple is divided without rounding. -/
theorem divRoundEven_mul (q : Nat) {d : Nat} (hd : 0 < d) : divRoundEven (q * d) d = q := by
  simp [divRoundEven, hd]

theorem divRoundEven_le {num den bound : Nat} (h : num / den < bound) :
    divRoundEven num den ≤ bound := by
  simp only [divRoundEven]
  split
  · omega
  · split <;> omega

theorem le_divRoundEven (num den : Nat) : num / den ≤ divRoundEven num den := by
  simp only [divRoundEven]
  split
  · omega
  · split <;> omega

theorem nearestBits_le (num den : Nat) : nearestBits num den ≤ infinityBits := by
  simp only [nearestBits]
  split <;> omega

theorem nearestBits_lt_two_pow (num den : Nat) : nearestBits num den < 2 ^ 63 :=
  Nat.lt_of_le_of_lt (nearestBits_le num den) (by decide)

theorem one_pos : 0 < one := by
  unfold one
  generalize 1074 = k
  exact Nat.two_pow_pos k

theorem mul_one_lt_two_pow {n k : Nat} (h : n < 2 ^ k) : n * one < 2 ^ (k + 1074) := by
  unfold one
  generalize 1074 = e
  rw [Nat.pow_add]
  exact Nat.mul_lt_mul_of_pos_right h (Nat.two_pow_pos e)

/-- What is left of a number of units after its doublings has 53 bits. -/
theorem div_doublings_lt (n : Nat) : n / 2 ^ (n.log2 + 1 - 53) < 2 ^ 53 := by
  rw [Nat.div_lt_iff_lt_mul (Nat.two_pow_pos _), ← Nat.pow_add]
  exact Nat.lt_of_lt_of_le Nat.lt_log2_self (Nat.pow_le_pow_right (by decide) (by omega))

/-- Less than 2^2097 units, the largest power of two that is a double, stay finite. -/
theorem nearestBits_lt_infinityBits {n k : Nat} (hk : k ≤ 2097) (hn : n < 2 ^ k) :
    nearestBits n 1 < infinityBits := by
  -- Rounding carries by at most one.
  have hround := divRoundEven_le (div_doublings_lt n)
  have hlog : n.log2 < 2097 := by
    by_cases hzero : n = 0
    · simp [hzero]
    · exact Nat.lt_of_lt_of_le ((Nat.log2_lt hzero).2 hn) hk
  simp only [nearestBits, Nat.div_one, Nat.one_mul, Nat.pow_eq, infinityBits]
  split <;> omega

/-- A significand with its exponent is not rounded: it has 53 bits, or is not doubled at all. -/
theorem nearestBits_significand {s e : Nat} (hs : s < 2 ^ 53) (he : e = 0 ∨ 2 ^ 52 ≤ s)
    (hfinite : e * 2 ^ 52 + s < infinityBits) :
    nearestBits (s * 2 ^ e) 1 = e * 2 ^ 52 + s := by
  have hdoublings : (s * 2 ^ e).log2 + 1 - 53 = e := by
    rcases he with rfl | he
    · have hlog : s.log2 < 53 := by
        by_cases hzero : s = 0
        · simp [hzero]
        · exact (Nat.log2_lt hzero).2 hs
      rw [Nat.pow_zero, Nat.mul_one]
      omega
    · have hpos : 0 < 2 ^ e := Nat.two_pow_pos e
      have hlog : (s * 2 ^ e).log2 = 52 + e := by
        rw [Nat.log2_eq_iff (Nat.mul_ne_zero (by omega) (by omega)), Nat.add_right_comm,
          Nat.pow_add, Nat.pow_add]
        exact ⟨Nat.mul_le_mul_right _ he, Nat.mul_lt_mul_of_pos_right hs hpos⟩
      omega
  simp only [nearestBits, Nat.div_one, Nat.pow_eq, hdoublings, Nat.one_mul,
    divRoundEven_mul s (Nat.two_pow_pos e), hfinite, if_true]

/-- A double is nearest to itself. -/
theorem nearestBits_units {x : Number} (hx : isFinite x = true) :
    nearestBits (units x) 1 = magnitudeBits x := by
  simp only [isFinite, decide_eq_true_eq] at hx
  simp only [units, significand, exponent, Nat.pow_eq]
  by_cases hsub : magnitudeBits x < 2 ^ 52
  · rw [if_pos hsub, Nat.div_eq_of_lt hsub,
      nearestBits_significand (by omega) (.inl rfl) (by omega)]
    omega
  · rw [if_neg hsub, nearestBits_significand (by omega) (.inr (by omega)) (by omega)]
    omega

/-- Negation changes the sign of what was rounded. -/
theorem neg_nearest (num den : Nat) : -(nearest false num den) = nearest true num den := by
  have hlt := nearestBits_lt_two_pow num den
  change ofMagnitudeBits _ _ = _
  rw [nearest, isNegative_ofMagnitudeBits false hlt, magnitudeBits_ofMagnitudeBits false hlt]
  rfl

end Number

-- ============================================================================
-- Digits
-- ============================================================================

open Text (isDigit digitValue? digitsValue?)

/-- Decimal digits denote what they are known to denote, and nothing else denotes a number. -/
theorem Text.digitsValue?_ten (cs : List Char) :
    digitsValue? digitValue? 10 cs =
      if cs ≠ [] ∧ cs.all isDigit = true then some (Nat.ofDigitChars 10 cs 0) else none := by
  have hfold : ∀ acc : Option Nat,
      cs.foldl (fun acc c => acc.bind fun n => (digitValue? c).map (10 * n + ·)) acc =
        if cs.all isDigit = true then acc.map (Nat.ofDigitChars 10 cs) else none := by
    induction cs with
    | nil => intro acc; cases acc <;> rfl
    | cons c cs ih =>
      intro acc
      rw [List.foldl_cons, ih]
      by_cases hc : isDigit c = true
      · cases acc <;> simp [hc, digitValue?, Nat.ofDigitChars_cons]
      · cases acc <;> simp [hc, digitValue?]
  by_cases hne : cs = []
  · subst hne
    rfl
  · rw [digitsValue?, if_neg (by simpa using hne), hfold]
    simp [hne]

-- ============================================================================
-- Plain integers
-- ============================================================================

namespace Number

/-- Digits behind a minus sign, or by themselves. -/
def sign (negative : Bool) (digits : List Char) : List Char :=
  if negative then '-' :: digits else digits

/-- The digits of an integer, without its minus sign. -/
def unsigned : List Char → List Char
  | '-' :: digits => digits
  | digits => digits

/-- Whether a word is a decimal integer of a magnitude below 10^15, with nothing but digits after
an optional minus sign. -/
def isPlainInteger (word : List Char) : Bool :=
  match digitsValue? digitValue? 10 (unsigned word) with
  | some n => decide (n < 10 ^ 15)
  | none => false

/-- The digits of a number below 10^15. -/
structure PlainDigits (cs : List Char) : Prop where
  nonempty : cs ≠ []
  digits : ∀ c ∈ cs, isDigit c = true
  small : Nat.ofDigitChars 10 cs 0 < 10 ^ 15

theorem PlainDigits.value?_eq {cs : List Char} (h : PlainDigits cs) :
    digitsValue? digitValue? 10 cs = some (Nat.ofDigitChars 10 cs 0) := by
  rw [Text.digitsValue?_ten, if_pos ⟨h.nonempty, List.all_eq_true.2 h.digits⟩]

/-- Digits start with a digit. -/
theorem PlainDigits.exists_cons {cs : List Char} (h : PlainDigits cs) :
    ∃ c rest, cs = c :: rest ∧ isDigit c = true := by
  obtain ⟨c, rest, rfl⟩ := List.exists_cons_of_ne_nil h.nonempty
  exact ⟨c, rest, rfl, h.digits c List.mem_cons_self⟩

theorem exists_of_isPlainInteger {word : List Char} (h : isPlainInteger word = true) :
    ∃ negative digits, word = sign negative digits ∧ PlainDigits digits := by
  have hword : ∃ negative, word = sign negative (unsigned word) := by
    unfold unsigned
    split
    · exact ⟨true, rfl⟩
    · exact ⟨false, rfl⟩
  obtain ⟨negative, hword⟩ := hword
  refine ⟨negative, unsigned word, hword, ?_⟩
  rw [isPlainInteger, Text.digitsValue?_ten] at h
  split at h
  · rename_i hn
    split at hn
    · rename_i hdigits
      cases hn
      exact ⟨hdigits.1, List.all_eq_true.1 hdigits.2, of_decide_eq_true h⟩
    · cases hn
  · cases h

theorem unsigned_sign {digits : List Char} (h : PlainDigits digits) (negative : Bool) :
    unsigned (sign negative digits) = digits := by
  cases negative with
  | true => rfl
  | false =>
    change unsigned digits = digits
    unfold unsigned
    split
    · exact absurd (h.digits '-' List.mem_cons_self) (by decide)
    · rfl

theorem isPlainInteger_sign {digits : List Char} (h : PlainDigits digits) (negative : Bool) :
    isPlainInteger (sign negative digits) = true := by
  rw [isPlainInteger, unsigned_sign h, h.value?_eq]
  exact decide_eq_true h.small

/-- A number below 10^15 is the nearest double to itself, whatever its sign. -/
theorem nearestDecimal_plain {n : Nat} (hn : n < 10 ^ 15) (negative : Bool) :
    nearestDecimal negative n 0 = nearest negative (n * one) 1 := by
  have hsize : (Nat.toDigits 10 n).length ≤ 15 :=
    (Nat.length_toDigits_le_iff (by decide) (by decide)).2 hn
  by_cases hzero : n = 0
  · subst hzero
    have hbits : nearestBits (0 * one) 1 = 0 := by
      rw [Nat.zero_mul]
      decide
    rw [nearest, hbits]
    rfl
  · have hlow : ¬ ((Nat.toDigits 10 n).length : Int) + 0 < -400 := by omega
    have hhigh : ¬ 400 < ((Nat.toDigits 10 n).length : Int) + 0 := by omega
    simp only [nearestDecimal, hzero, hlow, hhigh, decide_false, Bool.or_self, if_false,
      Bool.false_eq_true]
    have hscale : Nat.pow 10 (0 : Int).toNat = 1 ∧ Nat.pow 10 (-(0 : Int)).toNat = 1 := ⟨rfl, rfl⟩
    rw [hscale.1, hscale.2, Nat.mul_one]

/-- Digits alone are a decimal without fraction and exponent. -/
theorem readDecimal?_plain {digits : List Char} (h : PlainDigits digits) (negative : Bool) :
    readDecimal? negative digits =
      some (nearest negative (Nat.ofDigitChars 10 digits 0 * one) 1) := by
  have htake : digits.takeWhile isDigit = digits := List.takeWhile_eq_self_iff.2 h.digits
  have hdrop : digits.dropWhile isDigit = [] := List.dropWhile_eq_nil_iff.2 h.digits
  simp only [readDecimal?, htake, hdrop, List.append_nil, h.value?_eq]
  exact congrArg some (nearestDecimal_plain h.small negative)

theorem readMagnitude?_plain {digits : List Char} (h : PlainDigits digits) (negative : Bool) :
    readMagnitude? negative digits =
      some (nearest negative (Nat.ofDigitChars 10 digits 0 * one) 1) := by
  -- Digits spell neither an infinity nor a NaN.
  have hword : ∀ (c : Char) (cs : List Char), isDigit c = false →
      digits.map Text.asciiLower ≠ c :: cs := by
    intro c cs hc heq
    obtain ⟨d, rest, rfl, hd⟩ := h.exists_cons
    have hlower : Text.asciiLower d = d := by
      simp only [isDigit, Bool.and_eq_true, decide_eq_true_eq] at hd
      rw [Text.asciiLower, if_neg (by simp; omega)]
    rw [List.map_cons, List.cons.injEq, hlower] at heq
    rw [heq.1, hc] at hd
    cases hd
  have hinf : digits.map Text.asciiLower ≠ "inf".toList := hword 'i' ['n', 'f'] rfl
  have hinfinity : digits.map Text.asciiLower ≠ "infinity".toList :=
    hword 'i' ['n', 'f', 'i', 'n', 'i', 't', 'y'] rfl
  have hnan : digits.map Text.asciiLower ≠ "nan".toList := hword 'n' ['a', 'n'] rfl
  rw [readMagnitude?, if_neg (not_or.2 ⟨hinf, hinfinity⟩), if_neg hnan, readDecimal?_plain h]

/-- A plain integer is read as the nearest double. -/
theorem readChars?_plain {digits : List Char} (h : PlainDigits digits) (negative : Bool) :
    readChars? (sign negative digits) =
      some (nearest negative (Nat.ofDigitChars 10 digits 0 * one) 1) := by
  cases negative with
  | true => exact readMagnitude?_plain h true
  | false =>
    change readChars? digits = _
    unfold readChars?
    split
    · exact absurd (h.digits '-' List.mem_cons_self) (by decide)
    · exact absurd (h.digits '+' List.mem_cons_self) (by decide)
    · exact readMagnitude?_plain h false

theorem isFinite_nearest_plain {n : Nat} (hn : n < 10 ^ 15) (negative : Bool) :
    isFinite (nearest negative (n * one) 1) = true := by
  have hlt : n * one < 2 ^ (50 + 1074) := mul_one_lt_two_pow (by omega)
  rw [isFinite, nearest, magnitudeBits_ofMagnitudeBits negative (nearestBits_lt_two_pow _ _)]
  exact decide_eq_true (nearestBits_lt_infinityBits (by decide) hlt)

/-- A literal takes a plain integer for a number. -/
theorem literal_number?_plain {digits : List Char} (h : PlainDigits digits) (negative : Bool) :
    Literal.number? (sign negative digits) =
      some (nearest negative (Nat.ofDigitChars 10 digits 0 * one) 1) := by
  have hfilter : (readChars? (sign negative digits)).filter isFinite =
      some (nearest negative (Nat.ofDigitChars 10 digits 0 * one) 1) := by
    rw [readChars?_plain h, Option.filter_some, if_pos (isFinite_nearest_plain h.small negative)]
  obtain ⟨c, rest, hcons, hc⟩ : ∃ c rest, sign negative digits = c :: rest ∧
      (isDigit c || c == '-' || c == '+' || c == '.') = true := by
    cases negative with
    | true => exact ⟨'-', digits, rfl, rfl⟩
    | false =>
      obtain ⟨c, rest, rfl, hc⟩ := h.exists_cons
      exact ⟨c, rest, rfl, by rw [hc]; rfl⟩
  rw [hcons] at hfilter ⊢
  rw [Literal.number?, if_pos hc]
  exact hfilter

/-- An integer of JSON is the nearest double. -/
theorem json_integer_eq (negative : Bool) (n : Nat) :
    Json.integer negative n = nearest negative (n * one) 1 := by
  cases negative with
  | true => exact neg_nearest _ _
  | false => rfl

-- ============================================================================
-- Writing whole numbers
-- ============================================================================

/-- The digits of a number below 10^15 are plain. -/
theorem plainDigits_toDigits {n : Nat} (hn : n < 10 ^ 15) : PlainDigits (Nat.toDigits 10 n) where
  nonempty := Nat.toDigits_ne_nil
  digits c hc := by
    have hdigit := Nat.isDigit_of_mem_toDigits (by decide) (by decide) hc
    simpa [Char.isDigit, isDigit, UInt32.le_iff_toNat_le] using hdigit
  small := by rwa [Nat.ofDigitChars_ten_toDigits]

/-- A whole double below 10^15 is its integer part in units. -/
theorem units_eq_of_showsAsInteger {x : Number} (hx : showsAsInteger x = true) :
    units x = wholeMagnitude x * one ∧ isFinite x = true ∧ wholeMagnitude x < 10 ^ 15 := by
  simp only [showsAsInteger, isWhole, hasFraction, Bool.and_eq_true, Bool.not_eq_true',
    bne_eq_false_iff_eq, decide_eq_true_eq] at hx
  obtain ⟨⟨hfinite, hfraction⟩, hsmall⟩ := hx
  refine ⟨?_, hfinite, hsmall⟩
  exact (Nat.div_mul_cancel (Nat.dvd_of_mod_eq_zero hfraction)).symm

theorem nearest_wholeMagnitude {x : Number} (hx : showsAsInteger x = true) (negative : Bool) :
    nearest negative (wholeMagnitude x * one) 1 = ofMagnitudeBits negative (magnitudeBits x) := by
  obtain ⟨hunits, hfinite, -⟩ := units_eq_of_showsAsInteger hx
  rw [nearest, ← hunits, nearestBits_units hfinite]

/-- Only zeros have no units. -/
theorem isZero_iff {x : Number} (hx : isFinite x = true) : isZero x = true ↔ units x = 0 := by
  rw [isZero, beq_iff_eq]
  constructor
  · intro h
    simp [units, significand, h]
  · intro h
    rw [← nearestBits_units hx, h]
    decide

theorem integerText_toInt (x : Number) :
    (integerText (toInt x)).toList =
      sign (isNegative x && wholeMagnitude x != 0) (Nat.toDigits 10 (wholeMagnitude x)) := by
  have habs : (toInt x).natAbs = wholeMagnitude x := by
    unfold toInt
    split <;> omega
  have hneg : toInt x < 0 ↔ (isNegative x && wholeMagnitude x != 0) = true := by
    rw [Bool.and_eq_true, bne_iff_ne]
    unfold toInt
    split <;> simp_all
    omega
  rw [integerText, String.toList_ofList, habs, sign]
  simp only [hneg]

/-- A whole double is written as a plain integer that reads back, but for the sign of a zero. -/
theorem number?_rendered {x : Number} (hx : showsAsInteger x = true) :
    isPlainInteger (rendered x).toList = true ∧
    Literal.number? (rendered x).toList = some (if isZero x then zero false else x) := by
  obtain ⟨hunits, hfinite, hsmall⟩ := units_eq_of_showsAsInteger hx
  have hdigits := plainDigits_toDigits hsmall
  rw [rendered, if_pos hx, integerText_toInt]
  refine ⟨isPlainInteger_sign hdigits _, ?_⟩
  rw [literal_number?_plain hdigits, Nat.ofDigitChars_ten_toDigits, nearest_wholeMagnitude hx]
  by_cases hzero : wholeMagnitude x = 0
  · have hiszero : isZero x = true := by rw [isZero_iff hfinite, hunits, hzero, Nat.zero_mul]
    rw [if_pos hiszero, hzero, beq_iff_eq.1 hiszero]
    simp [zero]
  · have hnotzero : isZero x ≠ true := by
      rw [ne_eq, isZero_iff hfinite, hunits]
      exact Nat.mul_ne_zero hzero (Nat.ne_of_gt one_pos)
    rw [if_neg hnotzero, bne_iff_ne.2 hzero, Bool.and_true, ofMagnitudeBits_self]

end Number

end Sluice
