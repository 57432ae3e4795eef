/-
  Sluice.Proofs.Number.Nearest

  Rounding, stated without its algorithm. A finite double is an integer number of units, sign
  included, and finite doubles are ordered as these integers (`lt_iff_signedUnits_lt`).

  The algorithm divides by a power of two and rounds the quotient. Its result is nearest among
  the multiples of that power (`divRoundEven_nearest`); a double that is none of them lies below
  the least number that needs the power (`units_grid`), hence farther away.

  Main statement: a number of units that does not overflow is rounded to the finite double nearest
  to it, and of two that are equally near to the one with the even significand
  (`isNearest_ofUnits`).
-/

import Sluice.Number.Whole
import Sluice.Proofs.Number.Addition
import Sluice.Proofs.Number.Order

namespace Sluice.Number

variable {x y : Number}

-- ============================================================================
-- Order
-- ============================================================================

/-- The bits of a magnitude are its exponent beside its significand, which has 53 bits unless the
magnitude is below the normal range. -/
theorem magnitudeBits_eq (x : Number) :
    magnitudeBits x = exponent x * 2 ^ 52 + significand x ∧ significand x < 2 ^ 53 ∧
      (exponent x = 0 ∨ 2 ^ 52 ≤ significand x) := by
  simp only [significand, exponent, Nat.pow_eq]
  split <;> omega

/-- A smaller exponent makes a magnitude below all normal ones of an exponent. -/
theorem units_lt_of_exponent_lt {d : Nat} (h : exponent x < d) : units x < 2 ^ 52 * 2 ^ d := by
  obtain ⟨-, hlt, -⟩ := magnitudeBits_eq x
  simp only [units, Nat.pow_eq]
  calc significand x * 2 ^ exponent x
      < 2 ^ 53 * 2 ^ exponent x := Nat.mul_lt_mul_of_pos_right hlt (Nat.two_pow_pos _)
    _ = 2 ^ 52 * 2 ^ (exponent x + 1) := by rw [← Nat.pow_add, ← Nat.pow_add]; congr 1; omega
    _ ≤ 2 ^ 52 * 2 ^ d := Nat.mul_le_mul_left _ (Nat.pow_le_pow_right (by decide) h)

/-- Units grow with the bits. -/
theorem units_lt_units (h : magnitudeBits x < magnitudeBits y) : units x < units y := by
  obtain ⟨hx, hxlt, hxnormal⟩ := magnitudeBits_eq x
  obtain ⟨hy, hylt, hynormal⟩ := magnitudeBits_eq y
  rcases Nat.lt_trichotomy (exponent x) (exponent y) with hexp | hexp | hexp
  · have hnormal : 2 ^ 52 ≤ significand y := hynormal.resolve_left (by omega)
    exact Nat.lt_of_lt_of_le (units_lt_of_exponent_lt hexp) (Nat.mul_le_mul_right _ hnormal)
  · rw [units, units, hexp]
    exact Nat.mul_lt_mul_of_pos_right (by omega) (Nat.two_pow_pos _)
  · omega

theorem units_eq_of_magnitudeBits_eq (h : magnitudeBits x = magnitudeBits y) :
    units x = units y := by
  simp only [units, significand, exponent, h]

theorem units_lt_units_iff : units x < units y ↔ magnitudeBits x < magnitudeBits y := by
  refine ⟨fun h => ?_, units_lt_units⟩
  apply Nat.lt_of_not_le
  intro hle
  rcases Nat.eq_or_lt_of_le hle with heq | hlt
  · exact Nat.ne_of_lt h (units_eq_of_magnitudeBits_eq heq.symm)
  · exact Nat.lt_asymm h (units_lt_units hlt)

/-- Finite doubles are ordered as the numbers they denote. -/
theorem lt_iff_signedUnits_lt (hx : isFinite x = true) (hy : isFinite y = true) :
    lt x y = true ↔ signedUnits x < signedUnits y := by
  have hlt : units x < units y ↔ magnitudeBits x < magnitudeBits y := units_lt_units_iff
  have hgt : units y < units x ↔ magnitudeBits y < magnitudeBits x := units_lt_units_iff
  have hxzero : magnitudeBits x = 0 ↔ units x = 0 := by rw [← isZero_iff hx, isZero, beq_iff_eq]
  have hyzero : magnitudeBits y = 0 ↔ units y = 0 := by rw [← isZero_iff hy, isZero, beq_iff_eq]
  rw [lt, compare?_of_not_nan (not_nan_of_isFinite hx) (not_nan_of_isFinite hy), beq_iff_eq,
    Option.some_inj, Int.compare_eq_lt]
  unfold numericKey signedUnits
  split <;> split <;> omega

-- ============================================================================
-- Quotients
-- ============================================================================

/-- Multiples of a number keep their distance. -/
theorem mul_side (k a f : Nat) :
    k = a ∨ k = a + 1 ∨ k * f + f ≤ a * f ∨ a * f + 2 * f ≤ k * f := by
  by_cases hbelow : k < a
  · have hle := Nat.mul_le_mul_right f hbelow
    rw [Nat.succ_mul] at hle
    exact .inr (.inr (.inl hle))
  · by_cases habove : a + 1 < k
    · have hle := Nat.mul_le_mul_right f habove
      rw [Nat.succ_mul, Nat.succ_mul] at hle
      exact .inr (.inr (.inr (by omega)))
    · omega

/-- No multiple is nearer than the rounded quotient's, and another one that is as near shows that
the quotient is even. -/
theorem divRoundEven_nearest {f : Nat} (hf : 0 < f) (m k : Nat) :
    ((divRoundEven m f * f : Nat) - (m : Int)).natAbs ≤ ((k * f : Nat) - (m : Int)).natAbs ∧
      (((k * f : Nat) - (m : Int)).natAbs = ((divRoundEven m f * f : Nat) - (m : Int)).natAbs →
        k = divRoundEven m f ∨ divRoundEven m f % 2 = 0) := by
  have hm : m / f * f + m % f = m := Nat.div_add_mod' m f
  have hr : m % f < f := Nat.mod_lt m hf
  have hsucc : (m / f + 1) * f = m / f * f + f := Nat.succ_mul _ _
  have hround : divRoundEven m f = m / f ∧ 2 * (m % f) < f ∨
      divRoundEven m f = m / f + 1 ∧ f < 2 * (m % f) ∨
      2 * (m % f) = f ∧ divRoundEven m f % 2 = 0 ∧
        (divRoundEven m f = m / f ∨ divRoundEven m f = m / f + 1) := by
    simp only [divRoundEven]
    split
    · omega
    · split <;> omega
  generalize divRoundEven m f = q at *
  generalize m % f = r at *
  rcases mul_side k (m / f) f with rfl | rfl | hside | hside <;>
    rcases hround with ⟨rfl, _⟩ | ⟨rfl, _⟩ | ⟨_, _, rfl | rfl⟩ <;> omega

-- ============================================================================
-- Nearest doubles
-- ============================================================================

/-- How far a finite double lies from a number of units. -/
def distance (x : Number) (m : Nat) : Nat :=
  (signedUnits x - m).natAbs

/-- A finite double that is nearest to a number of units; if another one is as near, its
significand is even. -/
structure IsNearest (x : Number) (m : Nat) : Prop where
  finite : isFinite x = true
  least : ∀ y, isFinite y = true → distance x m ≤ distance y m
  even : ∀ y, isFinite y = true → distance y m = distance x m → y = x ∨ significand x % 2 = 0

/-- Bits that hold a significand above its exponent, of which a full one is carried. -/
theorem units_ofMagnitudeBits {d q : Nat} (hq : q ≤ 2 ^ 53) (hnormal : d = 0 ∨ 2 ^ 52 ≤ q)
    (hbits : d * 2 ^ 52 + q < 2 ^ 63) (negative : Bool) :
    units (ofMagnitudeBits negative (d * 2 ^ 52 + q)) = q * 2 ^ d ∧
      significand (ofMagnitudeBits negative (d * 2 ^ 52 + q)) % 2 = q % 2 := by
  simp only [units, significand, exponent, magnitudeBits_ofMagnitudeBits negative hbits,
    Nat.pow_eq]
  rcases Nat.lt_or_ge q (2 ^ 52) with hsub | hnormal'
  · obtain rfl : d = 0 := hnormal.resolve_right (by omega)
    rw [if_pos (by omega), Nat.zero_mul, Nat.zero_add, Nat.div_eq_of_lt hsub]
    exact ⟨rfl, rfl⟩
  · rw [if_neg (by omega)]
    rcases Nat.lt_or_eq_of_le hq with hlt | rfl
    · have hsig : (d * 2 ^ 52 + q) % 2 ^ 52 + 2 ^ 52 = q := by omega
      have hexp : (d * 2 ^ 52 + q) / 2 ^ 52 - 1 = d := by omega
      rw [hsig, hexp]
      exact ⟨rfl, rfl⟩
    · have hsig : (d * 2 ^ 52 + 2 ^ 53) % 2 ^ 52 + 2 ^ 52 = 2 ^ 52 := by omega
      have hexp : (d * 2 ^ 52 + 2 ^ 53) / 2 ^ 52 - 1 = d + 1 := by omega
      rw [hsig, hexp, ← Nat.pow_add, ← Nat.pow_add]
      exact ⟨congrArg _ (by omega), rfl⟩

/-- A double that is no multiple of a power of two lies below all normal ones that are. -/
theorem units_grid (x : Number) (d : Nat) :
    units x < 2 ^ 52 * 2 ^ d ∨ ∃ k, units x = k * 2 ^ d := by
  rcases Nat.lt_or_ge (exponent x) d with hexp | hexp
  · exact .inl (units_lt_of_exponent_lt hexp)
  · refine .inr ⟨significand x * 2 ^ (exponent x - d), ?_⟩
    rw [Nat.mul_assoc, ← Nat.pow_add, Nat.sub_add_cancel hexp]
    rfl

/-- A finite double is its sign and its units. -/
theorem eq_of_units_eq (hx : isFinite x = true) (hy : isFinite y = true)
    (hsign : isNegative x = isNegative y) (hunits : units x = units y) : x = y := by
  rw [← ofMagnitudeBits_self x, ← ofMagnitudeBits_self y, hsign, ← nearestBits_units hx,
    ← nearestBits_units hy, hunits]

/-- Nothing is doubled below 2^53 units, and a normal number is left of more of them. -/
theorem doublings_eq_zero_or (m : Nat) :
    m.log2 + 1 - 53 = 0 ∨ 2 ^ 52 * 2 ^ (m.log2 + 1 - 53) ≤ m := by
  refine (Nat.eq_zero_or_pos _).imp_right fun hpos => ?_
  have hm : m ≠ 0 := by
    rintro rfl
    exact absurd hpos (by decide)
  rw [← Nat.pow_add, show 52 + (m.log2 + 1 - 53) = m.log2 by omega]
  exact Nat.log2_self_le hm

/-- A number of units that does not overflow is divided by a power of two; the rounded quotient
is the significand of the result, unless it is carried. -/
theorem ofUnits_spec {m k : Nat} (hk : k ≤ 2097) (hm : m < 2 ^ k) :
    isFinite (ofUnits false m) = true ∧ isNegative (ofUnits false m) = false ∧
      ∃ d, (d = 0 ∨ 2 ^ 52 * 2 ^ d ≤ m) ∧
        units (ofUnits false m) = divRoundEven m (2 ^ d) * 2 ^ d ∧
        significand (ofUnits false m) % 2 = divRoundEven m (2 ^ d) % 2 := by
  have hlt := nearestBits_lt_two_pow m 1
  have hfinite := nearestBits_lt_infinityBits hk hm
  have hbits : nearestBits m 1 = (m.log2 + 1 - 53) * 2 ^ 52 +
      divRoundEven m (2 ^ (m.log2 + 1 - 53)) := by
    simp only [nearestBits, Nat.div_one, Nat.one_mul, Nat.pow_eq] at hfinite ⊢
    exact if_pos (by split at hfinite <;> omega)
  have hfits := div_doublings_lt m
  have hlarge := doublings_eq_zero_or m
  generalize m.log2 + 1 - 53 = d at hbits hfits hlarge
  have hnormal : d = 0 ∨ 2 ^ 52 ≤ divRoundEven m (2 ^ d) :=
    hlarge.imp_right fun hle => Nat.le_trans ((Nat.le_div_iff_mul_le (Nat.two_pow_pos d)).2 hle)
      (le_divRoundEven m (2 ^ d))
  obtain ⟨hunits, hparity⟩ :=
    units_ofMagnitudeBits (divRoundEven_le hfits) hnormal (hbits ▸ hlt) false
  rw [← hbits] at hunits hparity
  refine ⟨?_, isNegative_ofMagnitudeBits false hlt, d, hlarge, hunits, hparity⟩
  rw [isFinite, ofUnits, nearest, magnitudeBits_ofMagnitudeBits false hlt]
  exact decide_eq_true hfinite

theorem signedUnits_of_nonnegative (h : isNegative x = false) : signedUnits x = units x := by
  rw [signedUnits, h]
  rfl

/-- A number of units that does not overflow is rounded to the double nearest to it. -/
theorem isNearest_ofUnits {m k : Nat} (hk : k ≤ 2097) (hm : m < 2 ^ k) :
    IsNearest (ofUnits false m) m := by
  obtain ⟨hfinite, hsign, d, hlarge, hunits, hparity⟩ := ofUnits_spec hk hm
  have hnearest := divRoundEven_nearest (Nat.two_pow_pos d) m
  have hnonneg := signedUnits_of_nonnegative hsign
  generalize divRoundEven m (2 ^ d) = q at *
  generalize ofUnits false m = x at *
  have hall : ∀ y, isFinite y = true → distance x m ≤ distance y m ∧
      (distance y m = distance x m → y = x ∨ significand x % 2 = 0) := by
    intro y hy
    rw [distance, distance, hnonneg, hunits, hparity]
    cases hneg : isNegative y with
    | true =>
      -- Zero is at least as near as a negative double.
      obtain ⟨hle, htie⟩ := hnearest 0
      rw [signedUnits, if_pos hneg]
      rw [Nat.zero_mul] at hle htie
      exact ⟨by omega, fun heq => .inr (by omega)⟩
    | false =>
      rw [signedUnits_of_nonnegative hneg]
      have hgrid : (units y < 2 ^ 52 * 2 ^ d ∧ 2 ^ 52 * 2 ^ d ≤ m) ∨ ∃ k, units y = k * 2 ^ d := by
        rcases hlarge with rfl | hlarge
        · exact .inr ⟨units y, (Nat.mul_one _).symm⟩
        · exact (units_grid y d).imp_left fun hbelow => ⟨hbelow, hlarge⟩
      rcases hgrid with ⟨hbelow, hlarge⟩ | ⟨k, hmultiple⟩
      · -- The least normal multiple is nearer than what is below it.
        obtain ⟨hle, -⟩ := hnearest (2 ^ 52)
        omega
      · obtain ⟨hle, htie⟩ := hnearest k
        rw [hmultiple]
        refine ⟨hle, fun heq => (htie heq).imp_left fun hk => ?_⟩
        apply eq_of_units_eq hy hfinite (hneg.trans hsign.symm)
        rw [hmultiple, hunits, hk]
  exact ⟨hfinite, fun y hy => (hall y hy).1, fun y hy => (hall y hy).2⟩

/-- A natural number of at most 1023 bits is converted to the double nearest to it. -/
theorem isNearest_ofNat {n k : Nat} (hk : k ≤ 1023) (hn : n < 2 ^ k) :
    IsNearest (ofNat n) (n * one) :=
  isNearest_ofUnits (Nat.add_le_add_right hk 1074) (mul_one_lt_two_pow hn)

-- ============================================================================
-- Natural numbers
-- ============================================================================

/-- The finite doubles that are a natural number. -/
def Denotes (x : Number) (n : Nat) : Prop :=
  isFinite x = true ∧ signedUnits x = (n * one : Nat)

theorem Denotes.units_eq {n : Nat} (h : Denotes x n) : units x = n * one := by
  have hunits := h.2
  unfold signedUnits at hunits
  split at hunits <;> omega

/-- Only zero has a second double that denotes it. -/
theorem Denotes.eq_ofNat {n : Nat} (h : Denotes x n) (hn : 0 < n) : x = ofNat n := by
  have hpos : 0 < n * one := Nat.mul_pos hn one_pos
  have hsign : isNegative x = false := by
    cases hneg : isNegative x with
    | false => rfl
    | true =>
      have hunits := h.2
      rw [signedUnits, if_pos hneg] at hunits
      omega
  rw [ofNat, nearest, ← h.units_eq, nearestBits_units h.1, ← hsign, ofMagnitudeBits_self]

theorem two_pow_dvd_one {d : Nat} (hd : d ≤ 1074) : 2 ^ d ∣ one := by
  unfold one
  generalize 1074 = e at hd
  exact Nat.pow_dvd_pow 2 hd

/-- A natural number of at most 53 bits is converted without rounding. -/
theorem denotes_ofNat {n : Nat} (hn : n < 2 ^ 53) : Denotes (ofNat n) n := by
  have hofNat : ofNat n = ofUnits false (n * one) := rfl
  have hlt := mul_one_lt_two_pow hn
  obtain ⟨hfinite, hsign, d, hlarge, hunits, -⟩ :=
    ofUnits_spec (by decide : 53 + 1074 ≤ 2097) hlt
  rw [← hofNat] at hfinite hsign hunits
  have hbound : ∀ e, 2 ^ 52 * 2 ^ d < 2 ^ (53 + e) → d ≤ e := by
    intro e hpow
    rw [← Nat.pow_add, Nat.pow_lt_pow_iff_right (by decide)] at hpow
    omega
  have hd : d ≤ 1074 := by
    rcases hlarge with rfl | hlarge
    · exact Nat.zero_le 1074
    · exact hbound 1074 (Nat.lt_of_le_of_lt hlarge hlt)
  -- So the power that divides the number of units divides one, and nothing is left over.
  obtain ⟨q, hq⟩ := Nat.dvd_mul_left_of_dvd (two_pow_dvd_one hd) n
  rw [hq, Nat.mul_comm (2 ^ d) q, divRoundEven_mul q (Nat.two_pow_pos d), Nat.mul_comm q, ← hq]
    at hunits
  exact ⟨hfinite, by rw [signedUnits_of_nonnegative hsign, hunits]⟩

end Sluice.Number
