/-
  Sluice.Proofs.Operator.Divisors

  The operators `gcd` and `lcm` of the library `math`. They read the natural numbers up to 2^64,
  and of these 2^64 itself is the only one that a 64-bit word does not hold
  (`wholeNumber_eq_ok_iff`).

  Main statement: on two numbers of which neither is 2^64, the divisor is always the nearest double,
  and the multiple is so if and only if it fits a word (`divisors_nearest`). A build that wraps its
  products gives no nearest double beyond: the word it is left with and the multiple itself lie on
  either side of 2^64, and are far apart (`not_isNearest_wrapped`).
-/

import Sluice.Proofs.Number.Nearest
import Sluice.Proofs.Operator.Halting
import Sluice.Proofs.Value.Numeric

namespace Sluice

-- ============================================================================
-- Words
-- ============================================================================

namespace Number

variable {x : Number} {n : Nat}

theorem denotes_zero : (0.0 : Number).Denotes 0 :=
  ⟨by decide +kernel, by decide +kernel⟩

theorem denotes_two_pow_64 : (ofNat (2 ^ 64)).Denotes (2 ^ 64) :=
  ⟨by decide +kernel, by decide +kernel⟩

theorem le_maxWord_iff : n ≤ maxWord ↔ n < 2 ^ 64 := by
  simp only [maxWord, Nat.pow_eq]
  omega

/-- The whole doubles between two bounds are natural numbers. -/
theorem exists_denotes_iff (hx : isFinite x = true) :
    (∃ a, a ≤ n ∧ x.Denotes a) ↔
      hasFraction x = false ∧ 0 ≤ signedUnits x ∧ signedUnits x ≤ (n * one : Nat) := by
  rw [hasFraction, bne_eq_false_iff_eq]
  constructor
  · rintro ⟨a, ha, h⟩
    have hle : a * one ≤ n * one := Nat.mul_le_mul_right one ha
    rw [h.units_eq, h.2]
    exact ⟨Nat.mul_mod_left a one, Int.natCast_nonneg _, Int.ofNat_le.2 hle⟩
  · rintro ⟨hwhole, hnonneg, hle⟩
    have hunits : signedUnits x = units x := by
      unfold signedUnits at hnonneg ⊢
      split at hnonneg
      · next hneg =>
        rw [if_pos hneg]
        omega
      · next hneg => exact if_neg hneg
    have hdiv : units x / one * one = units x := Nat.div_mul_cancel (Nat.dvd_of_mod_eq_zero hwhole)
    refine ⟨units x / one, Nat.le_of_mul_le_mul_right ?_ one_pos, hx, ?_⟩
    · omega
    · rw [hdiv, hunits]

/-- A natural number is cut to a word. -/
theorem Denotes.toNatUpTo_eq (h : x.Denotes n) (limit : Nat) :
    toNatUpTo limit x = min n limit := by
  have hmagnitude : wholeMagnitude x = n := by
    rw [wholeMagnitude, h.units_eq, Nat.mul_div_cancel _ one_pos]
  have hsign : isNegative x = true → n = 0 := by
    intro hneg
    have hunits := h.2
    have hle : n * 1 ≤ n * one := Nat.mul_le_mul_left n one_pos
    rw [signedUnits, if_pos hneg] at hunits
    omega
  rw [toNatUpTo, not_nan_of_isFinite h.1, h.1, hmagnitude, Bool.false_or]
  split
  · next hneg => rw [hsign hneg, Nat.zero_min]
  · rfl

end Number

open Number (Denotes IsNearest)

variable {x y : Number} {input arg : Value} {m n : Nat}

/-- Anything is refused but the natural numbers up to 2^64. -/
theorem refuses_iff :
    (Number.lt x 0.0 || !Number.isWhole x || Number.lt (Number.ofNat (2 ^ 64)) x) = true ↔
      ¬ ∃ a, a ≤ 2 ^ 64 ∧ x.Denotes a := by
  by_cases hx : Number.isFinite x = true
  · have hlow := Number.lt_iff_signedUnits_lt hx Number.denotes_zero.1
    have hhigh := Number.lt_iff_signedUnits_lt Number.denotes_two_pow_64.1 hx
    rw [Number.denotes_zero.2, Nat.zero_mul] at hlow
    rw [Number.denotes_two_pow_64.2] at hhigh
    rw [Number.exists_denotes_iff hx, Bool.or_eq_true, Bool.or_eq_true, hlow, hhigh, Number.isWhole,
      hx, Bool.true_and, Bool.not_not]
    cases Number.hasFraction x with
    | false =>
      simp only [Bool.false_eq_true, or_false, true_and]
      omega
    | true => simp only [or_true, true_or, Bool.true_eq_false, false_and, not_false_eq_true]
  · constructor
    · rintro - ⟨a, -, ha⟩
      exact hx ha.1
    · intro _
      simp [Number.isWhole, hx]

/-- What counts as a whole number: the natural numbers up to 2^64, of which the last one is
replaced by the one before it. -/
theorem wholeNumber_eq_ok_iff :
    wholeNumber x = .ok n ↔ ∃ a, a ≤ 2 ^ 64 ∧ x.Denotes a ∧ n = min a Number.maxWord := by
  have hrefuses := refuses_iff (x := x)
  rw [wholeNumber, Nat.pow_eq]
  constructor
  · intro hok
    split at hok
    · cases hok
    · next h =>
      obtain ⟨a, ha, hx⟩ := not_not.1 (mt hrefuses.2 h)
      rw [hx.toNatUpTo_eq] at hok
      exact ⟨a, ha, hx, (Except.ok.inj hok).symm⟩
  · rintro ⟨a, ha, hx, rfl⟩
    rw [if_neg fun h => hrefuses.1 h ⟨a, ha, hx⟩, hx.toNatUpTo_eq]

/-- A whole number other than 2^64 is converted to a word as it is. -/
theorem denotes_of_wholeNumber (h : wholeNumber x = .ok n) (hx : x ≠ Number.ofNat (2 ^ 64)) :
    x.Denotes n ∧ n < 2 ^ 64 := by
  obtain ⟨a, ha, hdenotes, rfl⟩ := wholeNumber_eq_ok_iff.1 h
  have hne : a ≠ 2 ^ 64 := by
    rintro rfl
    exact hx (hdenotes.eq_ofNat (by decide))
  have hlt : a < 2 ^ 64 := by omega
  rw [Nat.min_eq_left (Number.le_maxWord_iff.2 hlt)]
  exact ⟨hdenotes, hlt⟩

-- ============================================================================
-- Multiples beyond a word
-- ============================================================================

namespace Number

/-- A word stands for the double next to it, and not for a number of more than 64 bits with the
same low bits. -/
theorem not_isNearest_wrapped {n : Nat} (hn : 2 ^ 64 ≤ n) :
    ¬ IsNearest (ofNat (n % 2 ^ 64)) (n * one) := by
  intro hfar
  have hnear : IsNearest (ofNat (n % 2 ^ 64)) (n % 2 ^ 64 * one) :=
    isNearest_ofNat (by decide : 64 ≤ 1023) (Nat.mod_lt n (by decide))
  -- 2^64 lies between the word and the number, so the double could only be that power itself.
  obtain ⟨hfinite, hpower⟩ := denotes_two_pow_64
  have hfar₁ := hfar.least _ hfinite
  have hnear₁ := hnear.least _ hfinite
  -- Then the word is at least 2^64 - 1024, hence the number nearer to 2^65.
  have hbelow : (ofNat (2 ^ 64 - 2048)).Denotes (2 ^ 64 - 2048) :=
    ⟨by decide +kernel, by decide +kernel⟩
  have habove : (ofNat (2 ^ 65)).Denotes (2 ^ 65) := ⟨by decide +kernel, by decide +kernel⟩
  have hnear₂ := hnear.least _ hbelow.1
  have hfar₂ := hfar.least _ habove.1
  have hword : n % 2 ^ 64 * one + one ≤ 2 ^ 64 * one := by
    rw [← Nat.succ_mul]
    exact Nat.mul_le_mul_right one (Nat.mod_lt n (by decide))
  have hsplit : n * one = 2 ^ 64 * (n / 2 ^ 64 * one) + n % 2 ^ 64 * one := by
    rw [← Nat.mul_assoc, ← Nat.add_mul, Nat.div_add_mod]
  have hquotient : one ≤ n / 2 ^ 64 * one :=
    Nat.le_mul_of_pos_left one (Nat.div_pos hn (by decide))
  simp only [distance, hpower, hbelow.2, habove.2] at hfar₁ hnear₁ hnear₂ hfar₂
  generalize signedUnits (ofNat (n % 2 ^ 64)) = u at *
  have hone := one_pos
  generalize one = c at *
  have hu : u = (2 ^ 64 * c : Nat) := by omega
  have hw : 2 ^ 64 * c ≤ n % 2 ^ 64 * c + 1024 * c := by omega
  omega

end Number

-- ============================================================================
-- Divisors and multiples
-- ============================================================================

namespace Math

theorem wholePair_eq (hinput : input.numeric? = some x) (harg : arg.numeric? = some y)
    (hm : wholeNumber x = .ok m) (hn : wholeNumber y = .ok n) :
    wholePair input [arg] = .ok (m, n) := by
  have hx : input.expectNumber = .ok x := Value.expectNumber_eq_ok_iff.2 hinput
  have hy : Arguments.number [arg] 0 = .ok y := Value.expectNumber_eq_ok_iff.2 harg
  rw [wholePair, hx, hy]
  show (wholeNumber x >>= fun a => wholeNumber y >>= fun b => pure (a, b)) = _
  rw [hm, hn]
  rfl

theorem gcd_eq (hpair : wholePair input [arg] = .ok (m, n)) :
    gcd input [arg] = .ok (.number (Number.ofNat (Nat.gcd m n))) := by
  rw [gcd, hpair]
  show (Word.gcd m n >>= fun d => .ok (Value.number (Number.ofNat d))) = _
  rw [Word.gcd_eq]
  rfl

/-- A multiple that is a word is converted to a double; of any other one a build that wraps converts
the low bits. -/
theorem lcm_eq_ok_iff {overflow : Overflow} {l : Number}
    (hpair : wholePair input [arg] = .ok (m, n)) :
    lcm overflow input [arg] = .ok (.number l) ↔
      if Nat.lcm m n < 2 ^ 64 then l = Number.ofNat (Nat.lcm m n)
      else overflow = .wrapping ∧ l = Number.ofNat (Nat.lcm m n % 2 ^ 64) := by
  have hok : ∀ k : Nat, (.ok (.number (Number.ofNat k)) : Attempt Value) = .ok (.number l) ↔
      l = Number.ofNat k := by
    intro k
    rw [Except.ok.injEq, Value.number.injEq, eq_comm]
  rw [lcm, hpair]
  show (if m = 0 ∨ n = 0 then .ok (Value.number 0.0)
    else Word.lcm overflow m n >>= fun k => .ok (Value.number (Number.ofNat k))) = _ ↔ _
  by_cases hzero : m = 0 ∨ n = 0
  · have hlcm : Nat.lcm m n = 0 := Nat.lcm_eq_zero_iff.2 hzero
    have hofNat : 0.0 = Number.ofNat 0 := by decide +kernel
    rw [if_pos hzero, hlcm, if_pos (by decide), hofNat]
    exact hok 0
  · obtain ⟨hlcm, hproduct⟩ := Word.lcm_eq_product overflow hzero
    rw [if_neg hzero, hlcm]
    simp only [Word.product, hproduct, Number.le_maxWord_iff]
    by_cases hword : Nat.lcm m n < 2 ^ 64
    · rw [if_pos hword, if_pos hword]
      exact hok _
    · rw [if_neg hword, if_neg hword]
      cases overflow with
      | checked => simp [bind, Except.bind]
      | wrapping => exact (hok _).trans ⟨fun hl => ⟨rfl, hl⟩, And.right⟩

/-- The divisor of two words is a word. -/
theorem gcd_nearest (hpair : wholePair input [arg] = .ok (m, n)) (hm : m < 2 ^ 64)
    (hn : n < 2 ^ 64) :
    ∃ d, gcd input [arg] = .ok (.number d) ∧ d.IsNearest (Nat.gcd m n * Number.one) := by
  have hgcd : Nat.gcd m n < 2 ^ 64 := by
    rcases Nat.eq_zero_or_pos n with rfl | hpos
    · rwa [Nat.gcd_zero_right]
    · exact Nat.lt_of_le_of_lt (Nat.gcd_le_right m hpos) hn
  exact ⟨_, gcd_eq hpair, Number.isNearest_ofNat (by decide : 64 ≤ 1023) hgcd⟩

/-- The multiple is exact if and only if it is a word. -/
theorem lcm_nearest_iff {overflow : Overflow} (hpair : wholePair input [arg] = .ok (m, n)) :
    (∃ l, lcm overflow input [arg] = .ok (.number l) ∧
      l.IsNearest (Nat.lcm m n * Number.one)) ↔ Nat.lcm m n < 2 ^ 64 := by
  simp only [lcm_eq_ok_iff hpair]
  constructor
  · rintro ⟨l, hl, hnearest⟩
    by_contra hbeyond
    rw [if_neg hbeyond] at hl
    rw [hl.2] at hnearest
    exact Number.not_isNearest_wrapped (Nat.le_of_not_lt hbeyond) hnearest
  · intro hword
    refine ⟨Number.ofNat (Nat.lcm m n), ?_, Number.isNearest_ofNat (by decide : 64 ≤ 1023) hword⟩
    rw [if_pos hword]

/-- Two whole numbers other than 2^64 are read as they are; their divisor is exact, and their
multiple is so if and only if it fits a word. -/
theorem divisors_nearest (hinput : input.numeric? = some x) (harg : arg.numeric? = some y)
    (hm : wholeNumber x = .ok m) (hn : wholeNumber y = .ok n) (hx : x ≠ Number.ofNat (2 ^ 64))
    (hy : y ≠ Number.ofNat (2 ^ 64)) :
    (x.Denotes m ∧ y.Denotes n) ∧
      (∃ d, gcd input [arg] = .ok (.number d) ∧ d.IsNearest (Nat.gcd m n * Number.one)) ∧
        ∀ overflow, (∃ l, lcm overflow input [arg] = .ok (.number l) ∧
          l.IsNearest (Nat.lcm m n * Number.one)) ↔ Nat.lcm m n < 2 ^ 64 := by
  have hpair := wholePair_eq hinput harg hm hn
  obtain ⟨hxm, hmword⟩ := denotes_of_wholeNumber hm hx
  obtain ⟨hyn, hnword⟩ := denotes_of_wholeNumber hn hy
  exact ⟨⟨hxm, hyn⟩, gcd_nearest hpair hmword hnword, fun overflow => lcm_nearest_iff hpair⟩

/-- The largest double below 2^64, with one of its divisors. -/
theorem divisors_nearest_largest :
    (∃ d, gcd (.number (.ofNat (2 ^ 64 - 2048))) [.number (.ofNat 2048)] = .ok (.number d) ∧
      d.IsNearest (2048 * Number.one)) ∧
    ∀ overflow, ∃ l,
      lcm overflow (.number (.ofNat (2 ^ 64 - 2048))) [.number (.ofNat 2048)] = .ok (.number l) ∧
        l.IsNearest ((2 ^ 64 - 2048) * Number.one) := by
  have hinput : (Value.number (.ofNat (2 ^ 64 - 2048))).numeric? = some (.ofNat (2 ^ 64 - 2048)) :=
    rfl
  have harg : (Value.number (.ofNat 2048)).numeric? = some (.ofNat 2048) := rfl
  have hm : wholeNumber (.ofNat (2 ^ 64 - 2048)) = .ok (2 ^ 64 - 2048) := by decide +kernel
  have hn : wholeNumber (.ofNat 2048) = .ok 2048 := by decide +kernel
  have hgcd : Nat.gcd (2 ^ 64 - 2048) 2048 = 2048 := by decide
  have hlcm : Nat.lcm (2 ^ 64 - 2048) 2048 = 2 ^ 64 - 2048 := by decide
  obtain ⟨-, hdivisor, hmultiple⟩ :=
    divisors_nearest hinput harg hm hn (by decide +kernel) (by decide +kernel)
  simp only [hgcd] at hdivisor
  simp only [hlcm] at hmultiple
  exact ⟨hdivisor, fun overflow => (hmultiple overflow).2 (by decide)⟩

/-- Two to the 64th is let through as the number before it, so its divisor with three is three; and
no build gives the least common multiple of 2^63 and three. -/
theorem divisors_not_nearest :
    ((Number.ofNat (2 ^ 64)).Denotes (2 ^ 64) ∧
      wholeNumber (.ofNat (2 ^ 64)) = .ok (2 ^ 64 - 1) ∧
      gcd (.number (.ofNat (2 ^ 64))) [.number (.ofNat 3)] = .ok (.number (.ofNat 3)) ∧
      ¬ (Number.ofNat 3).IsNearest (Nat.gcd (2 ^ 64) 3 * Number.one)) ∧
    ∀ overflow, ¬ ∃ l,
      lcm overflow (.number (.ofNat (2 ^ 63))) [.number (.ofNat 3)] = .ok (.number l) ∧
        l.IsNearest (Nat.lcm (2 ^ 63) 3 * Number.one) := by
  have hpower : wholePair (.number (.ofNat (2 ^ 64))) [.number (.ofNat 3)] =
      .ok (2 ^ 64 - 1, 3) := by decide +kernel
  have hhalf : wholePair (.number (.ofNat (2 ^ 63))) [.number (.ofNat 3)] = .ok (2 ^ 63, 3) := by
    decide +kernel
  have hthree : Nat.gcd (2 ^ 64 - 1) 3 = 3 := by decide
  refine ⟨⟨Number.denotes_two_pow_64, by decide +kernel, ?_, fun h => ?_⟩, fun overflow => ?_⟩
  · rw [gcd_eq hpower, hthree]
  · -- One is nearer to one.
    exact absurd (h.least (.ofNat 1) (by decide +kernel)) (by decide +kernel)
  · rw [lcm_nearest_iff hhalf]
    decide

end Math

end Sluice
