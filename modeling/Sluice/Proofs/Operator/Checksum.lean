/-
  Sluice.Proofs.Operator.Checksum

  The checksum of the library `security`, without its loop. The loop adds up the bytes in one sum,
  and these sums in another, and reduces both after every byte. What it keeps is that both sums are
  reduced; so no addition comes near 32 bits, and each step is the step of natural numbers modulo
  65521. What a run makes of them is seen from its front: the first of `n` bytes is in the low sum
  once, and in all `n` high sums that follow.

  Main statement: the checksum is made of the two sums modulo 65521, no operation on words wraps,
  and the operator gives the double that is this number (`checksum_closed_form`).
-/

import Mathlib.Algebra.BigOperators.Fin
import Mathlib.Data.Nat.ModEq
import Mathlib.Tactic.Ring
import Sluice.Host
import Sluice.Operator.Security
import Sluice.Proofs.Number.Nearest

namespace Sluice.Security

variable {σ : Type} {sums : UInt32 × UInt32} {byte : UInt8}

-- ============================================================================
-- Sums of bytes
-- ============================================================================

/-- The sum of some bytes. -/
def byteSum (data : List UInt8) : Nat :=
  (data.map UInt8.toNat).sum

/-- The sum of some bytes, where a byte counts as often as there are bytes from it to the end. -/
def weightedSum (data : List UInt8) : Nat :=
  ∑ i : Fin data.length, (data.length - i) * data[i].toNat

theorem byteSum_cons (byte : UInt8) (data : List UInt8) :
    byteSum (byte :: data) = byte.toNat + byteSum data := by
  simp [byteSum]

theorem weightedSum_cons (byte : UInt8) (data : List UInt8) :
    weightedSum (byte :: data) = (data.length + 1) * byte.toNat + weightedSum data := by
  have hsplit := Fin.sum_univ_succ fun i : Fin (data.length + 1) =>
    (data.length + 1 - i) * ((byte :: data)[i]).toNat
  simpa [weightedSum] using hsplit

-- ============================================================================
-- Steps
-- ============================================================================

/-- Sums below the modulus. -/
structure Reduced (sums : UInt32 × UInt32) : Prop where
  low : sums.1.toNat < 65521
  high : sums.2.toNat < 65521

/-- Neither addition of a step leaves 32 bits. -/
structure StepFits (sums : UInt32 × UInt32) (byte : UInt8) : Prop where
  low : sums.1.toNat + byte.toNat < 2 ^ 32
  high : sums.2.toNat + (checksumStep sums byte).1.toNat < 2 ^ 32

theorem reduced_start : Reduced (1, 0) :=
  ⟨by decide, by decide⟩

theorem reduced_checksumStep (sums : UInt32 × UInt32) (byte : UInt8) :
    Reduced (checksumStep sums byte) := by
  constructor
  · rw [checksumStep, UInt32.toNat_mod]
    exact Nat.mod_lt _ (by decide)
  · rw [checksumStep, UInt32.toNat_mod]
    exact Nat.mod_lt _ (by decide)

theorem Reduced.foldl (h : Reduced sums) (data : List UInt8) :
    Reduced (data.foldl checksumStep sums) := by
  induction data generalizing sums with
  | nil => exact h
  | cons byte data ih => exact ih (reduced_checksumStep sums byte)

theorem Reduced.stepFits (h : Reduced sums) (byte : UInt8) : StepFits sums byte := by
  have hlow := h.low
  have hhigh := h.high
  have hbyte := byte.toNat_lt
  have hnext := (reduced_checksumStep sums byte).low
  constructor
  · omega
  · omega

/-- A step that fits is the step of natural numbers. -/
theorem StepFits.toNat_checksumStep (h : StepFits sums byte) :
    (checksumStep sums byte).1.toNat = (sums.1.toNat + byte.toNat) % 65521 ∧
      (checksumStep sums byte).2.toNat =
        (sums.2.toNat + (checksumStep sums byte).1.toNat) % 65521 := by
  constructor
  · rw [checksumStep, UInt32.toNat_mod, UInt32.toNat_add, UInt8.toNat_toUInt32,
      Nat.mod_eq_of_lt h.low]
    rfl
  · have hhigh : (checksumStep sums byte).2 =
        (sums.2 + (checksumStep sums byte).1) % checksumModulus := rfl
    rw [hhigh, UInt32.toNat_mod, UInt32.toNat_add, Nat.mod_eq_of_lt h.high]
    rfl

-- ============================================================================
-- Runs
-- ============================================================================

/-- What a run adds to the sums: the bytes to the low one, and to the high one as many low sums as
there are bytes. -/
theorem toNat_foldl_checksumStep (h : Reduced sums) (data : List UInt8) :
    (data.foldl checksumStep sums).1.toNat = (sums.1.toNat + byteSum data) % 65521 ∧
      (data.foldl checksumStep sums).2.toNat =
        (sums.2.toNat + data.length * sums.1.toNat + weightedSum data) % 65521 := by
  induction data generalizing sums with
  | nil =>
    refine ⟨(Nat.mod_eq_of_lt h.low).symm, ?_⟩
    simpa [weightedSum] using (Nat.mod_eq_of_lt h.high).symm
  | cons byte data ih =>
    obtain ⟨hlow, hhigh⟩ := (h.stepFits byte).toNat_checksumStep
    obtain ⟨hlow', hhigh'⟩ := ih (reduced_checksumStep sums byte)
    rw [List.foldl_cons, hlow', hhigh', byteSum_cons, weightedSum_cons, List.length_cons]
    have hlowMod : (checksumStep sums byte).1.toNat ≡ sums.1.toNat + byte.toNat [MOD 65521] := by
      rw [hlow]
      exact Nat.mod_modEq _ _
    have hhighMod : (checksumStep sums byte).2.toNat ≡
        sums.2.toNat + (checksumStep sums byte).1.toNat [MOD 65521] := by
      rw [hhigh]
      exact Nat.mod_modEq _ _
    generalize (checksumStep sums byte).1.toNat = a at *
    generalize (checksumStep sums byte).2.toNat = b at *
    constructor
    · calc a + byteSum data
          ≡ sums.1.toNat + byte.toNat + byteSum data [MOD 65521] := hlowMod.add_right _
        _ = sums.1.toNat + (byte.toNat + byteSum data) := Nat.add_assoc _ _ _
    · calc b + data.length * a + weightedSum data
          ≡ sums.2.toNat + a + data.length * a + weightedSum data [MOD 65521] :=
            (hhighMod.add_right _).add_right _
        _ = sums.2.toNat + (data.length + 1) * a + weightedSum data := by ring
        _ ≡ sums.2.toNat + (data.length + 1) * (sums.1.toNat + byte.toNat) +
              weightedSum data [MOD 65521] :=
            ((hlowMod.mul_left _).add_left _).add_right _
        _ = sums.2.toNat + (data.length + 1) * sums.1.toNat +
              ((data.length + 1) * byte.toNat + weightedSum data) := by ring

/-- The high sum is shifted in front of the low one without losing a bit. -/
theorem Reduced.toNat_shiftLeft_or (h : Reduced sums) :
    (sums.2 <<< 16 ||| sums.1).toNat = sums.2.toNat * 65536 + sums.1.toNat := by
  have hlow := h.low
  have hhigh := h.high
  have hshift : (sums.2 <<< 16).toNat = sums.2.toNat <<< 16 := by
    rw [UInt32.toNat_shiftLeft]
    refine Nat.mod_eq_of_lt ?_
    show sums.2.toNat <<< 16 < 2 ^ 32
    rw [Nat.shiftLeft_eq]
    omega
  rw [UInt32.toNat_or, hshift, ← Nat.shiftLeft_add_eq_or_of_lt (by omega), Nat.shiftLeft_eq]

theorem toNat_checksum (data : List UInt8) :
    (checksum data).toNat =
      (data.length + weightedSum data) % 65521 * 65536 + (1 + byteSum data) % 65521 := by
  obtain ⟨hlow, hhigh⟩ := toNat_foldl_checksumStep reduced_start data
  rw [checksum, (reduced_start.foldl data).toNat_shiftLeft_or, hlow, hhigh]
  simp

-- ============================================================================
-- The operator
-- ============================================================================

theorem invoke_checksum :
    ∃ op : Operator σ, library.operator? "checksum" = some op ∧
      ∀ input pools caller s, op.invoke pools caller input [] s =
        (.ok (.number (.ofNat (checksum (Network.bytes input.render)).toNat)), { state := s }) :=
  ⟨_, rfl, fun _ _ _ _ => rfl⟩

/-- The checksum of any bytes is made of their two sums, taken modulo 65521. The words of the loop
never overflow, nor does the shift of the high sum, and the operator gives exactly this number for
the bytes of a text. -/
theorem checksum_closed_form :
    (∀ data : List UInt8,
      (checksum data).toNat =
        (data.length + weightedSum data) % 65521 * 65536 + (1 + byteSum data) % 65521 ∧
      (∀ i : Fin data.length, StepFits ((data.take i).foldl checksumStep (1, 0)) data[i]) ∧
      (data.foldl checksumStep (1, 0)).2.toNat * 2 ^ 16 < 2 ^ 32) ∧
    ∃ op : Operator σ, library.operator? "checksum" = some op ∧
      ∀ input pools caller s, ∃ x : Number,
        op.invoke pools caller input [] s = (.ok (.number x), { state := s }) ∧
          x.Denotes (checksum (Network.bytes input.render)).toNat := by
  constructor
  · intro data
    refine ⟨toNat_checksum data, fun i => ?_, ?_⟩
    · exact (reduced_start.foldl (data.take i)).stepFits data[i]
    · have hhigh := (reduced_start.foldl data).high
      omega
  · obtain ⟨op, hop, hinvoke⟩ := invoke_checksum (σ := σ)
    refine ⟨op, hop, fun input pools caller s => ⟨_, hinvoke input pools caller s, ?_⟩⟩
    have hword := (checksum (Network.bytes input.render)).toNat_lt
    exact Number.denotes_ofNat (Nat.lt_trans hword (by decide))

end Sluice.Security
