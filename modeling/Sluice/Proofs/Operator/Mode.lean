/-
  Sluice.Proofs.Operator.Mode

  The most frequent number of an array. The search reads the sorted numbers once and keeps two
  runs: the longest so far, and the one being read. Equal numbers stand side by side, so the length
  of the run being read is how often its number has occurred (`Runs.Of`), and since only a longer
  run replaces the longest, the least of several frequent numbers stays.

  Main statement: the mode of a non-empty array of numbers, none of which is NaN, is one of them
  that occurs as often as any other, and oftener than any smaller one.
-/

import Mathlib.Data.List.Basic
import Sluice.Operator.Analytics
import Sluice.Proofs.Number.Order

namespace Sluice.Analytics

open Number

-- ============================================================================
-- Occurrences
-- ============================================================================

/-- How many of the numbers are equal to one. -/
def occurrences (x : Number) (xs : List Number) : Nat :=
  xs.countP (Number.eq x)

/-- A number is the smallest of the most frequent ones. -/
structure IsMode (m : Number) (xs : List Number) : Prop where
  mem : m ∈ xs
  most : ∀ x ∈ xs, occurrences x xs ≤ occurrences m xs
  least : ∀ x ∈ xs, Number.lt x m = true → occurrences x xs < occurrences m xs

variable {x y m : Number} {xs ys : List Number} {runs : Runs}

theorem occurrences_append_eq (h : Number.eq y x = true) :
    occurrences y (xs ++ [x]) = occurrences y xs + 1 := by
  simp [occurrences, h]

theorem occurrences_append_ne (h : ¬ Number.eq y x = true) :
    occurrences y (xs ++ [x]) = occurrences y xs := by
  simp [occurrences, h]

/-- Equal numbers occur equally often. -/
theorem occurrences_congr (hx : isNaN x = false) (hy : isNaN y = false)
    (hkeys : numericKey x = numericKey y) : occurrences x xs = occurrences y xs := by
  have heq : Number.eq x = Number.eq y := by
    funext z
    simp only [Number.eq, compare?, hx, hy, hkeys]
  rw [occurrences, occurrences, heq]

/-- A number that is none of them does not occur. -/
theorem occurrences_eq_zero (h : ∀ y ∈ xs, ¬ Number.eq x y = true) : occurrences x xs = 0 :=
  List.countP_eq_zero.2 h

theorem occurrences_perm (h : xs.Perm ys) : occurrences x xs = occurrences x ys :=
  h.countP_eq (Number.eq x)

/-- The order of the numbers does not matter. -/
theorem IsMode.perm (hmode : IsMode m xs) (h : xs.Perm ys) : IsMode m ys := by
  refine ⟨h.mem_iff.1 hmode.mem, fun x hx => ?_, fun x hx hlt => ?_⟩
  · rw [← occurrences_perm h, ← occurrences_perm h]
    exact hmode.most x (h.mem_iff.2 hx)
  · rw [← occurrences_perm h, ← occurrences_perm h]
    exact hmode.least x (h.mem_iff.2 hx) hlt

-- ============================================================================
-- Runs
-- ============================================================================

/-- The runs after some numbers in increasing order: the longest is that of the mode, the one being
read that of the greatest number, and each is as long as its number is frequent. -/
structure Runs.Of (xs : List Number) (runs : Runs) : Prop where
  isMode : IsMode runs.best.1 xs
  best_length : runs.best.2 = occurrences runs.best.1 xs
  mem : runs.current.1 ∈ xs
  greatest : ∀ y ∈ xs, numericKey y ≤ numericKey runs.current.1
  current_length : runs.current.2 = occurrences runs.current.1 xs

section Push

variable (h : runs.Of xs) (hnan : ∀ y ∈ xs ++ [x], isNaN y = false)
  (hx : ∀ y ∈ xs, numericKey y ≤ numericKey x)

include h hnan hx

/-- The run being read after one more number is that of this number. -/
theorem Runs.Of.push_current :
    (runs.push x).current.1 ∈ xs ++ [x] ∧
      numericKey (runs.push x).current.1 = numericKey x ∧
      (runs.push x).current.2 = occurrences x (xs ++ [x]) := by
  have hxnan : isNaN x = false := hnan x (List.mem_append_right xs (List.mem_singleton_self x))
  have hcurrent : isNaN runs.current.1 = false := hnan _ (List.mem_append_left [x] h.mem)
  have hself : Number.eq x x = true := (eq_iff_numericKey hxnan hxnan).2 rfl
  rw [occurrences_append_eq hself]
  by_cases heq : Number.eq x runs.current.1 = true
  · have hkeys := (eq_iff_numericKey hxnan hcurrent).1 heq
    rw [Runs.push, if_pos heq]
    refine ⟨List.mem_append_left [x] h.mem, hkeys.symm, ?_⟩
    rw [h.current_length, occurrences_congr hcurrent hxnan hkeys.symm]
  · -- Nothing before is above the number of the run, and that one is below the new one.
    have hnew : occurrences x xs = 0 := by
      apply occurrences_eq_zero
      intro y hy hxy
      rw [eq_iff_numericKey hxnan hcurrent] at heq
      rw [eq_iff_numericKey hxnan (hnan y (List.mem_append_left [x] hy))] at hxy
      have hycurrent := h.greatest y hy
      have hcurrentx := hx runs.current.1 h.mem
      omega
    rw [Runs.push, if_neg heq, hnew]
    exact ⟨List.mem_append_right xs (List.mem_singleton_self x), rfl, rfl⟩

/-- A number occurs as often as the run being read is long if it is the new one, and otherwise as
often as before. -/
theorem Runs.Of.occurrences_push (hy : y ∈ xs ++ [x]) :
    numericKey y = numericKey x ∧ occurrences y (xs ++ [x]) = (runs.push x).current.2 ∨
      numericKey y < numericKey x ∧ y ∈ xs ∧ occurrences y (xs ++ [x]) = occurrences y xs := by
  obtain ⟨hmem, hkey, hlength⟩ := h.push_current hnan hx
  have hxnan : isNaN x = false := hnan x (List.mem_append_right xs (List.mem_singleton_self x))
  have hynan : isNaN y = false := hnan y hy
  by_cases hkeys : numericKey y = numericKey x
  · refine .inl ⟨hkeys, ?_⟩
    rw [hlength, occurrences_congr hynan hxnan hkeys]
  · have hold : y ∈ xs := by
      rcases List.mem_append.1 hy with hold | hnew
      · exact hold
      · rw [List.mem_singleton.1 hnew] at hkeys
        exact absurd rfl hkeys
    have hle := hx y hold
    refine .inr ⟨by omega, hold, occurrences_append_ne ?_⟩
    rwa [eq_iff_numericKey hynan hxnan]

/-- A run that has become longer than the longest is that of the mode. -/
theorem Runs.Of.isMode_current (hlonger : runs.best.2 < (runs.push x).current.2) :
    IsMode (runs.push x).current.1 (xs ++ [x]) := by
  obtain ⟨hmem, hkey, -⟩ := h.push_current hnan hx
  have hlength : occurrences (runs.push x).current.1 (xs ++ [x]) = (runs.push x).current.2 := by
    rcases h.occurrences_push hnan hx hmem with ⟨-, hsame⟩ | ⟨hlt, -⟩
    · exact hsame
    · omega
  have hother : ∀ y ∈ xs, occurrences y xs < (runs.push x).current.2 := by
    intro y hy
    have hmost := h.isMode.most y hy
    rw [← h.best_length] at hmost
    omega
  refine ⟨hmem, fun y hy => ?_, fun y hy hlt => ?_⟩
  · rw [hlength]
    rcases h.occurrences_push hnan hx hy with ⟨-, hsame⟩ | ⟨-, hold, hsame⟩
    · exact Nat.le_of_eq hsame
    · exact hsame ▸ Nat.le_of_lt (hother y hold)
  · rw [lt_iff_numericKey (hnan y hy) (hnan _ hmem), hkey] at hlt
    rw [hlength]
    rcases h.occurrences_push hnan hx hy with ⟨hsame, -⟩ | ⟨-, hold, hsame⟩
    · omega
    · exact hsame ▸ hother y hold

/-- If the run being read is not longer than the longest, that one is still the run of the mode, and
its number is not the new one. -/
theorem Runs.Of.isMode_best (hshorter : ¬ runs.best.2 < (runs.push x).current.2) :
    IsMode runs.best.1 (xs ++ [x]) ∧ occurrences runs.best.1 (xs ++ [x]) = runs.best.2 := by
  have hxnan : isNaN x = false := hnan x (List.mem_append_right xs (List.mem_singleton_self x))
  have hmem : runs.best.1 ∈ xs ++ [x] := List.mem_append_left [x] h.isMode.mem
  have hkeys := hx runs.best.1 h.isMode.mem
  have hlength : occurrences runs.best.1 (xs ++ [x]) = runs.best.2 := by
    rcases h.occurrences_push hnan hx hmem with ⟨hsame, hoccurs⟩ | ⟨-, -, hoccurs⟩
    · have heq : Number.eq runs.best.1 x = true :=
        (eq_iff_numericKey (hnan _ hmem) hxnan).2 hsame
      rw [occurrences_append_eq heq, ← h.best_length] at hoccurs ⊢
      omega
    · rw [hoccurs, h.best_length]
  refine ⟨⟨hmem, fun y hy => ?_, fun y hy hlt => ?_⟩, hlength⟩
  · rw [hlength]
    rcases h.occurrences_push hnan hx hy with ⟨-, hsame⟩ | ⟨-, hold, hsame⟩
    · omega
    · have hmost := h.isMode.most y hold
      rwa [hsame, h.best_length]
  · rw [hlength]
    have hbelow := (lt_iff_numericKey (hnan y hy) (hnan _ hmem)).1 hlt
    rcases h.occurrences_push hnan hx hy with ⟨hsame, -⟩ | ⟨-, hold, hsame⟩
    · omega
    · have hleast := h.isMode.least y hold hlt
      rwa [hsame, h.best_length]

/-- One more number, at least as great as all before. -/
theorem Runs.Of.push : (runs.push x).Of (xs ++ [x]) := by
  obtain ⟨hmem, hkey, -⟩ := h.push_current hnan hx
  have hlength : (runs.push x).current.2 = occurrences (runs.push x).current.1 (xs ++ [x]) := by
    rcases h.occurrences_push hnan hx hmem with ⟨-, hsame⟩ | ⟨hlt, -⟩
    · exact hsame.symm
    · omega
  have hgreatest : ∀ y ∈ xs ++ [x], numericKey y ≤ numericKey (runs.push x).current.1 := by
    intro y hy
    rcases h.occurrences_push hnan hx hy with ⟨hsame, -⟩ | ⟨hlt, -⟩ <;> omega
  by_cases hlonger : runs.best.2 < (runs.push x).current.2
  · have hbest : (runs.push x).best = (runs.push x).current := if_pos hlonger
    refine ⟨?_, ?_, hmem, hgreatest, hlength⟩
    · rw [hbest]
      exact h.isMode_current hnan hx hlonger
    · rw [hbest, hlength]
  · have hbest : (runs.push x).best = runs.best := if_neg hlonger
    obtain ⟨hmode, hoccurs⟩ := h.isMode_best hnan hx hlonger
    refine ⟨?_, ?_, hmem, hgreatest, hlength⟩
    · rwa [hbest]
    · rw [hbest, hoccurs]

end Push

/-- Numbers in increasing order, read one after the other. -/
theorem Runs.Of.foldl (h : runs.Of xs) (hnan : ∀ y ∈ xs ++ ys, isNaN y = false)
    (hsorted : (xs ++ ys).Pairwise fun a b => numericKey a ≤ numericKey b) :
    (ys.foldl Runs.push runs).Of (xs ++ ys) := by
  induction ys generalizing xs runs with
  | nil =>
    rw [List.append_nil]
    exact h
  | cons y ys ih =>
    have hmove : xs ++ y :: ys = (xs ++ [y]) ++ ys := List.append_cons xs y ys
    rw [hmove] at hnan hsorted ⊢
    have hfirst := (List.pairwise_append.1 hsorted).1
    have hpushed : (runs.push y).Of (xs ++ [y]) := by
      apply h.push
      · intro z hz
        exact hnan z (List.mem_append_left ys hz)
      · intro z hz
        exact (List.pairwise_append.1 hfirst).2.2 z hz y (List.mem_singleton_self y)
    exact ih hpushed hnan hsorted

/-- The search starts with a run of none, which the first number makes a run of one. -/
theorem Runs.of_first (hx : isNaN x = false) : (Runs.push ⟨(x, 0), (x, 0)⟩ x).Of [x] := by
  have hself : Number.eq x x = true := (eq_iff_numericKey hx hx).2 rfl
  have honce : occurrences x [x] = 1 := by simp [occurrences, hself]
  have hfirst : Runs.push ⟨(x, 0), (x, 0)⟩ x = ⟨(x, 1), (x, 1)⟩ := by
    simp [Runs.push, hself]
  rw [hfirst]
  refine ⟨⟨List.mem_singleton_self x, ?_, ?_⟩, honce.symm, List.mem_singleton_self x, ?_,
    honce.symm⟩
  · intro y hy
    exact Nat.le_of_eq (congrArg (occurrences · [x]) (List.mem_singleton.1 hy))
  · intro y hy hlt
    rw [List.mem_singleton.1 hy, lt_iff_numericKey hx hx] at hlt
    omega
  · intro y hy
    exact Int.le_of_eq (congrArg numericKey (List.mem_singleton.1 hy))

-- ============================================================================
-- The operator
-- ============================================================================

theorem sorted_perm (xs : List Number) : (sorted xs).Perm xs :=
  List.mergeSort_perm xs _

/-- Sorted numbers do not decrease. -/
theorem sorted_pairwise (xs : List Number) :
    (sorted xs).Pairwise fun a b => numericKey a ≤ numericKey b := by
  have hpairwise : (sorted xs).Pairwise fun a b => (totalCompare a b != .gt) = true := by
    apply List.pairwise_mergeSort
    · intro a b c hab hbc
      rw [bne_iff_ne, totalCompare, Int.compare_ne_gt] at hab hbc ⊢
      omega
    · intro a b
      simp only [Bool.or_eq_true, bne_iff_ne, totalCompare, Int.compare_ne_gt]
      omega
  exact hpairwise.imp fun h => numericKey_le_of_totalCompare (bne_iff_ne.1 h)

/-- The mode of a non-empty array of numbers, none of which is NaN, is an element that occurs as
often as any other, and oftener than any smaller one. Numbers that are equal count as one, such as
zeros of either sign. -/
theorem mode_is_least_most_frequent {input : Value} {xs : List Number} (args : Arguments)
    (hxs : input.expectNumbers = .ok xs) (hne : xs ≠ [])
    (hnan : ∀ x ∈ xs, isNaN x = false) :
    ∃ m, mode input args = .ok (.number m) ∧ IsMode m xs := by
  have hsome : someNumbers input = .ok xs := by
    rw [someNumbers, hxs]
    exact if_neg (by rwa [List.isEmpty_iff])
  have hperm := sorted_perm xs
  cases hsorted : sorted xs with
  | nil =>
    rw [hsorted] at hperm
    exact absurd hperm.nil_eq.symm hne
  | cons first rest =>
    have hnan' : ∀ x ∈ [first] ++ rest, isNaN x = false := by
      intro x hx
      apply hnan
      rw [← hperm.mem_iff, hsorted]
      exact hx
    have hruns : (rest.foldl Runs.push (Runs.push ⟨(first, 0), (first, 0)⟩ first)).Of
        ([first] ++ rest) := by
      apply Runs.Of.foldl (Runs.of_first (hnan' first List.mem_cons_self)) hnan'
      have hpairwise := sorted_pairwise xs
      rwa [hsorted] at hpairwise
    refine ⟨_, ?_, (hruns.isMode).perm ?_⟩
    · rw [mode, hsome]
      show (Attempt.present (sorted xs).head? >>= _) = _
      rw [hsorted]
      rfl
    · rw [List.singleton_append, ← hsorted]
      exact hperm

/-- One occurs twice, and so do the two zeros, which are smaller. -/
theorem mode_of_zeros :
    ∃ m, mode (.array [.number 1.0, .number 0.0, .number 3.0, .text "-0", .number 1.0]) [] =
        .ok (.number m) ∧
      IsMode m [1.0, 0.0, 3.0, -0.0, 1.0] ∧ isZero m = true := by
  have hxs : (Value.array [.number 1.0, .number 0.0, .number 3.0, .text "-0",
      .number 1.0]).expectNumbers = .ok [1.0, 0.0, 3.0, -0.0, 1.0] := by decide +kernel
  obtain ⟨m, hm, hmode⟩ :=
    mode_is_least_most_frequent [] hxs (by decide +kernel) (by decide +kernel)
  refine ⟨m, hm, hmode, ?_⟩
  have hothers : ∀ x ∈ [1.0, 0.0, 3.0, -0.0, 1.0],
      Number.lt 0.0 x = true → occurrences x [1.0, 0.0, 3.0, -0.0, 1.0] ≤
        occurrences 0.0 [1.0, 0.0, 3.0, -0.0, 1.0] := by decide +kernel
  have hzeros : ∀ x ∈ [1.0, 0.0, 3.0, -0.0, 1.0],
      Number.lt 0.0 x = false → isZero x = true := by decide +kernel
  apply hzeros m hmode.mem
  rw [← Bool.not_eq_true]
  intro hlt
  have hless := hmode.least 0.0 (by decide +kernel) hlt
  have hle := hothers m hmode.mem hlt
  omega

end Sluice.Analytics
