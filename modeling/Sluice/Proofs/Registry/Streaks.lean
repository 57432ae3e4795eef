/-
  Sluice.Proofs.Registry.Streaks

  The circuit breaker on whole histories. What was told of one implementation is a list of
  outcomes, and the breaker leaves the implementation out as soon as this list holds enough
  failures in a row. What was told of others in between does not matter.

  The counter of an implementation is not the length of its last run of failures: it starts again
  where it has reached the threshold. It is the length of that run modulo the threshold, which is
  enough to see the first streak, and keeps the counter small.
-/

import Mathlib.Data.List.Infix
import Mathlib.Data.Set.Card
import Sluice.Registry.Breaker

namespace Sluice

-- ============================================================================
-- Failures in a row
-- ============================================================================

/-- The failures at the end of a list of outcomes. -/
def lastFailures (outcomes : List Bool) : Nat :=
  (outcomes.reverse.takeWhile fun success => !success).length

@[simp] theorem lastFailures_concat_success (outcomes : List Bool) :
    lastFailures (outcomes ++ [true]) = 0 := by
  simp [lastFailures]

@[simp] theorem lastFailures_concat_failure (outcomes : List Bool) :
    lastFailures (outcomes ++ [false]) = lastFailures outcomes + 1 := by
  simp [lastFailures]

/-- Some number of failures in a row. -/
def HasStreak (n : Nat) (outcomes : List Bool) : Prop :=
  List.replicate n false <:+: outcomes

instance (n : Nat) (outcomes : List Bool) : Decidable (HasStreak n outcomes) :=
  inferInstanceAs (Decidable (_ <:+: _))

theorem replicate_suffix_iff {n : Nat} {outcomes : List Bool} :
    List.replicate n false <:+ outcomes ↔ n ≤ lastFailures outcomes := by
  induction outcomes using List.reverseRecOn generalizing n with
  | nil => simp [lastFailures]
  | append_singleton before success ih =>
    cases n with
    | zero => simp
    | succ n =>
      rw [List.suffix_concat_iff, List.replicate_succ']
      cases success with
      | true => simp
      | false => simp [ih]

/-- A success completes no streak. -/
theorem hasStreak_concat_success {n : Nat} (hn : 0 < n) (outcomes : List Bool) :
    HasStreak n (outcomes ++ [true]) ↔ HasStreak n outcomes := by
  unfold HasStreak
  rw [List.infix_concat_iff, replicate_suffix_iff, lastFailures_concat_success]
  exact or_iff_right (Nat.not_le.2 hn)

/-- A failure completes a streak if a counter that starts again at the end of every streak has
come to the last place before one. -/
theorem hasStreak_concat_failure (n : Nat) (outcomes : List Bool) :
    HasStreak n (outcomes ++ [false]) ↔
      HasStreak n outcomes ∨ n ≤ lastFailures outcomes % n + 1 := by
  unfold HasStreak
  rw [List.infix_concat_iff, replicate_suffix_iff, lastFailures_concat_failure, or_comm]
  have hmod : lastFailures outcomes % n ≤ lastFailures outcomes := Nat.mod_le _ _
  constructor
  · rintro (hbefore | hlast)
    · exact .inl hbefore
    · rcases Nat.lt_or_ge (lastFailures outcomes) n with hshort | hlong
      · rw [Nat.mod_eq_of_lt hshort]
        exact .inr hlast
      · exact .inl (replicate_suffix_iff.2 hlong).isInfix
  · rintro (hbefore | hcounted)
    · exact .inl hbefore
    · exact .inr (by omega)

/-- The counter that starts again at the end of every streak. -/
theorem succ_mod_eq {n : Nat} (hn : 0 < n) (k : Nat) :
    (k + 1) % n = if n ≤ k % n + 1 then 0 else k % n + 1 := by
  have hlt : k % n < n := Nat.mod_lt k hn
  rw [← Nat.mod_add_mod]
  split
  · next hfull =>
    rw [show k % n + 1 = n by omega, Nat.mod_self]
  · next hroom => exact Nat.mod_eq_of_lt (by omega)

-- ============================================================================
-- What a breaker is told
-- ============================================================================

namespace BreakerSettings

/-- The streak that leaves an implementation out; no failure at all is no streak. -/
def streakLength (settings : BreakerSettings) : Nat :=
  max 1 settings.threshold

theorem streakLength_pos (settings : BreakerSettings) : 0 < settings.streakLength :=
  Nat.le_max_left 1 settings.threshold

/-- The outcomes of an implementation are looked at. -/
def Watches (settings : BreakerSettings) (i : Implementation) : Prop :=
  settings.enabled = true ∧ i.tier ≠ .core

instance (settings : BreakerSettings) (i : Implementation) : Decidable (settings.Watches i) :=
  inferInstanceAs (Decidable (_ ∧ _))

end BreakerSettings

/-- What is told of implementations, in order: which one was invoked, and whether it succeeded. -/
abbrev Told := List (Implementation × Bool)

namespace Told

/-- The outcomes of one implementation, in order. -/
def of (told : Told) (i : Implementation) : List Bool :=
  (told.filter fun o => o.1 = i).map (·.2)

theorem of_append (told later : Told) (i : Implementation) :
    (told ++ later).of i = told.of i ++ later.of i := by
  simp [of]

theorem of_concat_self (told : Told) (i : Implementation) (success : Bool) :
    Told.of (told ++ [(i, success)]) i = told.of i ++ [success] := by
  simp [of]

theorem of_concat_of_ne (told : Told) {i j : Implementation} (h : i ≠ j) (success : Bool) :
    Told.of (told ++ [(i, success)]) j = told.of j := by
  simp [of, h]

/-- What was told leaves an implementation out: its outcomes are looked at, and they hold a
streak. -/
def LeavesOut (told : Told) (settings : BreakerSettings) (i : Implementation) : Prop :=
  settings.Watches i ∧ HasStreak settings.streakLength (told.of i)

instance (told : Told) (settings : BreakerSettings) (i : Implementation) :
    Decidable (told.LeavesOut settings i) :=
  inferInstanceAs (Decidable (_ ∧ _))

/-- Nothing that is told later takes a streak back. -/
theorem LeavesOut.append {told : Told} {settings : BreakerSettings} {i : Implementation}
    (h : told.LeavesOut settings i) (later : Told) :
    Told.LeavesOut (told ++ later) settings i := by
  refine ⟨h.1, ?_⟩
  rw [of_append]
  exact h.2.trans (List.infix_append' [] _ _)

end Told

-- ============================================================================
-- One outcome
-- ============================================================================

namespace Breaker

variable {b : Breaker} {i j : Implementation}

theorem lookup_cons_of_ne (h : j ≠ i) (n : Nat) (streaks : List (Implementation × Nat)) :
    ((i, n) :: streaks).lookup j = streaks.lookup j := by
  rw [List.lookup_cons, beq_false_of_ne h]

theorem lookup_filter_ne (streaks : List (Implementation × Nat)) (i j : Implementation) :
    (streaks.filter fun s => s.1 ≠ i).lookup j = if j = i then none else streaks.lookup j := by
  induction streaks with
  | nil => simp
  | cons s rest ih =>
    obtain ⟨k, n⟩ := s
    by_cases hki : k = i
    · subst hki
      rw [List.filter_cons_of_neg (by simp), ih]
      by_cases hjk : j = k
      · rw [if_pos hjk, if_pos hjk]
      · rw [if_neg hjk, if_neg hjk, lookup_cons_of_ne hjk]
    · rw [List.filter_cons_of_pos (by simp [hki])]
      by_cases hjk : j = k
      · subst hjk
        rw [List.lookup_cons_self, List.lookup_cons_self, if_neg hki]
      · rw [lookup_cons_of_ne hjk, lookup_cons_of_ne hjk, ih]

theorem streak_clear (b : Breaker) (i j : Implementation) :
    (b.clear i).streak j = if j = i then 0 else b.streak j := by
  unfold streak clear
  rw [lookup_filter_ne]
  split <;> rfl

theorem trip_streak (b : Breaker) (i j : Implementation) : (b.trip i).2.streak j = b.streak j := by
  unfold trip
  split <;> rfl

/-- The outcome that a breaker is told is a failure, and its counter is at the last place. -/
def Completes (b : Breaker) (i : Implementation) (success : Bool) : Prop :=
  success = false ∧ b.settings.streakLength ≤ b.streak i + 1

/-- The settings stay as they are. -/
theorem record_settings (b : Breaker) (i : Implementation) (success : Bool) :
    (b.record i success).2.settings = b.settings := by
  unfold record
  split
  · rfl
  · split
    · rfl
    · simp only
      split
      · unfold trip
        split <;> rfl
      · rfl

/-- Outcomes that are not looked at change nothing. -/
theorem record_of_not_watches (h : ¬b.settings.Watches i) (success : Bool) :
    b.record i success = (false, b) := by
  unfold record
  refine if_pos ?_
  by_contra hon
  simp only [Bool.or_eq_true, Bool.not_eq_true', beq_iff_eq, not_or, Bool.not_eq_false] at hon
  exact h hon

theorem record_of_watches (h : b.settings.Watches i) (success : Bool) :
    b.record i success =
      if success then (false, b.clear i)
      else if b.settings.streakLength ≤ b.streak i + 1 then (b.clear i).trip i
      else (false, { b.clear i with streaks := (i, b.streak i + 1) :: (b.clear i).streaks }) := by
  have hthreshold : b.settings.threshold ≤ b.streak i + 1 ↔
      b.settings.streakLength ≤ b.streak i + 1 := by
    unfold BreakerSettings.streakLength
    omega
  unfold record
  rw [if_neg (by simp [h.1, h.2])]
  simp only [hthreshold]

/-- The counter of an implementation starts again after a success and at the end of a streak. -/
theorem streak_record (h : b.settings.Watches i) (success : Bool) (j : Implementation) :
    (b.record i success).2.streak j =
      if j = i then
        if success then 0
        else if b.settings.streakLength ≤ b.streak i + 1 then 0 else b.streak i + 1
      else b.streak j := by
  rw [record_of_watches h]
  cases success with
  | true => simp [streak_clear]
  | false =>
    simp only [Bool.false_eq_true, if_false]
    by_cases hfull : b.settings.streakLength ≤ b.streak i + 1
    · rw [if_pos hfull, if_pos hfull, trip_streak, streak_clear]
    · rw [if_neg hfull, if_neg hfull]
      -- The new count stands before the counts of all others.
      show (((i, b.streak i + 1) :: (b.clear i).streaks).lookup j).getD 0 = _
      by_cases hji : j = i
      · rw [hji, List.lookup_cons_self, if_pos rfl, Option.getD_some]
      · rw [lookup_cons_of_ne hji, ← streak, streak_clear, if_neg hji, if_neg hji]

/-- The answer to an outcome is whether it completes the first streak. -/
theorem record_answer (h : b.settings.Watches i) (success : Bool) :
    (b.record i success).1 = true ↔ b.Completes i success ∧ i ∉ b.tripped := by
  rw [record_of_watches h, Completes]
  cases success with
  | true => simp
  | false =>
    by_cases hfull : b.settings.streakLength ≤ b.streak i + 1
    · by_cases htripped : i ∈ b.tripped
      · simp [hfull, htripped, trip, isTripped, clear]
      · simp [hfull, htripped, trip, isTripped, clear]
    · simp [hfull]

/-- An implementation is left out when it is answered so, and never else. -/
theorem record_tripped (b : Breaker) (i : Implementation) (success : Bool) :
    (b.record i success).2.tripped =
      b.tripped ++ if (b.record i success).1 then [i] else [] := by
  by_cases h : b.settings.Watches i
  · rw [record_of_watches h]
    cases success with
    | true => simp [clear]
    | false =>
      by_cases hfull : b.settings.streakLength ≤ b.streak i + 1
      · by_cases htripped : i ∈ b.tripped
        · simp [hfull, htripped, trip, isTripped, clear]
        · simp [hfull, htripped, trip, isTripped, clear]
      · simp [hfull, clear]
  · simp [record_of_not_watches h]

-- ============================================================================
-- Histories
-- ============================================================================

/-- The breaker after all that was told, in order. -/
def after (settings : BreakerSettings) (told : Told) : Breaker :=
  told.foldl (fun b o => (b.record o.1 o.2).2) { settings }

/-- The answers to all that is told, each with the implementation it is about. -/
def answers (b : Breaker) : Told → List (Implementation × Bool)
  | [] => []
  | (i, success) :: rest => (i, (b.record i success).1) :: (b.record i success).2.answers rest

theorem after_concat (settings : BreakerSettings) (told : Told) (i : Implementation)
    (success : Bool) :
    after settings (told ++ [(i, success)]) = ((after settings told).record i success).2 := by
  simp [after]

/-- A breaker holds what it was told: of every implementation that it watches the run of failures
at the end, up to whole streaks, and the implementations with a streak. -/
structure Holds (b : Breaker) (settings : BreakerSettings) (told : Told) : Prop where
  settings_eq : b.settings = settings
  streak_eq : ∀ i, settings.Watches i →
    b.streak i = lastFailures (told.of i) % settings.streakLength
  unwatched : ∀ i, ¬settings.Watches i → b.streak i = 0
  mem_tripped : ∀ i, i ∈ b.tripped ↔ told.LeavesOut settings i
  nodup : b.tripped.Nodup

variable {settings : BreakerSettings} {told : Told}

theorem Holds.start (settings : BreakerSettings) : Holds { settings } settings [] where
  settings_eq := rfl
  streak_eq _ _ := (Nat.zero_mod _).symm
  unwatched _ _ := rfl
  mem_tripped i := by
    have hnone : ¬HasStreak settings.streakLength [] := by
      unfold HasStreak
      rw [List.infix_nil, List.replicate_eq_nil_iff]
      exact Nat.ne_of_gt settings.streakLength_pos
    exact iff_of_false List.not_mem_nil fun h => hnone h.2
  nodup := List.nodup_nil

/-- A streak is completed where the counter says so, or was there before. -/
theorem Holds.leavesOut_concat (h : b.Holds settings told) (i : Implementation) (success : Bool) :
    Told.LeavesOut (told ++ [(i, success)]) settings i ↔
      told.LeavesOut settings i ∨ settings.Watches i ∧ b.Completes i success := by
  unfold Told.LeavesOut Completes
  rw [Told.of_concat_self, h.settings_eq]
  by_cases hwatches : settings.Watches i
  · rw [h.streak_eq i hwatches]
    cases success with
    | true => simp [hasStreak_concat_success settings.streakLength_pos]
    | false => simp [hwatches, hasStreak_concat_failure]
  · simp [hwatches]

/-- The answer to an outcome is whether it completes the first streak in what was told. -/
theorem Holds.answer (h : b.Holds settings told) (i : Implementation) (success : Bool) :
    (b.record i success).1 = true ↔
      ¬told.LeavesOut settings i ∧ Told.LeavesOut (told ++ [(i, success)]) settings i := by
  rw [h.leavesOut_concat, ← h.mem_tripped]
  by_cases hwatches : settings.Watches i
  · rw [record_answer (by rw [h.settings_eq]; exact hwatches)]
    tauto
  · rw [record_of_not_watches (by rw [h.settings_eq]; exact hwatches)]
    tauto

theorem Holds.record (h : b.Holds settings told) (i : Implementation) (success : Bool) :
    (b.record i success).2.Holds settings (told ++ [(i, success)]) := by
  have hsettings := (b.record_settings i success).trans h.settings_eq
  have hanswer := h.answer i success
  constructor
  case settings_eq => exact hsettings
  case streak_eq =>
    intro j hj
    by_cases hij : i = j
    · subst hij
      rw [streak_record (by rw [h.settings_eq]; exact hj), if_pos rfl, Told.of_concat_self,
        h.settings_eq, h.streak_eq i hj]
      cases success with
      | true => simp
      | false =>
        rw [lastFailures_concat_failure, succ_mod_eq settings.streakLength_pos]
        simp
    · rw [Told.of_concat_of_ne told hij, ← h.streak_eq j hj]
      by_cases hi : settings.Watches i
      · rw [streak_record (by rw [h.settings_eq]; exact hi), if_neg (Ne.symm hij)]
      · rw [record_of_not_watches (by rw [h.settings_eq]; exact hi)]
  case unwatched =>
    intro j hj
    by_cases hi : settings.Watches i
    · have hji : j ≠ i := fun heq => hj (heq ▸ hi)
      rw [streak_record (by rw [h.settings_eq]; exact hi), if_neg hji]
      exact h.unwatched j hj
    · rw [record_of_not_watches (by rw [h.settings_eq]; exact hi)]
      exact h.unwatched j hj
  case mem_tripped =>
    intro j
    rw [record_tripped, List.mem_append, h.mem_tripped]
    by_cases hij : i = j
    · subst hij
      by_cases hbefore : told.LeavesOut settings i
      · exact iff_of_true (.inl hbefore) (hbefore.append _)
      · by_cases hnow : (b.record i success).1 = true
        · simp [hnow, (hanswer.1 hnow).2]
        · have hnot : ¬Told.LeavesOut (told ++ [(i, success)]) settings i :=
            fun hafter => hnow (hanswer.2 ⟨hbefore, hafter⟩)
          simp [hnow, hbefore, hnot]
    · have hother : Told.LeavesOut (told ++ [(i, success)]) settings j ↔
          told.LeavesOut settings j := by
        unfold Told.LeavesOut
        rw [Told.of_concat_of_ne told hij]
      rw [hother]
      refine or_iff_left ?_
      split
      · exact fun hmem => hij (List.mem_singleton.1 hmem).symm
      · exact List.not_mem_nil
  case nodup =>
    rw [record_tripped]
    by_cases hnow : (b.record i success).1 = true
    · rw [if_pos hnow, List.nodup_append]
      refine ⟨h.nodup, List.nodup_singleton i, ?_⟩
      rintro j hj k hk rfl
      obtain rfl := List.mem_singleton.1 hk
      exact (hanswer.1 hnow).1 ((h.mem_tripped j).1 hj)
    · rw [if_neg hnow, List.append_nil]
      exact h.nodup

theorem holds_after (settings : BreakerSettings) (told : Told) :
    (after settings told).Holds settings told := by
  induction told using List.reverseRecOn with
  | nil => exact .start settings
  | append_singleton told o ih =>
    rw [after_concat]
    exact ih.record o.1 o.2

/-- What is left out are the implementations about which the answer was so, in order. -/
theorem tripped_foldl (b : Breaker) (told : Told) :
    (told.foldl (fun b o => (b.record o.1 o.2).2) b).tripped =
      b.tripped ++ ((b.answers told).filter (·.2)).map (·.1) := by
  induction told generalizing b with
  | nil => simp [answers]
  | cons o rest ih =>
    obtain ⟨i, success⟩ := o
    rw [List.foldl_cons, ih, record_tripped, answers]
    by_cases hnow : (b.record i success).1 = true
    · simp [hnow]
    · simp [hnow]

/-- No counter goes beyond a streak. -/
theorem Holds.streak_lt (h : b.Holds settings told) (i : Implementation) :
    b.streak i < settings.streakLength := by
  by_cases hwatches : settings.Watches i
  · rw [h.streak_eq i hwatches]
    exact Nat.mod_lt _ settings.streakLength_pos
  · rw [h.unwatched i hwatches]
    exact settings.streakLength_pos

/-- As many answers that an implementation is left out as there are reasons for it: one, or
none. -/
theorem count_answers (settings : BreakerSettings) (told : Told) (i : Implementation) :
    (answers { settings } told).count (i, true) = if told.LeavesOut settings i then 1 else 0 := by
  have hholds := holds_after settings told
  have htripped : (after settings told).tripped =
      ((answers { settings } told).filter (·.2)).map (·.1) := tripped_foldl { settings } told
  have hcount : (answers { settings } told).count (i, true) =
      (after settings told).tripped.count i := by
    rw [htripped, List.count_eq_countP, List.count_eq_countP, List.countP_map, List.countP_filter]
    refine List.countP_congr fun answer _ => ?_
    obtain ⟨j, trips⟩ := answer
    simp
  rw [hcount]
  split
  · next hout => exact List.count_eq_one_of_mem hholds.nodup ((hholds.mem_tripped i).2 hout)
  · next hin => exact List.count_eq_zero_of_not_mem fun hmem => hin ((hholds.mem_tripped i).1 hmem)

/-- The breaker after any history. An implementation is left out if it is watched and its own
outcomes hold a streak. The answer to an outcome says that it completes the first streak of its
implementation, so each implementation that is left out has one such answer, and no other has
any. As many are left out as have a streak, and for good. A counter that is one word of 32 bits,
like the threshold, never overflows when a failure is counted. -/
theorem leaves_out_at_first_streak (settings : BreakerSettings) (told : Told) :
    (∀ i, (after settings told).isTripped i = true ↔ told.LeavesOut settings i) ∧
    (∀ i success, ((after settings told).record i success).1 = true ↔
      ¬told.LeavesOut settings i ∧ Told.LeavesOut (told ++ [(i, success)]) settings i) ∧
    (∀ i, (answers { settings } told).count (i, true) =
      if told.LeavesOut settings i then 1 else 0) ∧
    (after settings told).trippedCount = {i | told.LeavesOut settings i}.ncard ∧
    (∀ i later, (after settings told).isTripped i = true →
      (after settings (told ++ later)).isTripped i = true) ∧
    (settings.threshold < 2 ^ 32 → ∀ i, (after settings told).streak i + 1 < 2 ^ 32) := by
  have htripped : ∀ told i, (after settings told).isTripped i = true ↔
      told.LeavesOut settings i := by
    intro told i
    unfold isTripped
    rw [List.contains_iff_mem]
    exact (holds_after settings told).mem_tripped i
  have hholds := holds_after settings told
  refine ⟨htripped told, hholds.answer, count_answers settings told, ?_, ?_, ?_⟩
  · have hset : {i | told.LeavesOut settings i} =
        ((after settings told).tripped.toFinset : Set Implementation) := by
      ext i
      exact (hholds.mem_tripped i).symm.trans (Finset.mem_coe.trans List.mem_toFinset).symm
    rw [hset, Set.ncard_coe_finset, List.toFinset_card_of_nodup hholds.nodup]
    rfl
  · intro i later hout
    exact (htripped _ i).2 (((htripped told i).1 hout).append later)
  · intro hword i
    have hlt := hholds.streak_lt i
    unfold BreakerSettings.streakLength at hlt
    omega

/-- Two implementations of one name by turns. The domain's fails twice in a row, and is answered
so at the second failure only, though it goes on to fail; the script's second failure comes after
a success. -/
theorem leaves_out_by_turns :
    let domain : Implementation := ⟨"sqrt", .domain⟩
    let script : Implementation := ⟨"sqrt", .script⟩
    let told : Told := [(domain, false), (script, false), (script, true), (domain, false),
      (script, false), (domain, false), (domain, false)]
    let b := after { threshold := 2 } told
    b.isTripped domain = true ∧ b.isTripped script = false ∧ b.trippedCount = 1 ∧
      answers { settings := { threshold := 2 } } told =
        [(domain, false), (script, false), (script, false), (domain, true), (script, false),
          (domain, false), (domain, false)] ∧
      (∀ later, (after { threshold := 2 } (told ++ later)).isTripped domain = true) ∧
      ∀ i, b.streak i + 1 < 2 ^ 32 := by
  intro domain script told b
  have hout : b.isTripped domain = true := by decide
  obtain ⟨-, -, -, -, hstays, hword⟩ := leaves_out_at_first_streak { threshold := 2 } told
  exact ⟨hout, by decide, by decide, by decide, fun later => hstays domain later hout,
    hword (by decide)⟩

end Breaker

end Sluice
