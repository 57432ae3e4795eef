/-
  Sluice.Proofs.Operator.Halting

  The operators of the libraries, one by one: which of them can halt a run, and on what. Nearly all
  of them settle as soon as they are given as many arguments as they take. What they read by place
  is there: the arity check promises the arguments, and a refusal of empty arrays the elements.
  Windows are not empty, and no divisor of a whole number is zero. Of the ranks that `median` and
  `percentile` read by place nothing is said.

  Main statement: invoked on its own, any other operator halts in two cases only. It is `clamp` of
  the core library between bounds of which one is not a number, or it is `lcm`, in a build that
  checks its arithmetic, where the multiple does not fit 64 bits.
-/

import Sluice.Proofs.Number.Order
import Sluice.Proofs.Operator.Settling

namespace Sluice

variable {σ α : Type} {input : Value} {args : Arguments} {halt : Halt}

-- ============================================================================
-- The core library
-- ============================================================================

namespace Core

theorem settles_unary (f : Number → Number) : (unary f input args).Settles := by
  simp [unary]

theorem settles_candidates : (candidates input args).Settles := by
  unfold candidates
  split <;> simp [Attempt.settles_mapM]

theorem settles_extremum (wanted : Ordering) : (extremum wanted input args).Settles := by
  simp only [extremum, Attempt.settles_bind, settles_candidates, true_and]
  intro xs _
  split <;> simp

theorem settles_sum : (sum input args).Settles := by
  unfold sum
  split <;> simp

/-- A number, and two bounds for it of which one is not a number. -/
def UnorderedBounds (input : Value) (args : Arguments) : Prop :=
  ∃ x lo hi, input.numeric? = some x ∧ args.map Value.numeric? = [some lo, some hi] ∧
    (Number.isNaN lo = true ∨ Number.isNaN hi = true)

theorem clampWithin_eq_halt_iff {lo hi x : Number} (h : Number.lt hi lo = false) :
    clampWithin lo hi x = .error (.halt halt) ↔
      halt = .unorderedBounds ∧ (Number.isNaN lo = true ∨ Number.isNaN hi = true) := by
  have hle : Number.le lo hi = true ↔ ¬ (Number.isNaN lo = true ∨ Number.isNaN hi = true) := by
    rw [Number.le_iff_of_not_lt h, not_or, Bool.not_eq_true, Bool.not_eq_true]
  unfold clampWithin
  split
  · next hordered => simp [hle.1 hordered]
  · next hordered =>
    have hnan := Classical.not_not.1 (mt hle.2 hordered)
    constructor
    · rintro ⟨⟩
      exact ⟨rfl, hnan⟩
    · rintro ⟨rfl, -⟩
      rfl

/-- Bounds that are out of order are refused, so the others are left. -/
theorem refused_or_clampWithin_eq_halt_iff {lo hi x : Number} {message : String} :
    (if Number.lt hi lo = true then Attempt.refuseDomain message
      else do return Value.number (← clampWithin lo hi x)) = .error (.halt halt) ↔
      halt = .unorderedBounds ∧ (Number.isNaN lo = true ∨ Number.isNaN hi = true) := by
  split
  · next hout =>
    obtain ⟨hhi, hlo⟩ := Number.not_nan_of_lt hout
    simp [hlo, hhi, Attempt.refuseDomain, Attempt.refuse]
  · next hin =>
    rw [Attempt.bind_pure_eq_halt_iff, clampWithin_eq_halt_iff (Bool.eq_false_iff.2 hin)]

theorem UnorderedBounds.length_eq (h : UnorderedBounds input args) : args.length = 2 := by
  obtain ⟨x, lo, hi, -, hargs, -⟩ := h
  simpa using congrArg List.length hargs

/-- Given two bounds, `clamp` halts where everything is numeric and a bound is not a number. -/
theorem clamp_eq_halt_iff :
    args.length = 2 ∧ clamp input args = .error (.halt halt) ↔
      halt = .unorderedBounds ∧ UnorderedBounds input args := by
  by_cases hlength : args.length = 2
  · match args, hlength with
    | [a, b], _ =>
      have hlo : Arguments.number [a, b] 0 = a.expectNumber := rfl
      have hhi : Arguments.number [a, b] 1 = b.expectNumber := rfl
      simp only [clamp, hlo, hhi, Attempt.bind_eq_halt_iff, Value.settles_expectNumber,
        Value.expectNumber_eq_ok_iff, refused_or_clampWithin_eq_halt_iff, UnorderedBounds,
        List.map_cons, List.map_nil, List.cons.injEq, and_true]
      constructor
      · rintro ⟨-, x, hx, lo, hlo, hi, hhi, rfl, hnan⟩
        exact ⟨rfl, x, lo, hi, hx, ⟨hlo, hhi⟩, hnan⟩
      · rintro ⟨rfl, x, lo, hi, hx, ⟨hlo, hhi⟩, hnan⟩
        exact ⟨rfl, x, hx, lo, hlo, hi, hhi, rfl, hnan⟩
  · exact iff_of_false (fun h => hlength h.1) fun h => hlength h.2.length_eq

theorem settles_arithmetic :
    ∀ e ∈ (arithmetic : List (Entry σ)), e.name ≠ "clamp" → e.Settles := by
  simp [arithmetic, Entry.name_pure, binary, settles_unary, dividing, power, round,
    settles_extremum, settles_sum]

theorem settles_concat : (concat input args).Settles := by
  unfold concat
  split <;> simp

theorem settles_textual : ∀ e ∈ (textual : List (Entry σ)), e.Settles := by
  simp [textual, onText, settles_concat, splitText, startsWith, endsWith, replace]

theorem settles_length : (length input args).Settles := by
  unfold length
  split <;> simp

theorem settles_reverse : (reverse input args).Settles := by
  unfold reverse
  split <;> simp

theorem settles_edge (front : Bool) : (edge front input args).Settles := by
  unfold edge
  split
  · simp
  · split <;> simp
  · simp

theorem settles_countArgument : (countArgument args).Settles := by
  simp [countArgument]

theorem settles_slice (keepFront : Bool) : (slice keepFront input args).Settles := by
  simp only [slice, Attempt.settles_bind, settles_countArgument, true_and]
  intro n _
  split <;> simp

theorem settles_contains (h : 0 < args.length) : (contains input args).Settles := by
  simp only [contains, Attempt.settles_bind, Arguments.settles_get, h, true_and]
  intro needle _
  split <;> simp

theorem settles_set (h : 1 < args.length) : (set input args).Settles := by
  unfold set
  cases input <;> simp [h]

theorem settles_collections : ∀ e ∈ (collections : List (Entry σ)), e.Settles := by
  simp +contextual [collections, Arity.admits_exactly, settles_length, settles_reverse, sort,
    unique, settles_edge, settles_slice, join, settles_contains, keys, contents, get, settles_set]

theorem settles_default (h : 0 < args.length) : (default input args).Settles := by
  unfold default
  split <;> simp [h]

theorem settles_toNumber : (toNumber input args).Settles := by
  unfold toNumber
  split <;> simp

theorem settles_logical : ∀ e ∈ (logical : List (Entry σ)), e.Settles := by
  simp +contextual [logical, Arity.admits_exactly, settles_default, settles_toNumber, connective,
    identity]

theorem settles_comparisons : ∀ e ∈ (comparisons : List (Entry σ)), e.Settles := by
  simp +contextual [comparisons, Arity.admits_exactly, comparison]

theorem settles_operatorName : (operatorName args).Settles := by
  unfold operatorName
  split <;> simp

theorem settles_andThen {attempt : Attempt α} {next : α → Action σ} :
    (andThen attempt next).Settles ↔
      attempt.Settles ∧ ∀ a, attempt = .ok a → (next a).Settles := by
  cases attempt with
  | ok a => simp [andThen]
  | error fault => cases fault <;> simp [andThen, Action.Settles, Attempt.Settles]

theorem settles_mapItems (name : String) (done items : List Value) :
    (mapItems name args done items : Action σ).Settles := by
  induction items generalizing done with
  | nil => exact Attempt.settles_ok _
  | cons item rest ih =>
    intro result
    cases result with
    | ok v => exact ih (v :: done)
    | error e => exact Attempt.settles_refuse e

theorem settles_keepItems (name : String) (kept items : List Value) :
    (keepItems name args kept items : Action σ).Settles := by
  induction items generalizing kept with
  | nil => exact Attempt.settles_ok _
  | cons item rest ih =>
    intro result
    cases result with
    | ok v => exact ih _
    | error e => exact Attempt.settles_refuse e

theorem settles_foldItems (name : String) (acc : Value) (items : List Value) :
    (foldItems name acc items : Action σ).Settles := by
  induction items generalizing acc with
  | nil => exact Attempt.settles_ok acc
  | cons item rest ih =>
    intro result
    cases result with
    | ok v => exact ih v
    | error e => exact Attempt.settles_refuse e

theorem settles_mapWith (h : 0 < args.length) : (mapWith input args : Action σ).Settles := by
  simp [mapWith, settles_andThen, settles_operatorName, h, settles_mapItems]

theorem settles_filterWith (h : 0 < args.length) : (filterWith input args : Action σ).Settles := by
  simp [filterWith, settles_andThen, settles_operatorName, h, settles_keepItems]

theorem settles_reduceWith : (reduceWith input args : Action σ).Settles := by
  simp only [reduceWith, settles_andThen, settles_operatorName, true_and]
  intro name _
  split
  · simp [Action.Settles]
  · simp only [settles_andThen, Value.settles_expectItems, true_and]
    intro items _
    cases items with
    | nil => exact Attempt.settles_ok _
    | cons first rest => exact settles_foldItems name first rest

theorem settles_fromPool (input : Value) (args : Arguments) :
    (fromPool input args : Action σ).Settles := by
  simp only [fromPool, settles_andThen, Arguments.settles_text, true_and]
  intro name _ value
  cases value <;> exact Attempt.settles_ok _

theorem settles_surroundings : ∀ e ∈ (surroundings : List (Entry σ)), e.Settles := by
  simp only [surroundings, List.forall_mem_cons, Entry.settles_pure, identity, Attempt.settles_ok,
    implies_true, List.not_mem_nil, false_imp_iff, and_true]
  refine ⟨fun input args h => ?_, fun input args h => ?_, fun input args _ => ?_,
    fun input args _ => ?_⟩
  · exact settles_mapWith (Arity.admits_atLeast.1 h)
  · exact settles_filterWith (Arity.admits_atLeast.1 h)
  · exact settles_reduceWith
  · exact settles_fromPool input args

theorem settles_library :
    ∀ e ∈ (library : Library σ).entries, e.name ≠ "clamp" → e.Settles := by
  simp only [library, List.forall_mem_append]
  refine ⟨⟨⟨⟨⟨settles_arithmetic, ?_⟩, ?_⟩, ?_⟩, ?_⟩, ?_⟩
  · exact fun e he _ => settles_textual e he
  · exact fun e he _ => settles_collections e he
  · exact fun e he _ => settles_logical e he
  · exact fun e he _ => settles_comparisons e he
  · exact fun e he _ => settles_surroundings e he

end Core

-- ============================================================================
-- The domain libraries
-- ============================================================================

namespace Analytics

theorem settles_someNumbers : (someNumbers input).Settles := by
  simp [someNumbers]

theorem ne_nil_of_someNumbers {xs : List Number} (h : someNumbers input = .ok xs) : xs ≠ [] := by
  rintro rfl
  unfold someNumbers at h
  cases hnumbers : input.expectNumbers with
  | error fault =>
    rw [hnumbers] at h
    cases h
  | ok ys =>
    rw [hnumbers] at h
    cases ys <;> cases h

theorem sorted_ne_nil {xs : List Number} (h : someNumbers input = .ok xs) : sorted xs ≠ [] := by
  intro hnil
  have hlength : xs.length = 0 := by
    rw [← List.length_mergeSort xs, ← sorted, hnil, List.length_nil]
  exact ne_nil_of_someNumbers h (List.eq_nil_of_length_eq_zero hlength)

/-- Whatever reads the first or the last of the numbers in order finds one. -/
theorem settles_of_someNumbers {next : List Number → Attempt Value}
    (h : ∀ xs, sorted xs ≠ [] → (next xs).Settles) : (someNumbers input >>= next).Settles := by
  rw [Attempt.settles_bind]
  exact ⟨settles_someNumbers, fun xs hxs => h xs (sorted_ne_nil hxs)⟩

theorem settles_movingAverage : (movingAverage input args).Settles := by
  simp +contextual [movingAverage, windows]

theorem settles_mode : (mode input args).Settles := by
  refine settles_of_someNumbers fun xs hsorted => ?_
  simp [hsorted]

theorem settles_normalize : (normalize input args).Settles := by
  refine settles_of_someNumbers fun xs hsorted => ?_
  simp [hsorted]

theorem settles_least : (least input args).Settles := by
  refine settles_of_someNumbers fun xs hsorted => ?_
  simp [hsorted]

theorem settles_greatest : (greatest input args).Settles := by
  refine settles_of_someNumbers fun xs hsorted => ?_
  simp [hsorted]

theorem settles_library : ∀ e ∈ (library : Library σ).entries,
    e.name ≠ "median" → e.name ≠ "percentile" → e.Settles := by
  simp [library, Entry.name_pure, statistic, settles_someNumbers, settles_mode, settles_normalize,
    settles_movingAverage, settles_least, settles_greatest]

end Analytics

namespace Word

theorem quotient_gcd {a b : Nat} (h : ¬ (a = 0 ∨ b = 0)) :
    quotient a (Nat.gcd a b) = .ok (a / Nat.gcd a b) :=
  if_neg fun hgcd => h (.inl (Nat.eq_zero_of_gcd_eq_zero_left hgcd))

theorem product_eq_halt_iff {overflow : Overflow} {a b : Nat} :
    product overflow a b = .error (.halt halt) ↔
      halt = .overflow ∧ overflow = .checked ∧ Number.maxWord < a * b := by
  unfold product
  split
  · next hfits => simp [hfits]
  · next hbeyond =>
    cases overflow with
    | checked => simpa [Nat.lt_of_not_le hbeyond] using eq_comm
    | wrapping => simp

/-- The steps to a least common multiple come down to a product, which is that multiple. -/
theorem lcm_eq_product (overflow : Overflow) {a b : Nat} (h : ¬ (a = 0 ∨ b = 0)) :
    lcm overflow a b = product overflow (a / Nat.gcd a b) b ∧
      a / Nat.gcd a b * b = Nat.lcm a b := by
  constructor
  · rw [lcm, gcd_eq]
    show quotient a (Nat.gcd a b) >>= _ = _
    rw [quotient_gcd h]
    rfl
  · rw [Nat.lcm_eq_mul_div, Nat.div_mul_right_comm (Nat.gcd_dvd_left a b)]

/-- Of the steps to a least common multiple only the product halts. -/
theorem lcm_eq_halt_iff {overflow : Overflow} {a b : Nat} (h : ¬ (a = 0 ∨ b = 0)) :
    lcm overflow a b = .error (.halt halt) ↔
      halt = .overflow ∧ overflow = .checked ∧ Number.maxWord < Nat.lcm a b := by
  obtain ⟨hlcm, hproduct⟩ := lcm_eq_product overflow h
  rw [hlcm, product_eq_halt_iff, hproduct]

end Word

namespace Math

theorem settles_wholePair : (wholePair input args).Settles := by
  simp [wholePair]

theorem settles_finiteUnary (name : String) (f : Number → Number) :
    (finiteUnary name f input args).Settles := by
  simp [finiteUnary]

theorem settles_pow : (pow input args).Settles := by
  simp [pow]

theorem settles_gcd : (gcd input args).Settles := by
  simp [gcd, settles_wholePair, Word.gcd_eq]

theorem settles_libraryWith (overflow : Overflow) :
    ∀ e ∈ (libraryWith overflow : Library σ).entries, e.name ≠ "lcm" → e.Settles := by
  simp [libraryWith, Entry.name_pure, squareRoot, settles_pow, log, naturalLog, settles_finiteUnary,
    factorial, settles_gcd, roundTo, multiply, add]

/-- Two whole numbers whose least common multiple does not fit 64 bits. -/
def MultipleBeyondWord (input : Value) (args : Arguments) : Prop :=
  args.length = 1 ∧ ∃ a b, wholePair input args = .ok (a, b) ∧ Number.maxWord < Nat.lcm a b

theorem zero_or_lcm_eq_halt_iff {overflow : Overflow} {a b : Nat} :
    (if a = 0 ∨ b = 0 then return Value.number 0.0
      else do return Value.number (Number.ofNat (← Word.lcm overflow a b))) =
        (.error (.halt halt) : Attempt Value) ↔
      halt = .overflow ∧ overflow = .checked ∧ Number.maxWord < Nat.lcm a b := by
  split
  · next hzero => simp [Nat.lcm_eq_zero_iff.2 hzero, pure, Except.pure]
  · next hnonzero => rw [Attempt.bind_pure_eq_halt_iff, Word.lcm_eq_halt_iff hnonzero]

/-- Given one argument, `lcm` halts where the multiple needs more than 64 bits and the build
checks its arithmetic. -/
theorem lcm_eq_halt_iff {overflow : Overflow} :
    args.length = 1 ∧ lcm overflow input args = .error (.halt halt) ↔
      halt = .overflow ∧ overflow = .checked ∧ MultipleBeyondWord input args := by
  simp only [lcm, Attempt.bind_eq_halt_iff settles_wholePair, Prod.exists,
    zero_or_lcm_eq_halt_iff, MultipleBeyondWord]
  constructor
  · rintro ⟨hlength, a, b, hpair, rfl, rfl, hbeyond⟩
    exact ⟨rfl, rfl, hlength, a, b, hpair, hbeyond⟩
  · rintro ⟨rfl, rfl, hlength, a, b, hpair, hbeyond⟩
    exact ⟨hlength, a, b, hpair, rfl, rfl, hbeyond⟩

end Math

namespace Health

theorem settles_library : ∀ e ∈ (library : Library σ).entries, e.Settles := by
  simp [library, bodyMassIndex, heartRateZone, basalRate]

end Health

namespace Iot

theorem settles_library : ∀ e ∈ (library : Library σ).entries, e.Settles := by
  simp [library, thresholdAlert, scale]

end Iot

namespace Network

theorem settles_decode (s : String) : (decode s).Settles := by
  unfold decode
  split
  · simp
  · split <;> simp

theorem settles_queryPair (pair : List Char) : (queryPair pair).Settles := by
  simp [queryPair, settles_decode]

theorem settles_library : ∀ e ∈ (library : Library σ).entries, e.Settles := by
  simp [library, settles_decode, parseQuery, Attempt.settles_mapM, settles_queryPair]

end Network

namespace Security

theorem settles_mask : (mask input args).Settles := by
  simp [mask]

theorem settles_redact : (redact input args).Settles := by
  simp only [redact, Attempt.settles_bind, Value.settles_expectText, Attempt.settles_pure,
    implies_true, and_true]

theorem settles_library : ∀ e ∈ (library : Library σ).entries, e.Settles := by
  simp [library, settles_mask, settles_redact]

end Security

namespace Fallback

theorem settles_extremum (f : Number → Number → Number) : (extremum f input args).Settles := by
  simp [extremum]

theorem settles_library : ∀ e ∈ (library : Library σ).entries, e.Settles := by
  simp [library, Math.settles_finiteUnary, Math.settles_pow, Core.settles_unary, settles_extremum]

end Fallback

-- ============================================================================
-- Invocations
-- ============================================================================

namespace Operator

variable {op : Operator σ} {e : Entry σ} {s : σ}

/-- An operator that settles does so on any number of arguments, since a number that it does not
take is refused. -/
theorem Does.settles_invokeDetached (hdoes : op.Does e) (h : e.Settles) :
    (op.invokeDetached input args s).1.Settles := by
  unfold invokeDetached invoke
  rw [hdoes.arity, hdoes.body]
  split
  · next hadmits =>
    exact (h input args hadmits).run none (fun _ _ _ _ => Attempt.settles_refuse _) _
  · exact Attempt.settles_refuse _

theorem Does.invokeDetached_pure_eq_halt_iff {name : String} {arity : Arity}
    {f : Value → Arguments → Attempt Value} (hdoes : op.Does (Entry.pure name arity f)) :
    (op.invokeDetached input args s).1 = .error (.halt halt) ↔
      arity.admits args.length = true ∧ f input args = .error (.halt halt) := by
  unfold invokeDetached invoke
  rw [hdoes.arity, hdoes.body]
  split
  · next hadmits => simpa [Entry.pure, Action.run] using fun _ => hadmits
  · next hrefused =>
    have hrefused : ¬ arity.admits args.length = true := hrefused
    simp [Attempt.refuse, hrefused]

end Operator

theorem Core.does_clamp {op : Operator σ} (hop : library.operator? "clamp" = some op) :
    op.Does (Entry.pure "clamp" (.exactly 2) clamp) := by
  cases hop
  exact ⟨rfl, rfl⟩

theorem Math.does_lcm {overflow : Overflow} {op : Operator σ}
    (hop : (libraryWith overflow).operator? "lcm" = some op) :
    op.Does (Entry.pure "lcm" (.exactly 1) (lcm overflow)) := by
  cases hop
  exact ⟨rfl, rfl⟩

namespace Library

/-- The libraries that a build ships. -/
def shipped (overflow : Overflow) : List (Library σ) :=
  Core.library :: Fallback.library :: Domain.librariesWith overflow

variable {overflow : Overflow} {library : Library σ}

theorem mem_shipped : library ∈ shipped overflow ↔
    library = Core.library ∨ library = Fallback.library ∨ library = Math.libraryWith overflow ∨
      library = Analytics.library ∨ library = Health.library ∨ library = Iot.library ∨
      library = Network.library ∨ library = Security.library := by
  simp only [shipped, Domain.librariesWith, List.mem_cons, List.not_mem_nil, or_false]

theorem eq_core (h : library ∈ shipped overflow) (hname : library.name = "core") :
    library = Core.library := by
  rcases mem_shipped.1 h with rfl | rfl | rfl | rfl | rfl | rfl | rfl | rfl
  case inl => rfl
  all_goals exact absurd hname (by simp [Fallback.library, Math.libraryWith, Analytics.library,
    Health.library, Iot.library, Network.library, Security.library])

theorem eq_math (h : library ∈ shipped overflow) (hname : library.name = "math") :
    library = Math.libraryWith overflow := by
  rcases mem_shipped.1 h with rfl | rfl | rfl | rfl | rfl | rfl | rfl | rfl
  case inr.inr.inl => rfl
  all_goals exact absurd hname (by simp [Core.library, Fallback.library, Analytics.library,
    Health.library, Iot.library, Network.library, Security.library])

/-- All operators settle but those between bounds, those with a product, and those of ranks. -/
theorem settles_shipped (h : library ∈ shipped overflow) {e : Entry σ} (he : e ∈ library.entries)
    (hother : (library.name, e.name) ∉
      [("core", "clamp"), ("math", "lcm"), ("analytics", "median"), ("analytics", "percentile")]) :
    e.Settles := by
  simp only [List.mem_cons, Prod.mk.injEq, List.not_mem_nil, or_false, not_or, not_and] at hother
  obtain ⟨hclamp, hlcm, hmedian, hpercentile⟩ := hother
  rcases mem_shipped.1 h with rfl | rfl | rfl | rfl | rfl | rfl | rfl | rfl
  · exact Core.settles_library e he (hclamp rfl)
  · exact Fallback.settles_library e he
  · exact Math.settles_libraryWith overflow e he (hlcm rfl)
  · exact Analytics.settles_library e he (hmedian rfl) (hpercentile rfl)
  · exact Health.settles_library e he
  · exact Iot.settles_library e he
  · exact Network.settles_library e he
  · exact Security.settles_library e he

end Library

/-- Invoked on its own, an operator of a library halts on bounds that are not numbers, or on a
product that its build checks and that does not fit 64 bits. -/
theorem Operator.invokeDetached_eq_halt_iff {overflow : Overflow} {library : Library σ}
    {name : String} {op : Operator σ} (hlibrary : library ∈ Library.shipped overflow)
    (hop : library.operator? name = some op)
    (hranked : (library.name, name) ∉ [("analytics", "median"), ("analytics", "percentile")])
    (input : Value) (args : Arguments) (s : σ) (halt : Halt) :
    (op.invokeDetached input args s).1 = .error (.halt halt) ↔
      (halt = .unorderedBounds ∧ library.name = "core" ∧ name = "clamp" ∧
        Core.UnorderedBounds input args) ∨
      (halt = .overflow ∧ overflow = .checked ∧ library.name = "math" ∧ name = "lcm" ∧
        Math.MultipleBeyondWord input args) := by
  obtain ⟨e, he, rfl, hdoes⟩ := Library.does_of_operator? hop
  by_cases hclamp : library.name = "core" ∧ e.name = "clamp"
  · obtain rfl := Library.eq_core hlibrary hclamp.1
    rw [hclamp.2] at hop ⊢
    rw [(Core.does_clamp hop).invokeDetached_pure_eq_halt_iff, Arity.admits_exactly,
      Core.clamp_eq_halt_iff]
    simp [Core.library]
  by_cases hlcm : library.name = "math" ∧ e.name = "lcm"
  · obtain rfl := Library.eq_math hlibrary hlcm.1
    rw [hlcm.2] at hop ⊢
    rw [(Math.does_lcm hop).invokeDetached_pure_eq_halt_iff, Arity.admits_exactly,
      Math.lcm_eq_halt_iff]
    simp [Math.libraryWith]
  have hsettles : e.Settles := by
    refine Library.settles_shipped hlibrary he ?_
    simp only [List.mem_cons, Prod.mk.injEq, List.not_mem_nil, or_false, not_or] at hranked ⊢
    exact ⟨hclamp, hlcm, hranked⟩
  refine iff_of_false (hdoes.settles_invokeDetached hsettles halt) ?_
  rintro (⟨-, hcore, hname, -⟩ | ⟨-, -, hmath, hname, -⟩)
  · exact hclamp ⟨hcore, hname⟩
  · exact hlcm ⟨hmath, hname⟩

/-- Text may read as what is not a number, and so be a bound on which `clamp` halts. -/
theorem Operator.clamp_halts_on_text_of_nan :
    ∃ op : Operator Unit, Core.library.operator? "clamp" = some op ∧
      (op.invokeDetached (.number 1.0) [.text "nan", .number 2.0] ()).1 =
        .error (.halt .unorderedBounds) := by
  have hshipped : (Core.library : Library Unit) ∈ Library.shipped .wrapping := List.mem_cons_self
  have hsome : ((Core.library : Library Unit).operator? "clamp").isSome = true := rfl
  obtain ⟨op, hop⟩ := Option.isSome_iff_exists.1 hsome
  refine ⟨op, hop, (invokeDetached_eq_halt_iff hshipped hop (by simp [Core.library]) _ _ _ _).2 ?_⟩
  have hbounds : Core.UnorderedBounds (.number 1.0) [.text "nan", .number 2.0] :=
    ⟨1.0, Number.nan false, 2.0, rfl, by decide +kernel, .inl (by decide +kernel)⟩
  exact .inl ⟨rfl, rfl, rfl, hbounds⟩

end Sluice
