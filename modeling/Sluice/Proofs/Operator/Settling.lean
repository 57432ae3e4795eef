/-
  Sluice.Proofs.Operator.Settling

  Work that does not halt. An attempt settles if it ends in a value or a refusal. Whether one
  settles is decided along its steps: a step that is there settles, an argument read by place
  settles if there is one, and a step behind others has to settle only if it is reached. An action
  settles if it does so whatever pools hold and whatever comes of the calls that it makes; then so
  does what it comes to, as long as these calls do.
-/

import Sluice.Proofs.Host.Requests
import Sluice.Proofs.Value.Numeric

namespace Sluice

variable {σ α β : Type}

-- ============================================================================
-- Attempts
-- ============================================================================

namespace Attempt

/-- An attempt that ends in a result or a refusal, and not in a halt. -/
def Settles (attempt : Attempt α) : Prop :=
  ∀ halt, attempt ≠ .error (.halt halt)

@[simp] theorem settles_ok (a : α) : Settles (.ok a) := by
  rintro halt ⟨⟩

@[simp] theorem settles_pure (a : α) : Settles (pure a) :=
  settles_ok a

@[simp] theorem settles_refuse (e : OperatorError) : (refuse e : Attempt α).Settles := by
  rintro halt ⟨⟩

@[simp] theorem settles_refuseDomain (message : String) :
    (refuseDomain message : Attempt α).Settles :=
  settles_refuse _

@[simp] theorem settles_refuseType (expected : String) (v : Value) :
    (refuseType expected v : Attempt α).Settles :=
  settles_refuse _

@[simp] theorem not_settles_halt (halt : Halt) : ¬ Settles (.error (.halt halt) : Attempt α) :=
  fun h => h halt rfl

/-- Work in steps settles if each step does that is reached. -/
@[simp] theorem settles_bind {attempt : Attempt α} {next : α → Attempt β} :
    (attempt >>= next).Settles ↔
      attempt.Settles ∧ ∀ a, attempt = .ok a → (next a).Settles := by
  cases attempt with
  | ok a =>
    show (next a).Settles ↔ _
    simp
  | error fault =>
    show Settles (.error fault) ↔ _
    cases fault <;> simp [Settles]

/-- Work in steps of which the first one settles halts where a step behind it does. -/
theorem bind_eq_halt_iff {attempt : Attempt α} {next : α → Attempt β} {halt : Halt}
    (h : attempt.Settles) :
    attempt >>= next = .error (.halt halt) ↔
      ∃ a, attempt = .ok a ∧ next a = .error (.halt halt) := by
  cases attempt with
  | ok a =>
    show next a = _ ↔ _
    simp
  | error fault =>
    show Except.error fault = _ ↔ _
    cases fault with
    | error e => simp
    | halt halt => exact absurd h (not_settles_halt halt)

theorem bind_pure_eq_halt_iff {attempt : Attempt α} {f : α → β} {halt : Halt} :
    (attempt >>= fun a => pure (f a)) = .error (.halt halt) ↔ attempt = .error (.halt halt) := by
  cases attempt with
  | ok a =>
    show Except.ok (f a) = _ ↔ _
    simp
  | error fault =>
    show Except.error fault = _ ↔ _
    simp

@[simp] theorem settles_map {attempt : Attempt α} {f : α → β} :
    (f <$> attempt).Settles ↔ attempt.Settles := by
  rw [map_eq_pure_bind, settles_bind]
  exact and_iff_left fun a _ => settles_pure (f a)

@[simp] theorem settles_ite {c : Prop} [Decidable c] {x y : Attempt α} :
    (if c then x else y).Settles ↔ (c → x.Settles) ∧ (¬ c → y.Settles) := by
  split <;> simp_all

@[simp] theorem settles_present {found : Option α} :
    (present found).Settles ↔ found.isSome = true := by
  cases found <;> simp [present]

theorem settles_mapM {f : α → Attempt β} (h : ∀ a, (f a).Settles) (as : List α) :
    (as.mapM f).Settles := by
  induction as with
  | nil => exact settles_ok _
  | cons a as ih => simp [List.mapM_cons, h, ih]

end Attempt

-- ============================================================================
-- Inputs and arguments
-- ============================================================================

namespace Value

@[simp] theorem settles_expectNumber (v : Value) : v.expectNumber.Settles := by
  rw [expectNumber_eq]
  split <;> simp

@[simp] theorem settles_expectText (v : Value) : v.expectText.Settles := by
  unfold expectText
  split <;> simp

@[simp] theorem settles_expectItems (v : Value) : v.expectItems.Settles := by
  unfold expectItems
  split <;> simp

@[simp] theorem settles_expectFields (v : Value) : v.expectFields.Settles := by
  unfold expectFields
  split <;> simp

@[simp] theorem settles_expectNumbers (v : Value) : v.expectNumbers.Settles := by
  simp [expectNumbers, Attempt.settles_mapM]

end Value

namespace Arguments

@[simp] theorem settles_get {args : Arguments} {i : Nat} :
    (args.get i).Settles ↔ i < args.length := by
  simp [get]

@[simp] theorem settles_rest {args : Arguments} : args.rest.Settles ↔ 0 < args.length := by
  cases args <;> simp [rest]

@[simp] theorem settles_number (args : Arguments) (i : Nat) : (args.number i).Settles := by
  unfold number
  split <;> simp

@[simp] theorem settles_numberOr (args : Arguments) (i : Nat) (default : Number) :
    (args.numberOr i default).Settles := by
  unfold numberOr
  split <;> simp

@[simp] theorem settles_text (args : Arguments) (i : Nat) : (args.text i).Settles := by
  unfold text
  split <;> simp

end Arguments

@[simp] theorem settles_finiteResult (operator : String) (x : Number) :
    (finiteResult operator x).Settles := by
  simp [finiteResult]

@[simp] theorem settles_wholeNumber (x : Number) : (wholeNumber x).Settles := by
  simp [wholeNumber]

@[simp] theorem settles_elementwise (input : Value) (f : Number → Number) :
    (elementwise input f).Settles := by
  unfold elementwise
  split <;> simp

namespace Arity

theorem admits_exactly {n found : Nat} : (exactly n).admits found = true ↔ found = n :=
  ⟨eq_of_exactly, fun h => by simp [exactly, admits, h]⟩

theorem admits_atLeast {n found : Nat} : (atLeast n).admits found = true ↔ n ≤ found := by
  rw [admits, Bool.and_eq_true, decide_eq_true_iff]
  exact and_iff_left rfl

end Arity

-- ============================================================================
-- Actions
-- ============================================================================

/-- An action that settles whatever pools hold, as long as the calls that it makes settle. -/
def Action.Settles : Action σ → Prop
  | .finish result => result.Settles
  | .call _ _ _ next => ∀ result, (next result).Settles
  | .readPool _ next => ∀ value, (next value).Settles
  | .warn _ next => next.Settles
  | .perform _ => False

/-- What an action comes to settles if its calls do. -/
theorem Action.Settles.run {action : Action σ} (h : action.Settles) (pools : Option PoolStore)
    {caller : Caller σ} (hcaller : ∀ name input args s, (caller name input args s).1.Settles)
    (trail : Trail σ) : (action.run pools caller trail).1.Settles := by
  induction action generalizing trail with
  | finish result => exact h
  | perform effect => exact h.elim
  | warn message next ih => exact ih h _
  | readPool name next ih => exact ih _ (h _) _
  | call name input args next ih =>
    have hcalled := hcaller name input args trail.state
    unfold Action.run
    split
    next result inner hresult =>
      rw [hresult] at hcalled
      match result, hcalled with
      | .ok v, _ => exact ih _ (h _) _
      | .error (.error e), _ => exact ih _ (h _) _
      | .error (.halt halt), hcalled => exact absurd hcalled (Attempt.not_settles_halt halt)

/-- An entry whose operator settles on any input, if it is given as many arguments as it takes. -/
def Entry.Settles (e : Entry σ) : Prop :=
  ∀ input args, e.arity.admits args.length = true → (e.body input args).Settles

@[simp] theorem Entry.settles_pure {name : String} {arity : Arity}
    {f : Value → Arguments → Attempt Value} :
    (Entry.pure name arity f : Entry σ).Settles ↔
      ∀ input args, arity.admits args.length = true → (f input args).Settles :=
  Iff.rfl

theorem Entry.name_pure (name : String) (arity : Arity)
    (f : Value → Arguments → Attempt Value) : (Entry.pure name arity f : Entry σ).name = name :=
  rfl

end Sluice
