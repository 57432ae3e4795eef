/-
  Sluice.Proofs.Run.Outcome

  Running a part of a run from a state. `Exec.outcome` and `Step.outcome` are the two layers
  without their monads: what came of the part, and the state it left behind. A `Step` ends in
  one of three ways: with a result, with a failure of its pipeline, or with a halt of the whole
  run.

  The equations here say what each building block does to a state; later modules cite them and
  never open the monads again.
-/

import Sluice.Run.Walk

namespace Sluice

variable {σ α β : Type}

-- ============================================================================
-- Parts of a run
-- ============================================================================

namespace Exec

/-- What comes of a part of a run from a state, and the state after it. -/
def outcome (m : Exec σ α) (r : Run σ) : Except Halt α × Run σ :=
  m.run.run r

theorem outcome_bind (m : Exec σ α) (f : α → Exec σ β) (r : Run σ) :
    outcome (m >>= f) r =
      match outcome m r with
      | (.ok a, r') => outcome (f a) r'
      | (.error h, r') => (.error h, r') := by
  show ((ExceptT.bind m f).run.run r) = _
  simp only [ExceptT.bind, ExceptT.mk, outcome, ExceptT.run, StateT.run, bind, StateT.bind]
  cases h : m r with
  | mk out r' => cases out <;> rfl

theorem outcome_unlessStopped (m : Exec σ Unit) (r : Run σ) :
    outcome (unlessStopped m) r = if r.stopped then (.ok (), r) else outcome m r := by
  show outcome (if r.stopped then pure () else m) r = _
  split <;> rfl

end Exec

-- ============================================================================
-- Parts of a pipeline's run
-- ============================================================================

namespace Step

/-- What comes of a part of a pipeline's run from a state, and the state after it. -/
def outcome (m : Step σ α) (r : Run σ) : Except Halt (Except Failure α) × Run σ :=
  m.run.run.run r

theorem outcome_get_bind (f : Run σ → Step σ α) (r : Run σ) :
    outcome (get >>= f) r = outcome (f r) r := rfl

theorem outcome_bind (m : Step σ α) (f : α → Step σ β) (r : Run σ) :
    outcome (m >>= f) r =
      match outcome m r with
      | (.ok (.ok a), r') => outcome (f a) r'
      | (.ok (.error e), r') => (.ok (.error e), r')
      | (.error h, r') => (.error h, r') := by
  show Exec.outcome (ExceptT.bind m f : Step σ β).run r = _
  show Exec.outcome ((m.run : Exec σ (Except Failure α)) >>= ExceptT.bindCont f) r = _
  rw [Exec.outcome_bind]
  cases h : outcome m r with
  | mk out r' =>
    have hm : Exec.outcome (m.run : Exec σ (Except Failure α)) r = (out, r') := h
    rw [hm]
    cases out with
    | error h => rfl
    | ok out => cases out <;> rfl

/-- A part of a run within a pipeline's run ends as it does on its own. -/
theorem outcome_lift (m : Exec σ α) (r : Run σ) :
    outcome (ExceptT.lift m : Step σ α) r =
      match m.outcome r with
      | (.ok a, r') => (.ok (.ok a), r')
      | (.error h, r') => (.error h, r') := by
  show Exec.outcome ((Except.ok : α → Except Failure α) <$> m : Exec σ _) r = _
  rw [map_eq_pure_bind, Exec.outcome_bind]
  cases h : m.outcome r with
  | mk out r' => cases out <;> rfl

end Step

-- ============================================================================
-- Runs of pipelines
-- ============================================================================

/-- The pipeline that a run from a root is accounted to. -/
def RunContext.pipelineOf (ctx : RunContext σ) (root : NodeId) : PipelineId :=
  ((ctx.program.node? root).map (·.pipeline)).getD 0

/-- The state in which the walk of a pipeline starts. -/
def Run.started (r : Run σ) (pipeline : PipelineId) (root : NodeId) : Run σ :=
  (r.count fun m => { m with pipelinesRun := m.pipelinesRun + 1 }).emit (.started pipeline root)

/-- A run of a pipeline is its walk, with a note of how it ended. -/
theorem Exec.outcome_runPipeline (ctx : RunContext σ) (notify : String → Value → Exec σ Unit)
    (root : NodeId) (seed : Option Value) (r : Run σ) :
    (runPipeline ctx notify root seed).outcome r =
      match (Step.walk ctx notify ctx.config.maxSteps root {} seed).outcome
        (r.started (ctx.pipelineOf root) root) with
      | (.ok (.ok value), r') => (.ok (), r'.emit (.completed (ctx.pipelineOf root) value))
      | (.ok (.error failure), r') => (.ok (), r'.fail (ctx.pipelineOf root) failure)
      | (.error h, r') => (.error h, r') := by
  let walk := Step.walk ctx notify ctx.config.maxSteps root {} seed
  show Exec.outcome ((walk.run : Exec σ (Except Failure Value)) >>= _)
    (r.started (ctx.pipelineOf root) root) = _
  rw [outcome_bind]
  cases hout : walk.outcome (r.started (ctx.pipelineOf root) root) with
  | mk out r' =>
    have hrun : Exec.outcome (walk.run : Exec σ (Except Failure Value))
        (r.started (ctx.pipelineOf root) root) = (out, r') := hout
    rw [hrun]
    cases out with
    | error h => rfl
    | ok out => cases out <;> rfl

end Sluice
