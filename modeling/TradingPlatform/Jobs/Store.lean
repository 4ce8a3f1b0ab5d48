import TradingPlatform.Contracts
import TradingPlatform.Lib.Dict

/-!
# Job records

A `Job` is the object a process works on, a `JobRecord` what the persistence holds of it. Sweeps and
validation jobs have the same record but for what a result and a trial are, which a `JobKind` says;
a `JobExecutor` adds what the executor of that kind writes into the job as it goes.
-/

namespace TradingPlatform

inductive JobStatus
  | pending
  | running
  | completed
  | failed
  | cancelled
  deriving DecidableEq

/-- `ACTIVE_STATUSES` -/
def JobStatus.active : JobStatus → Bool
  | .pending | .running => true
  | .completed | .failed | .cancelled => false

/-- How many trial snapshots the record of an active sweep keeps. -/
def activeLiveTrialCap : ℕ := 20

/-- What a kind of job is run with and what it yields. -/
structure JobKind where
  Config : Type
  Result : Type
  Snapshot : Type
  Trial : Type
  TrialSnapshot : Type
  resultToDict : Result → Snapshot
  trialToDict : Trial → TrialSnapshot

/-- Jobs whose configuration, result and trials carry no data. -/
def JobKind.bare : JobKind := ⟨Unit, Unit, Unit, Unit, Unit, fun r => r, fun t => t⟩

structure Job (K : JobKind) where
  id : ℕ
  status : JobStatus
  config : K.Config
  result : Option K.Result := none
  resultSnapshot : Option K.Snapshot := none
  error : Option String := none
  phase : String := ""
  message : String := ""
  progressCurrent : ℤ := 0
  progressTotal : ℤ := 0
  liveTrials : List K.Trial := []
  liveTrialSnapshots : List K.TrialSnapshot := []
  cancelRequested : Bool := false
  createdAt : ℤ
  updatedAt : ℤ

/-- A job as it is persisted. -/
structure JobRecord (K : JobKind) where
  id : ℕ
  status : JobStatus
  config : K.Config
  error : Option String
  phase : String
  message : String
  progressCurrent : ℤ
  progressTotal : ℤ
  cancelRequested : Bool
  createdAt : ℤ
  updatedAt : ℤ
  resultSnapshot : Option K.Snapshot
  liveTrialSnapshots : List K.TrialSnapshot

namespace Job

variable {K : JobKind}

/-- `create` -/
def create (id : ℕ) (config : K.Config) (now : ℤ) : Job K :=
  { id, status := .pending, config, createdAt := now, updatedAt := now }

/-- `_serialize` -/
def serialize (job : Job K) : JobRecord K :=
  let snapshot := job.resultSnapshot <|> job.result.map K.resultToDict
  let live := if job.liveTrialSnapshots = [] then job.liveTrials.map K.trialToDict
    else job.liveTrialSnapshots
  { id := job.id
    status := job.status
    config := job.config
    error := job.error
    phase := job.phase
    message := job.message
    progressCurrent := job.progressCurrent
    progressTotal := job.progressTotal
    cancelRequested := job.cancelRequested
    createdAt := job.createdAt
    updatedAt := job.updatedAt
    resultSnapshot := snapshot
    liveTrialSnapshots := if job.status.active then live.rtake activeLiveTrialCap else live }

/-- What `update` does to the job before it persists it. -/
def stamp (now : ℤ) (job : Job K) : Job K :=
  { job with
    updatedAt := now
    resultSnapshot := job.result.map K.resultToDict <|> job.resultSnapshot
    liveTrialSnapshots := if job.liveTrials = [] then job.liveTrialSnapshots
      else job.liveTrials.map K.trialToDict }

/-- What `request_cancel` does to an active job. -/
def requestCancel (job : Job K) : Job K :=
  { job with cancelRequested := true, message := "Cancel requested…" }

@[simp] theorem serialize_status (job : Job K) : job.serialize.status = job.status := rfl

@[simp] theorem serialize_cancelRequested (job : Job K) :
    job.serialize.cancelRequested = job.cancelRequested := rfl

@[simp] theorem stamp_status (now : ℤ) (job : Job K) : (job.stamp now).status = job.status := rfl

@[simp] theorem stamp_cancelRequested (now : ℤ) (job : Job K) :
    (job.stamp now).cancelRequested = job.cancelRequested := rfl

@[simp] theorem requestCancel_status (job : Job K) : job.requestCancel.status = job.status := rfl

@[simp] theorem requestCancel_cancelRequested (job : Job K) :
    job.requestCancel.cancelRequested = true := rfl

end Job

namespace JobRecord

variable {K : JobKind}

/-- `_hydrate`. A job that was active when the process holding it stopped is failed. -/
def hydrate (orphanActive : Bool) (record : JobRecord K) : Job K :=
  let orphan := orphanActive && record.status.active
  { id := record.id
    status := if orphan then .failed else record.status
    config := record.config
    resultSnapshot := record.resultSnapshot
    error := if orphan then orText record.error "Job interrupted by server restart"
      else record.error
    phase := record.phase
    message := if orphan then orText record.message "Interrupted by server restart."
      else record.message
    progressCurrent := record.progressCurrent
    progressTotal := record.progressTotal
    liveTrialSnapshots := record.liveTrialSnapshots
    cancelRequested := if orphan then false else record.cancelRequested
    createdAt := record.createdAt
    updatedAt := record.updatedAt }

@[simp] theorem hydrate_status (record : JobRecord K) :
    (record.hydrate false).status = record.status := rfl

@[simp] theorem hydrate_cancelRequested (record : JobRecord K) :
    (record.hydrate false).cancelRequested = record.cancelRequested := rfl

/-- `get` of a queue-backed job: the persisted record, with the result and the live trials this
process has of it. -/
def load (record : JobRecord K) (here : Option (Job K)) : Job K :=
  let hydrated := record.hydrate false
  match here with
  | none => hydrated
  | some here =>
    { hydrated with
      result := here.result
      liveTrials := here.liveTrials }

@[simp] theorem load_status (record : JobRecord K) (here : Option (Job K)) :
    (record.load here).status = record.status := by cases here <;> rfl

@[simp] theorem load_cancelRequested (record : JobRecord K) (here : Option (Job K)) :
    (record.load here).cancelRequested = record.cancelRequested := by cases here <;> rfl

end JobRecord

/-! ## Executors -/

/-- What the executor of a kind of job writes into it: before the run, at a progress event, and when
the run has returned, has been cancelled or has raised. None of them touches the cancel flag. -/
structure JobExecutor (K : JobKind) where
  Event : Type
  begin : Job K → Job K
  report : Event → Job K → Job K
  complete : K.Result → Job K → Job K
  cancel : Job K → Job K
  fail : String → Job K → Job K
  begin_status : ∀ job, (begin job).status = .running
  report_status : ∀ event job, (report event job).status = job.status
  complete_status : ∀ result job, (complete result job).status = .completed
  cancel_status : ∀ job, (cancel job).status = .cancelled
  fail_status : ∀ error job, (fail error job).status = .failed
  begin_cancelRequested : ∀ job, (begin job).cancelRequested = job.cancelRequested
  report_cancelRequested : ∀ event job, (report event job).cancelRequested = job.cancelRequested

/-- How a run of `run_optimization` or `run_validation_job` ends, as the executor sees it. -/
inductive RunOutcome (R : Type)
  | returned (result : R)
  | cancelled
  | raised (error : String)

/-- How a run ends in which `on_progress` has raised `JobCancelled`: of several trials running in
parallel, another may have raised first. -/
def RunOutcome.afterCancel {R : Type} : RunOutcome R → RunOutcome R
  | .raised error => .raised error
  | .returned _ | .cancelled => .cancelled

/-- The `except` clauses of an executor. -/
def JobExecutor.finish {K : JobKind} (E : JobExecutor K) (outcome : RunOutcome K.Result)
    (job : Job K) : Job K :=
  match outcome with
  | .returned result => E.complete result job
  | .cancelled => E.cancel job
  | .raised error => E.fail error job

theorem JobExecutor.finish_active {K : JobKind} (E : JobExecutor K)
    (outcome : RunOutcome K.Result) (job : Job K) :
    (E.finish outcome job).status.active = false := by
  cases outcome with
  | returned result => rw [finish, E.complete_status]; rfl
  | cancelled => rw [finish, E.cancel_status]; rfl
  | raised error => rw [finish, E.fail_status]; rfl

/-! ### Optimization sweeps -/

inductive SweepPhase
  | train
  | test
  | refine
  deriving DecidableEq

def SweepPhase.text : SweepPhase → String
  | .train => "train"
  | .test => "test"
  | .refine => "refine"

inductive SweepStage
  | start
  | done
  deriving DecidableEq

/-- `ProgressEvent` -/
structure SweepProgress (T : Type) where
  current : ℤ
  total : ℤ
  phase : SweepPhase
  stage : SweepStage
  trial : Option T := none
  trainCount : ℤ := 0
  testCount : ℤ := 0
  detail : String := ""

/-- The message `on_progress` of a sweep writes. -/
def SweepProgress.message {T : Type} (event : SweepProgress T) : String :=
  let doneTest := max 0 (event.current - event.trainCount)
  match event.phase, event.stage with
  | .test, .start =>
    s!"Validating top candidate {doneTest + 1} of {event.testCount} on held-out test data…"
  | .test, .done => s!"Validated {doneTest} of {event.testCount} finalists."
  | phase, .start =>
    let label := if phase = .refine then "Refining" else "Training"
    orText event.detail
      s!"{label} candidate {event.current + 1} of {event.trainCount} on in-sample data…"
  | _, .done => s!"Finished evaluating candidate {event.current} of {event.trainCount}."

/-- `execute_optimization_sweep` -/
def optimizationExecutor (K : JobKind) : JobExecutor K where
  Event := SweepProgress K.Trial
  begin job := { job with status := .running }
  report event job :=
    { job with
      progressCurrent := event.current
      progressTotal := event.total
      phase := event.phase.text
      message := event.message
      liveTrials := if event.phase ≠ .test ∧ event.stage = .done
        then job.liveTrials ++ event.trial.toList else job.liveTrials }
  complete result job := { job with result := some result, status := .completed }
  cancel job :=
    { job with status := .cancelled, message := "Optimization cancelled.", error := none }
  fail error job := { job with status := .failed, error := some error }
  begin_status _ := rfl
  report_status _ _ := rfl
  complete_status _ _ := rfl
  cancel_status _ := rfl
  fail_status _ _ := rfl
  begin_cancelRequested _ := rfl
  report_cancelRequested _ _ := rfl

/-! ### Validation jobs -/

/-- `ValidationProgressEvent` -/
structure ValidationProgress where
  phase : String
  message : String
  current : ℤ := 0
  total : ℤ := 0

/-- `execute_validation_job` -/
def validationExecutor (K : JobKind) : JobExecutor K where
  Event := ValidationProgress
  begin job := { job with status := .running, message := "Starting validation job…" }
  report event job :=
    { job with
      phase := event.phase
      message := event.message
      progressCurrent := event.current
      progressTotal := event.total }
  complete result job :=
    { job with
      result := some result
      status := .completed
      message := "Validation completed." }
  cancel job :=
    { job with status := .cancelled, message := "Validation cancelled.", error := none }
  fail error job := { job with status := .failed, error := some error, message := error }
  begin_status _ := rfl
  report_status _ _ := rfl
  complete_status _ _ := rfl
  cancel_status _ := rfl
  fail_status _ _ := rfl
  begin_cancelRequested _ := rfl
  report_cancelRequested _ _ := rfl

end TradingPlatform
