import TradingPlatform.Jobs.Store
import TradingPlatform.Lib.Tracked
import TradingPlatform.Validation.ParallelTrials

/-!
# The progress of an optimization

`run_optimization` reports the steps it has made out of a total it has estimated before: the
trainings that have ended, then the refinements and the tests. The trials of a batch train as tasks
and report their bars as they go, each under the step it has started at; an adaptive search trains
one trial after the other.
-/

namespace TradingPlatform

variable {Params : Type}

/-! ## Events -/

/-- The numbers a run announces with its events. -/
structure SweepPlan where
  totalSteps : ℕ
  nTrain : ℕ
  nTest : ℕ

namespace SweepPlan

variable (plan : SweepPlan)

def event (phase : SweepPhase) (stage : SweepStage) (current : ℕ)
    (trial : Option (TrialResult Params)) (detail : String := "") :
    SweepProgress (TrialResult Params) where
  current := current
  total := plan.totalSteps
  phase := phase
  stage := stage
  trial := trial
  trainCount := plan.nTrain
  testCount := plan.nTest
  detail := detail

/-- The event of a trial that begins its training. -/
def trainStart (index startStep : ℕ) : SweepProgress (TrialResult Params) :=
  plan.event .train .start startStep none
    s!"Training candidate {index + 1} of {plan.nTrain} on in-sample data…"

/-- The event of a trial in training, with the progress of its validation run. -/
def trainBar (index startStep : ℕ) (progress : ValidationProgress) :
    SweepProgress (TrialResult Params) :=
  plan.event .train .start startStep none
    s!"Training candidate {index + 1} of {plan.nTrain} — bar {progress.current}/{progress.total}"

end SweepPlan

namespace OptimizationCall

/-- The plan for a number of trials to train. -/
def plan (call : OptimizationCall Params) (localRefine : Bool) (nTrain : ℕ) : SweepPlan :=
  let nTest := min call.topK nTrain
  { totalSteps := nTrain + nTest + if localRefine ∧ 0 < nTrain then min 9 nTrain else 0
    nTrain, nTest }

/-- The refinements of the best finalists. -/
def refineParams (call : OptimizationCall Params) (localRefine : Bool)
    (finalists : List (TrialResult Params)) : List Params :=
  if localRefine ∧ finalists ≠ [] then call.refine ((finalists.take 3).map (·.params)) else []

namespace Opening

variable (o : Opening Params) (env : OptimizationEnvironment) (plan : SweepPlan)

/-- `validation_progress`: a trial on windows is not listened to. -/
def barEvent (index startStep : ℕ) (progress : ValidationProgress) :
    Option (SweepProgress (TrialResult Params)) :=
  if o.periods.windows ≠ [] ∨ progress.phase ≠ "backtest" ∨ progress.total ≤ 0 then none
  else some (plan.trainBar index startStep progress)

/-! ## The training of a batch -/

/-- What happens next in the training of a batch: a step of its tasks, or a report of the validation
run of the trial at a place. -/
inductive TrainEvent
  | task (event : Tasks.Event)
  | report (place : ℕ) (progress : ValidationProgress)

/-- The tasks of a training, the `start_step` of each that runs and the events so far. Tasks go on
after a failure until it has come to the run. -/
structure Training (Params : Type) where
  tasks : Tasks.Pool Params (TrialResult Params) PyError
  startSteps : List ℕ := []
  failed : Option PyError := none
  emitted : List (SweepProgress (TrialResult Params)) := []

/-- `_train_one` as a task of the batch. -/
def trainStep (places : ℕ) (s : Training Params) : TrainEvent → Option (Training Params)
  | .task .acquire => do
    let (_, index) ← s.tasks.waiting.head?
    let tasks ← s.tasks.step (o.work env) places .acquire
    let startStep := s.tasks.ended.length
    return { s with
      tasks
      startSteps := s.startSteps ++ [startStep]
      emitted := s.emitted ++ [plan.trainStart index startStep] }
  | .task (.complete place) => do
    let (_, index) ← s.tasks.running[place]?
    let tasks ← s.tasks.step (o.work env) places (.complete place)
    let startSteps := s.startSteps.eraseIdx place
    match tasks.raised with
    | none =>
      let trial := (tasks.results[index]?).join
      return { s with
        tasks
        startSteps
        emitted := s.emitted ++ [plan.event .train .done tasks.ended.length trial] }
    | some e =>
      return { s with
        tasks := { tasks with raised := none }
        startSteps
        failed := s.failed <|> some e }
  | .report place progress => do
    let (_, index) ← s.tasks.running[place]?
    let startStep ← s.startSteps[place]?
    return { s with emitted := s.emitted ++ (o.barEvent plan index startStep progress).toList }

/-- The training after some events, if these can happen in their order. -/
def trainAfter (places : ℕ) (s : Training Params) (schedule : List TrainEvent) :
    Option (Training Params) :=
  schedule.foldlM (o.trainStep env plan places) s

/-! ## The training of an adaptive search -/

/-- The events of a trial that trains alone, until it ends. -/
def begun (index : ℕ) (progress : List ValidationProgress) :
    List (SweepProgress (TrialResult Params)) :=
  plan.trainStart index index :: progress.filterMap (o.barEvent plan index index)

/-- `run_optuna_trials`, with `reports index` what the validation run of a trial reports. -/
def trackAdaptive (ask : List (Params × ℚ) → Option Params)
    (reports : ℕ → List ValidationProgress) : ℕ → List (TrialResult Params) →
      List (SweepProgress (TrialResult Params)) × Except PyError (List (TrialResult Params))
  | 0, trials => ([], .ok trials)
  | n + 1, trials =>
    match ask (trials.map fun trial => (trial.params, trial.trainScore)) with
    | none => ([], .ok trials)
    | some params =>
      let index := trials.length
      let begun := o.begun plan index (reports index)
      match o.work env index params with
      | .error e => (begun, .error e)
      | .ok trial =>
        let (events, trained) := trackAdaptive ask reports n (trials ++ [trial])
        (begun ++ plan.event .train .done (index + 1) (some trial) :: events, trained)

/-! ## The run -/

/-- The refinements of the finalists, trained one after the other. -/
def trackRefinements (localRefine : Bool) (completed : ℕ)
    (trials finalists : List (TrialResult Params)) :
    List (SweepProgress (TrialResult Params)) × Except PyError (List (TrialResult Params)) :=
  Tracking.tracked
    (fun step _ => plan.event .refine .start step none)
    (fun (params, index) => o.work env index params)
    (fun step trial => plan.event .refine .done step (some trial))
    completed ((o.call.refineParams localRefine finalists).zipIdx trials.length)

/-- The tests of the finalists. -/
def trackTests (completed : ℕ) (finalists : List (TrialResult Params)) :
    List (SweepProgress (TrialResult Params)) × Except PyError (List (TrialResult Params)) :=
  let plan := { plan with nTest := finalists.length }
  Tracking.tracked
    (fun step trial => plan.event .test .start step (some trial))
    (o.call.testOne env o.periods)
    (fun step trial => plan.event .test .done step (some trial))
    completed finalists

/-- What follows the training: the events, and the trials with the refinements and the tested
finalists. -/
def trackFinalists (localRefine : Bool) (completed : ℕ) (trials : List (TrialResult Params)) :
    List (SweepProgress (TrialResult Params)) ×
      Except PyError (List (TrialResult Params) × List (TrialResult Params)) :=
  let finalists := (ranked trials).take o.call.topK
  match o.trackRefinements env plan localRefine completed trials finalists with
  | (refineEvents, .error e) => (refineEvents, .error e)
  | (refineEvents, .ok refined) =>
    let finalists := if localRefine ∧ finalists ≠ [] then
      (ranked (finalists ++ refined)).take o.call.topK else finalists
    let (testEvents, tested) := o.trackTests env plan (completed + refined.length) finalists
    (refineEvents ++ testEvents, tested.map (trials ++ refined, ·))

end Opening

/-- The events of a run so far, the trials of the search once they are trained, and what the run
has come to after its tests. -/
structure SweepCourse (Params : Type) where
  events : List (SweepProgress (TrialResult Params))
  trained : Option (List (TrialResult Params)) := none
  outcome : Option (Except PyError (List (TrialResult Params) × List (TrialResult Params))) := none

def Opening.continued (o : Opening Params) (env : OptimizationEnvironment) (plan : SweepPlan)
    (localRefine : Bool) (completed : ℕ) (trials : List (TrialResult Params))
    (events : List (SweepProgress (TrialResult Params))) : SweepCourse Params :=
  let (later, outcome) := o.trackFinalists env plan localRefine completed trials
  { events := events ++ later, trained := some trials, outcome := some outcome }

/-- A run of `run_optimization` with the events it emits. The training of a batch takes the order of
the schedule, if it can; the trials of an adaptive search report what is given for each. -/
def track (call : OptimizationCall Params) (env : OptimizationEnvironment) (localRefine : Bool)
    (maxParallelTrials : ℤ) (schedule : List Opening.TrainEvent)
    (reports : ℕ → List ValidationProgress) : Option (SweepCourse Params) :=
  match call.opening env with
  | .error e => some { events := [], outcome := some (.error e) }
  | .ok o =>
    match o.call.search with
    | .batch trials => do
      let plan := o.call.plan localRefine trials.length
      let training ← o.trainAfter env plan (max 1 maxParallelTrials).toNat
        { tasks := Tasks.Pool.start trials } schedule
      match training.failed, training.tasks.outcome with
      | some e, _ => return { events := training.emitted, outcome := some (.error e) }
      | none, some (.ok trained) =>
        return o.continued env plan localRefine training.tasks.ended.length trained training.emitted
      | none, _ => return { events := training.emitted }
    | .adaptive maxTrials ask =>
      match o.trackAdaptive env (o.call.plan localRefine maxTrials) ask reports maxTrials [] with
      | (events, .error e) => some { events, outcome := some (.error e) }
      | (events, .ok trials) =>
        some (o.continued env (o.call.plan localRefine trials.length) localRefine trials.length
          trials events)

end OptimizationCall

end TradingPlatform
