import TradingPlatform.Lib.Rounding
import TradingPlatform.Validation.Job
import TradingPlatform.Validation.Scoring

/-!
# The optimization run

`run_optimization` splits the range into training, test and holdout periods, scores the trials of a
search on the training period, tests the best of them and runs the winner once over the holdout
period. Each trial is a validation job that keeps nothing. The search for parameters and what the
parameters of a trial stand for are given with the call.
-/

namespace TradingPlatform

/-! ## Periods -/

/-- A share of a span of time, to the microsecond. `total_seconds()` is a float, so a share that ends
in half a microsecond may be rounded the other way. -/
def shareOf (span : ℤ) (ratio : ℚ) : ℤ := roundHalfEven ((span : ℚ) * ratio)

/-- `split_train_test` -/
def splitTrainTest (start endTime : ℤ) (trainRatio : ℚ) :
    Except PyError ((ℤ × ℤ) × (ℤ × ℤ)) := do
  if ¬ (0 < trainRatio ∧ trainRatio < 1) then
    throw (.valueError "train_ratio must be between 0 and 1")
  if endTime - start ≤ 0 then throw (.valueError "end must be after start")
  let trainEnd := start + shareOf (endTime - start) trainRatio
  return ((start, trainEnd), (trainEnd, endTime))

/-- `split_holdout` -/
def splitHoldout (start endTime : ℤ) (holdoutRatio : ℚ) :
    Except PyError ((ℤ × ℤ) × Option (ℤ × ℤ)) := do
  if holdoutRatio ≤ 0 then return ((start, endTime), none)
  if ¬ (0 < holdoutRatio ∧ holdoutRatio < 1) then
    throw (.valueError "holdout_ratio must be between 0 and 1")
  if endTime - start ≤ 0 then throw (.valueError "end must be after start")
  let optEnd := start + shareOf (endTime - start) (1 - holdoutRatio)
  return ((start, optEnd), some (optEnd, endTime))

structure WalkForwardWindow where
  index : ℕ
  trainStart : ℤ
  trainEnd : ℤ
  testStart : ℤ
  testEnd : ℤ
  deriving DecidableEq

/-- Windows of equal size, each split at the ratio. `trainStart` is where a window that starts at
the given time begins to train. -/
def buildWindows (trainStart : ℤ → ℤ) (start endTime : ℤ) (windows : ℕ) (trainRatio : ℚ) :
    Except PyError (List WalkForwardWindow) := do
  if windows < 1 then throw (.valueError "windows must be >= 1")
  if ¬ (0 < trainRatio ∧ trainRatio < 1) then
    throw (.valueError "train_ratio must be between 0 and 1")
  if endTime - start ≤ 0 then throw (.valueError "end must be after start")
  let windowSize : ℤ := roundHalfEven (((endTime - start : ℤ) : ℚ) / windows)
  return (List.range windows).map fun (i : ℕ) =>
    let wStart := start + windowSize * (i : ℤ)
    let wEnd := start + windowSize * ((i : ℤ) + 1)
    let trainEnd := wStart + shareOf (wEnd - wStart) trainRatio
    { index := i
      trainStart := trainStart wStart
      trainEnd := trainEnd
      testStart := trainEnd
      testEnd := wEnd }

/-- `build_walk_forward_windows` -/
def buildWalkForwardWindows (start endTime : ℤ) (windows : ℕ) (trainRatio : ℚ) :
    Except PyError (List WalkForwardWindow) :=
  buildWindows (fun wStart => wStart) start endTime windows trainRatio

/-- `build_anchored_walk_forward_windows` -/
def buildAnchoredWalkForwardWindows (start endTime : ℤ) (windows : ℕ) (trainRatio : ℚ) :
    Except PyError (List WalkForwardWindow) :=
  buildWindows (fun _ => start) start endTime windows trainRatio

/-! ## Calls -/

/-- What the parameters of a trial stand for. The features and the providers may depend on the range
the trial runs over. -/
structure TrialSpace (Params : Type) where
  engineConfig : Params → EngineConfig
  executionConfig : Params → ValidationExecutionConfig
  collaborators : Params → ℤ → ℤ → ℕ → Collaborators
  revisionId : Params → String
  minAgreeingProviders : Params → ℤ

/-- The parameters to try: given at once, or asked for one by one with the scores so far. -/
inductive TrialSearch (Params : Type)
  | batch (trials : List Params)
  | adaptive (maxTrials : ℕ) (ask : List (Params × ℚ) → Option Params)

structure OptimizationEnvironment extends JobEnvironment where
  floatText : ℚ → String

/-- The arguments of `run_optimization`. -/
structure OptimizationCall (Params : Type) where
  symbol : String
  timeframe : String
  start : ℤ
  endTime : ℤ
  source : DataSource := .csv
  initialCapital : ℚ := 10000
  trainRatio : ℚ := 7 / 10
  search : TrialSearch Params
  topK : ℕ := 5
  space : TrialSpace Params
  csvPath : Option String := none
  minTrades : ℤ := 20
  minReturnPct : ℚ := 0
  holdoutRatio : ℚ := 2 / 10
  walkForwardWindows : ℕ := 1
  anchored : Bool := true
  /-- `refine_trials_around`, or nothing when `local_refine` is off. -/
  refine : List Params → List Params
  minTradesHoldout : Option ℤ := none

/-- The midnight before a time. -/
def midnight (t : ℤ) : ℤ := date t * 86400000000

namespace OptimizationCall

variable {Params : Type} (call : OptimizationCall Params) (env : OptimizationEnvironment)

/-! ## Trials -/

/-- The job of `_run_trial`. -/
def trialJob (params : Params) (range : ℤ × ℤ) : ValidationJob where
  symbol := call.symbol
  timeframe := call.timeframe
  startDate := midnight range.1
  endDate := some (midnight range.2)
  csvPath := call.csvPath
  source := call.source
  initialCapital := call.initialCapital
  persistDb := false
  revisionId := some (call.space.revisionId params)
  engineConfig := call.space.engineConfig params
  executionConfig := call.space.executionConfig params
  collaborators := call.space.collaborators params range.1 range.2

/-- `_run_trial`: the score of a trial over a range, and its outcome. -/
def runTrial (params : Params) (range : ℤ × ℤ) : Except PyError (ℚ × ScoredOutcome) := do
  let (result, _) ← (call.trialJob params range).run env.toJobEnvironment
  return (result.outcome.optimizationScore, result.outcome)

/-- The score of a trial over a period, with those of its folds. -/
structure TrialScore where
  score : ℚ
  outcome : ScoredOutcome
  foldScores : List ℚ := []
  foldStd : Option ℚ := none

/-- `_score_trial_windows` -/
def scoreTrialWindows (segment : WalkForwardWindow → ℤ × ℤ) (first : WalkForwardWindow)
    (rest : List WalkForwardWindow) (params : Params) : Except PyError TrialScore := do
  let run ← call.runTrial env params (segment first)
  let runs ← rest.mapM fun window => call.runTrial env params (segment window)
  let scores := (run :: runs).map Prod.fst
  let (meanScore, foldStd) := foldSpread env.sqrt scores
  return {
    score := meanScore
    outcome := aggregateFoldOutcomes run.2 (runs.map Prod.snd)
    foldScores := scores
    foldStd := some foldStd }

/-- Score a trial over a period, or over that segment of each window where there are windows. -/
def scoreTrial (windows : List WalkForwardWindow) (segment : WalkForwardWindow → ℤ × ℤ)
    (range : ℤ × ℤ) (params : Params) : Except PyError TrialScore :=
  match windows with
  | [] => do
    let (score, outcome) ← call.runTrial env params range
    return { score, outcome }
  | first :: rest => call.scoreTrialWindows env segment first rest params

/-- The periods a run trains and tests on, and its windows. -/
structure Periods where
  windows : List WalkForwardWindow
  train : ℤ × ℤ
  test : ℤ × ℤ
  deriving DecidableEq

/-- The periods inside the range that is optimized on. With windows they span all of them. -/
def periods (optStart optEnd : ℤ) : Except PyError Periods := do
  let windows ← if 1 < call.walkForwardWindows then
      if call.anchored then
        buildAnchoredWalkForwardWindows optStart optEnd call.walkForwardWindows call.trainRatio
      else buildWalkForwardWindows optStart optEnd call.walkForwardWindows call.trainRatio
    else pure []
  match windows with
  | [] => do
    let (train, test) ← splitTrainTest optStart optEnd call.trainRatio
    return { windows, train, test }
  | first :: rest =>
    let trainEnd := (rest.map (·.trainEnd)).foldl max first.trainEnd
    let testStart := (rest.map (·.testStart)).foldl min first.testStart
    return {
      windows
      train := (first.trainStart, trainEnd)
      test := (testStart, (rest.getLastD first).testEnd) }

/-- `_train_one` -/
def trainOne (p : Periods) (params : Params) (trialId : ℕ) :
    Except PyError (TrialResult Params) := do
  let score ← call.scoreTrial env p.windows (fun w => (w.trainStart, w.trainEnd)) p.train params
  return {
    trialId, params
    trainScore := score.score
    trainOutcome := score.outcome
    revisionId := some (call.space.revisionId params)
    foldScores := score.foldScores
    foldStd := score.foldStd }

/-- `run_optuna_trials` -/
def trainAdaptive (p : Periods) (ask : List (Params × ℚ) → Option Params) :
    ℕ → List (TrialResult Params) → Except PyError (List (TrialResult Params))
  | 0, trials => return trials
  | n + 1, trials =>
    match ask (trials.map fun trial => (trial.params, trial.trainScore)) with
    | none => return trials
    | some params => do
      let trial ← call.trainOne env p params trials.length
      trainAdaptive p ask n (trials ++ [trial])

/-- The trials of the search, trained. -/
def trainAll (p : Periods) : Except PyError (List (TrialResult Params)) :=
  match call.search with
  | .batch trials => trials.zipIdx.mapM fun (params, index) => call.trainOne env p params index
  | .adaptive maxTrials ask => call.trainAdaptive env p ask maxTrials []

/-- The order of the finalists: the best training score first. -/
def ranked (trials : List (TrialResult Params)) : List (TrialResult Params) :=
  trials.insertionSort fun a b => b.trainScore ≤ a.trainScore

/-- The trials with the refinements of the first finalists added, and the finalists. -/
def refineFinalists (p : Periods) (trials : List (TrialResult Params)) :
    Except PyError (List (TrialResult Params) × List (TrialResult Params)) := do
  let finalists := (ranked trials).take call.topK
  if finalists = [] then return (trials, [])
  let refineParams := call.refine ((finalists.take 3).map (·.params))
  let refined ← (refineParams.zipIdx trials.length).mapM fun (params, index) =>
    call.trainOne env p params index
  return (trials ++ refined, (ranked (finalists ++ refined)).take call.topK)

/-- The test of a finalist. -/
def testOne (p : Periods) (trial : TrialResult Params) : Except PyError (TrialResult Params) := do
  let score ← call.scoreTrial env p.windows (fun w => (w.testStart, w.testEnd)) p.test trial.params
  let trial := { trial with
    foldScores := if p.windows = [] then trial.foldScores else score.foldScores
    foldStd := if p.windows = [] then trial.foldStd else score.foldStd
    testScore := some score.score
    testOutcome := some score.outcome
    stability := some (computeStability score.outcome) }
  return { trial with
    compositeScore := some (compositeScore trial call.minTrades call.minReturnPct) }

/-! ## The run -/

/-- The data source and file of the trials: bars of the exchange are fetched once. -/
def resolved : Except PyError (OptimizationCall Params) :=
  match call.source, call.csvPath with
  | .exchange, none => do
    let path ← env.getOrDownloadCsv call.symbol call.timeframe call.start call.endTime
    return { call with source := .csv, csvPath := some path }
  | _, _ => return call

/-- The trades the holdout period needs. -/
def holdoutMinTrades : ℤ := call.minTradesHoldout.getD (max 1 (call.minTrades / 2))

/-- What is known of a sweep before the holdout run. -/
def selection (p : Periods) (trials finalists : List (TrialResult Params)) :
    OptimizationResult Params :=
  let (finalists, best) := selectBest finalists call.minTrades call.minReturnPct
  { symbol := call.symbol
    timeframe := call.timeframe
    trainStart := p.train.1
    trainEnd := p.train.2
    testStart := p.test.1
    testEnd := p.test.2
    trials := trials.map fun trial => (finalists.find? (·.trialId = trial.trialId)).getD trial
    best
    bestValid := best.isSome
    selectionMessage := if best.isNone ∧ finalists ≠ [] then
      some (buildSelectionMessage env.floatText call.space.minAgreeingProviders finalists
        call.minTrades call.minReturnPct) else none
    fallbackTrial := if best.isNone then finalists.argmax trialTestTrades else none }

/-- The message of a failed holdout check. -/
def holdoutMessage (outcome : ScoredOutcome) : String :=
  "Holdout check failed: " ++ toString outcome.totalTrades ++ " trades, " ++
    fixedText 2 outcome.returnPct ++ "% return (need >=" ++ toString call.holdoutMinTrades ++
    " trades and >=" ++ env.floatText call.minReturnPct ++ "% return). " ++
    "Pass use_fallback=true to apply the closest candidate."

/-- The result with the holdout run of the winner. -/
def withHoldout (result : OptimizationResult Params) (finalists : List (TrialResult Params))
    (run : ℚ × ScoredOutcome) : OptimizationResult Params :=
  let (score, outcome) := run
  let valid : Bool := call.holdoutMinTrades ≤ outcome.totalTrades ∧
    call.minReturnPct ≤ outcome.returnPct
  let result := { result with
    holdoutScore := some score, holdoutOutcome := some outcome, holdoutValid := valid }
  if result.bestValid ∧ ¬ valid then { result with
    bestValid := false
    selectionMessage := some (match result.selectionMessage with
      | some message => message ++ " " ++ call.holdoutMessage env outcome
      | none => call.holdoutMessage env outcome)
    fallbackTrial := result.fallbackTrial <|> finalists.argmax trialTestTrades }
  else result

/-- The end of `run_optimization`: the winner is run over the holdout period, if there are both. -/
def holdOut (result : OptimizationResult Params) (finalists : List (TrialResult Params)) :
    Option (ℤ × ℤ) → Except PyError (OptimizationResult Params)
  | none => return result
  | some range =>
    match result.best with
    | none => return result
    | some best => do
      let run ← call.runTrial env best.params range
      return call.withHoldout env result finalists run

/-- `run_optimization` -/
def run : Except PyError (OptimizationResult Params) := do
  let ((optStart, optEnd), holdout) ← splitHoldout call.start call.endTime call.holdoutRatio
  let call ← call.resolved env
  let p ← call.periods optStart optEnd
  let trials ← call.trainAll env p
  let (trials, finalists) ← call.refineFinalists env p trials
  let finalists ← finalists.mapM (call.testOne env p)
  let result := { call.selection env p trials finalists with
    holdoutStart := holdout.map Prod.fst
    holdoutEnd := holdout.map Prod.snd
    optimizationEnd := some optEnd }
  -- `select_best` writes the scores and ranks into the finalists.
  call.holdOut env result (selectBest finalists call.minTrades call.minReturnPct).1 holdout

end OptimizationCall

end TradingPlatform
