import TradingPlatform.Validation.Harness
import TradingPlatform.Validation.Score

/-!
# The validation job

`run_validation_job` loads the bars, builds a runtime whose store, engine and event log it wires to
one another, and runs the harness over the bars. Two flags decide what the run keeps: a run that
does not emit every event logs the execution family only, and only a run that persists its stream
writes events, features and snapshots. Where the bars come from and the defaults of the process are
the environment of a job.
-/

namespace TradingPlatform

/-- `Literal["exchange", "csv"]` -/
inductive DataSource
  | exchange
  | csv
  deriving DecidableEq

/-- What a job finds in its process: the cache of the exchange's bars, the data files (the sample
file without a path), the time, the default configuration and the square root of a float. -/
structure JobEnvironment where
  getOrDownloadCsv : String → String → ℤ → ℤ → Except PyError String
  readCsv : Option String → Except PyError Frame
  now : ℤ
  fillModel : FillModel
  minLookbackBars : ℕ
  sqrt : ℚ → ℚ

/-- The arguments of `run_validation_job`. The dates are the instants their texts stand for; the
engine, the feature builder and the providers are those its overrides select. -/
structure ValidationJob where
  symbol : String
  timeframe : String
  startDate : ℤ
  endDate : Option ℤ := none
  csvPath : Option String := none
  source : DataSource := .exchange
  initialCapital : ℚ := 10000
  persistDb : Bool := true
  persistStream : Bool := false
  retainEvents : Option Bool := none
  experimentId : Option String := none
  revisionId : Option String := none
  engineConfig : EngineConfig
  executionConfig : ValidationExecutionConfig := .default
  maxConsecutiveLosses : Option ℤ := none
  riskLimits : Option RiskLimits := none
  collaborators : ℕ → Collaborators

/-- What a job returns: the cycles it has retained, the event log and the outcome. -/
structure JobResult where
  cycles : List CycleResult
  events : List EventEnvelope
  outcome : ScoredOutcome

namespace ValidationJob

variable (job : ValidationJob) (env : JobEnvironment)

/-! ## Flags -/

/-- `emit_all` -/
def emitAll : Bool :=
  match job.retainEvents with
  | none => job.persistDb
  | some retain => job.persistDb || retain

/-- `persist_stream` after the database flag has been taken into account. -/
def persistsStream : Bool := job.persistDb && job.persistStream

/-- The limits the store of the run is given. -/
def effectiveLimits : RiskLimits :=
  match job.riskLimits, job.maxConsecutiveLosses with
  | some limits, _ => limits
  | none, some losses => {
    maxDailyDrawdownPct := 5
    maxOpenPositions := 3
    maxExposurePct := 50
    maxConsecutiveLosses := losses }
  | none, none => defaultLimits

/-! ## Data -/

/-- The rows of the file that `_resolve_data_csv` finds. -/
def loadRows : Except PyError Frame :=
  match job.source with
  | .csv => env.readCsv job.csvPath
  | .exchange => do
    let path ← env.getOrDownloadCsv job.symbol job.timeframe job.startDate
      (job.endDate.getD env.now)
    env.readCsv (some path)

/-- The CSV provider over the rows of the job, sorted as `_load` sorts them. -/
def dataProvider (rows : Frame) : CsvDataProvider where
  symbol := job.symbol
  timeframe := job.timeframe
  df := rows.insertionSort fun a b => a.timestamp ≤ b.timestamp
  sorted := List.pairwise_insertionSort _ _

/-- The end of the range: a CSV file without an end date is read to its last row. -/
def endTime (df : Frame) : Except PyError ℤ :=
  match job.endDate, job.source with
  | some t, _ => .ok t
  | none, .exchange => .ok env.now
  | none, .csv =>
    match df.getLast? with
    | some last => .ok last.timestamp
    | none => .error .indexError

/-- The provider of the job with the first and the last bar of its range. -/
def loadData : Except PyError (CsvDataProvider × ℤ × ℤ) := do
  let rows ← job.loadRows env
  let provider := job.dataProvider rows
  let endTime ← job.endTime env provider.df
  let timestamps ← provider.timestamps job.symbol job.timeframe job.startDate endTime
  match timestamps with
  | [] => throw (.valueError "No bars in range")
  | start :: rest => return (provider, start, rest.getLastD start)

/-! ## The run -/

/-- How the runtime and its parts are set up. -/
def setup (emitAll : Bool) (start : ℤ) : RuntimeSetup where
  decisionEngine := job.engineConfig
  persistFeatures := job.persistsStream
  emitEvents := emitAll
  initialCash := job.initialCapital
  limits := job.effectiveLimits
  startedAt := env.now
  execution := some {
    fillModel := env.fillModel
    config := job.executionConfig
    emitEvents := emitAll }
  clock := .simulated start (start + seconds 1)

def harness (provider : CsvDataProvider) (start endTime : ℤ) : ValidationHarness where
  dataProvider := provider
  config := {
    symbol := job.symbol
    timeframe := job.timeframe
    start := start
    endTime := endTime
    initialCapital := job.initialCapital }
  revisionId := job.revisionId
  experimentId := job.experimentId
  minLookbackBars := env.minLookbackBars
  isoformat := Calendar.isoformat
  collaborators := job.collaborators

/-- What the event log keeps of the published events. -/
def logged (emitAll : Bool) (events : List EventEnvelope) : List EventEnvelope :=
  if emitAll then events else events.filter (·.eventFamily = .execution)

/-- The harness's run up to its metrics: the cycles over the bars and the liquidation. -/
def drive (h : ValidationHarness) (rt : PlatformRuntime) :
    Except PyError (List CycleResult × PlatformRuntime) := do
  let rt := { rt with published := [] }
  let barTimes ← h.barTimes
  let (cycles, rt) ← h.runBars barTimes.zipIdx rt
  let rt ← rt.liquidateOpenPositions (h.liquidationCall (barTimes.getLastD 0))
  return (cycles, rt)

/-- The run of the job with the `emit_events` flags set as given, and the runtime it leaves. -/
def runEmitting (emitAll : Bool) : Except PyError (JobResult × PlatformRuntime) := do
  let (provider, start, endTime) ← job.loadData env
  let (cycles, rt) ←
    drive (job.harness env provider start endTime) (job.setup env emitAll start).start
  let events := logged emitAll rt.published
  let metrics ←
    computeOutcomeMetrics events job.initialCapital (some rt.stateStore.portfolio.equity)
  return ({
    events
    cycles := if job.persistDb then cycles else []
    outcome := metrics.scored env.sqrt events }, rt)

/-- `run_validation_job` -/
def run : Except PyError (JobResult × PlatformRuntime) := job.runEmitting env job.emitAll

end ValidationJob

/-! ## Jobs on flat bars -/

/-- Days of one flat bar each. -/
def flatDays (days : ℕ) : Frame := (List.range days).map fun (n : ℕ) => .flat (n * 86400000000) 100

/-- An environment whose files hold flat days. -/
def JobEnvironment.flat (fillAt : FillAt) (days : ℕ) : JobEnvironment where
  getOrDownloadCsv _ _ _ _ := .error (.dataProviderError "offline")
  readCsv _ := .ok (flatDays days)
  now := 0
  fillModel := { modelId := "no_cost", fillAt }
  minLookbackBars := 0
  sqrt x := x

theorem ValidationExecutionConfig.tenth_mem : (0 : ℚ) ≤ 10 ∧ (10 : ℚ) ≤ 100 := by norm_num

/-- Trade with a tenth of the equity. -/
def ValidationExecutionConfig.tenth : ValidationExecutionConfig :=
  { ValidationExecutionConfig.default with
    exposurePctPerTrade := 10, exposurePctPerTrade_mem := tenth_mem }

/-- Up to its metrics a run of the harness is what a job drives. -/
theorem ValidationHarness.run_eq (h : ValidationHarness) (rt : PlatformRuntime) :
    h.run rt = (do
      let (cycles, rt) ← ValidationJob.drive h rt
      let outcomeMetrics ← computeOutcomeMetrics rt.published h.config.initialCapital
        (some rt.stateStore.portfolio.equity)
      return ({ cycles, events := rt.published, outcomeMetrics }, rt)) := by
  simp only [run, ValidationJob.drive, bind_assoc, pure_bind]

end TradingPlatform
