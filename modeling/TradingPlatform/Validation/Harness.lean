import TradingPlatform.Data.CsvProvider
import TradingPlatform.Runtime.Platform
import TradingPlatform.Validation.Metrics

/-!
# The validation harness

`ValidationHarness.run` drives the runtime over the bars of a file, closes what is still open at the
last bar and computes the outcome metrics from the events of the run and the store's equity. A cycle
that raises ends the run. The number of bars skipped for the indicators' lookback, the other
collaborators of each bar and `isoformat` are parameters.
-/

namespace TradingPlatform

/-! ## The liquidation at the end of a run -/

/-- What `_liquidate_open_positions` is called with. -/
structure LiquidationCall where
  symbol : String
  timeframe : String
  correlationId : CorrelationId
  lastBarTime : ℤ
  getLatest : String → String → Option ℤ → Except PyError Frame

/-- `_liquidate_open_positions` -/
def PlatformRuntime.liquidateOpenPositions (rt : PlatformRuntime) (call : LiquidationCall) :
    Except PyError PlatformRuntime :=
  match rt.executionEngine with
  | none => .ok rt
  | some engine =>
    if (rt.stateStore.portfolio.openPositions.filter (·.symbol = call.symbol)) = [] then .ok rt
    else
      match call.getLatest call.symbol call.timeframe (some call.lastBarTime) with
      | .error e => .error e
      | .ok df =>
        match df.getLast? with
        | none => .error .indexError
        | some lastRow =>
          let (snapshot, rt) := rt.snapshot call.correlationId
          let (result, rt) := rt.draw (engine.liquidateOpenPositions lastRow.bar snapshot {
            eventTime := call.lastBarTime
            processingTime := call.lastBarTime + seconds 2
            correlationId := call.correlationId
            symbol := call.symbol
            timeframe := call.timeframe
            mode := engine.mode })
          let rt := { rt with executionEngine := some result.engine }
          let rt := rt.applyTransitions result.transitions
          .ok { rt with published := rt.published ++ result.events }

/-! ## The harness -/

structure ValidationConfig where
  symbol : String
  timeframe : String
  start : ℤ
  endTime : ℤ
  initialCapital : ℚ := 10000
  deriving DecidableEq, Repr

structure ValidationHarness where
  dataProvider : CsvDataProvider
  config : ValidationConfig
  revisionId : Option String := none
  experimentId : Option String := none
  minLookbackBars : ℕ
  isoformat : ℤ → String
  collaborators : ℕ → Collaborators

structure ValidationResult where
  cycles : List CycleResult
  events : List EventEnvelope
  outcomeMetrics : OutcomeMetrics

namespace ValidationHarness

variable (h : ValidationHarness)

/-- The call of `run_cycle` for a bar: the runtime reads the harness's file. -/
def cycleCall (i : ℕ) (barTime : ℤ) : CycleCall where
  symbol := h.config.symbol
  timeframe := h.config.timeframe
  correlationId := some ("val_" ++ toString i ++ "_" ++ h.isoformat barTime)
  revisionId := h.revisionId
  experimentId := h.experimentId
  collaborators := { h.collaborators i with
    getLatest := fun symbol timeframe endTime =>
      h.dataProvider.getLatest symbol timeframe 200 endTime }

/-- Set the clock that the harness and the runtime share. -/
def setClock (barTime : ℤ) (rt : PlatformRuntime) : PlatformRuntime :=
  { rt with
    clock := (rt.clock.setEventTime barTime).setProcessingTime (barTime + seconds 2) }

/-- The loop of `run` over the bars, with their indices. -/
def runBars : List (ℤ × ℕ) → PlatformRuntime →
    Except PyError (List CycleResult × PlatformRuntime)
  | [], rt => .ok ([], rt)
  | (barTime, i) :: rest, rt =>
    match (setClock barTime rt).runCycle (h.cycleCall i barTime) with
    | (.error e, _) => .error e
    | (.ok result, rt) =>
      match runBars rest rt with
      | .error e => .error e
      | .ok (cycles, rt) => .ok (result :: cycles, rt)

/-- The liquidation of `run`. -/
def liquidationCall (lastBarTime : ℤ) : LiquidationCall where
  symbol := h.config.symbol
  timeframe := h.config.timeframe
  correlationId := .given ("val_liquidate_" ++ h.isoformat lastBarTime)
  lastBarTime := lastBarTime
  getLatest symbol timeframe endTime := h.dataProvider.getLatest symbol timeframe 200 endTime

/-- The bars a run drives the runtime over. -/
def barTimes : Except PyError (List ℤ) := do
  let times ← h.dataProvider.timestamps h.config.symbol h.config.timeframe h.config.start
    h.config.endTime
  if times.length ≤ h.minLookbackBars then
    throw (.valueError ("Not enough bars in range: need > " ++ toString h.minLookbackBars ++
      " for indicator lookback, got " ++ toString times.length))
  return times.drop h.minLookbackBars

/-- `run`, with the runtime it leaves. -/
def run (rt : PlatformRuntime) : Except PyError (ValidationResult × PlatformRuntime) := do
  let rt := { rt with published := [] }
  let barTimes ← h.barTimes
  let (cycles, rt) ← h.runBars barTimes.zipIdx rt
  let rt ← rt.liquidateOpenPositions (h.liquidationCall (barTimes.getLastD 0))
  let outcomeMetrics ← computeOutcomeMetrics rt.published h.config.initialCapital
    (some rt.stateStore.portfolio.equity)
  return ({ cycles, events := rt.published, outcomeMetrics }, rt)

end ValidationHarness

end TradingPlatform
