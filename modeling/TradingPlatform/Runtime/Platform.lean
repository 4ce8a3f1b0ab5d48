import TradingPlatform.Engine.Decision
import TradingPlatform.Execution.Simulated
import TradingPlatform.Runtime.EventBus

/-!
# The platform runtime

`PlatformRuntime.run_cycle` takes one bar from the data provider through exits, features, daily
reset, marking, decision and execution. The runtime record holds its configuration, the objects it
shares with other components (state store, execution engine, clock, event bus) and its own
`_signals_day`. The collaborators that produce data (data provider, feature builder and store,
signal providers) are arguments of a cycle and may behave differently from cycle to cycle; any of
them may raise, and so may the decision and the execution. A cycle that raises keeps the changes it
has made. `runCycleOn` is the cycle on a bus whose subscribers may raise as well, `runCycle` the
cycle on one whose subscribers do not.

`applied` is a history variable: every transition given to `apply_transition`, with the snapshot it
returned. No function reads it.
-/

namespace TradingPlatform

/-! ## Clocks -/

/-- `WallClock` and `SimulatedClock`. -/
inductive Clock
  | wall (eventTime : Option ℤ)
  | simulated (eventTime processingTime : ℤ)
  deriving DecidableEq, Repr

namespace Clock

/-- `now_event_time`; `now` is the wall-clock time. -/
def nowEventTime (now : ℤ) : Clock → ℤ
  | wall eventTime => eventTime.getD now
  | simulated eventTime _ => eventTime

def nowProcessingTime (now : ℤ) : Clock → ℤ
  | wall _ => now
  | simulated _ processingTime => processingTime

def setEventTime (t : ℤ) : Clock → Clock
  | wall _ => wall (some t)
  | simulated _ processingTime => simulated t processingTime

def setProcessingTime (t : ℤ) : Clock → Clock
  | wall eventTime => wall eventTime
  | simulated eventTime _ => simulated eventTime t

end Clock

/-! ## Collaborators and calls -/

structure SignalProvider where
  providerId : String
  enabled : Bool
  analyze : FeatureSet → MarketContext → Except PyError StrategySignal

/-- The objects a cycle takes its data from, as they behave during that cycle, and the wall-clock
time of the call. `storedContext` is the market context of a record of the feature store. -/
structure Collaborators where
  now : ℤ
  getLatest : String → String → Option ℤ → Except PyError Frame
  build : Frame → String → String → ℤ → Except PyError (FeatureSet × MarketContext)
  storedContext : ℕ → Except PyError (Option MarketContext)
  providers : List SignalProvider

/-- The arguments of `run_cycle`. -/
structure CycleCall where
  symbol : String
  timeframe : String
  correlationId : Option String := none
  revisionId : Option String := none
  experimentId : Option String := none
  collaborators : Collaborators

/-! ## The runtime -/

structure PlatformRuntime where
  decisionEngine : EngineConfig
  mode : Mode
  persistFeatures : Bool
  emitEvents : Bool
  stateStore : InMemoryStateStore
  executionEngine : Option SimulatedExecutionEngine
  clock : Clock
  published : List EventEnvelope := []
  signalsDay : Option ℤ := none
  uuid : ℕ := 0
  applied : List (StateTransitionEvent × StateSnapshot) := []

/-- `_CycleCtx` -/
structure CycleCtx where
  cycleId : CorrelationId
  symbol : String
  timeframe : String
  revisionId : Option String
  experimentId : Option String
  bar : Bar
  eventTime : ℤ
  processingTime : ℤ
  df : Frame
  events : List EventEnvelope := []
  causationId : Option ℕ := none
  executionEvents : List EventEnvelope := []
  deriving DecidableEq

structure CycleResult where
  correlationId : CorrelationId
  featureSet : FeatureSet
  context : MarketContext
  snapshot : StateSnapshot
  signals : List StrategySignal
  decision : Decision
  events : List EventEnvelope
  executionEvents : List EventEnvelope
  deriving DecidableEq

namespace PlatformRuntime

/-- Run an id-drawing computation on the runtime's id supply. -/
def draw {α : Type} (rt : PlatformRuntime) (m : StateM ℕ α) : α × PlatformRuntime :=
  let (a, uuid) := m.run rt.uuid
  (a, { rt with uuid })

/-- `apply_transition` on the runtime's store. -/
def applyTransition (rt : PlatformRuntime) (event : StateTransitionEvent) : PlatformRuntime :=
  let ((stateStore, snap), rt) := rt.draw (rt.stateStore.applyTransition event)
  { rt with stateStore, applied := rt.applied ++ [(event, snap)] }

def applyTransitions (rt : PlatformRuntime) (events : List StateTransitionEvent) :
    PlatformRuntime :=
  events.foldl applyTransition rt

/-- Build a transition and apply it. -/
def applyNew (rt : PlatformRuntime) (payload : TransitionPayload) (eventTime : ℤ)
    (correlationId : CorrelationId) : PlatformRuntime :=
  let (transitionId, rt) := rt.draw uuid4
  rt.applyTransition { transitionId, payload, eventTime, correlationId }

/-- `snapshot` of the runtime's store. -/
def snapshot (rt : PlatformRuntime) (cycleId : CorrelationId) : StateSnapshot × PlatformRuntime :=
  rt.draw (rt.stateStore.snapshot (some cycleId))

/-- The envelope arguments of the runtime's own events. -/
def eventCtx (rt : PlatformRuntime) (ctx : CycleCtx) : EventCtx where
  eventTime := ctx.eventTime
  processingTime := ctx.processingTime
  correlationId := ctx.cycleId
  symbol := ctx.symbol
  timeframe := ctx.timeframe
  mode := rt.mode
  revisionId := ctx.revisionId
  experimentId := ctx.experimentId

/-- The envelope arguments of the execution engine's events. -/
def executionCtx (engine : SimulatedExecutionEngine) (ctx : CycleCtx) (eventTime : ℤ) :
    EventCtx where
  eventTime := eventTime
  processingTime := ctx.processingTime
  correlationId := ctx.cycleId
  symbol := ctx.symbol
  timeframe := ctx.timeframe
  mode := engine.mode

/-- Append an event to the cycle's list. -/
def emit (rt : PlatformRuntime) (ctx : CycleCtx) (payload : Payload) :
    EventEnvelope × CycleCtx × PlatformRuntime :=
  let (event, rt) := rt.draw (buildEnvelope (rt.eventCtx ctx) payload ctx.causationId)
  (event, { ctx with events := ctx.events ++ [event] }, rt)

/-- Append an event and make it the cause of the next ones. -/
def emitCause (rt : PlatformRuntime) (ctx : CycleCtx) (payload : Payload) :
    CycleCtx × PlatformRuntime :=
  let (event, ctx, rt) := rt.emit ctx payload
  ({ ctx with causationId := some event.eventId }, rt)

/-- The correlation id of a cycle: the caller's unless it is missing or empty. -/
def cycleId (rt : PlatformRuntime) (call : CycleCall) : CorrelationId × PlatformRuntime :=
  match call.correlationId.filter (· ≠ "") with
  | some s => (.given s, rt)
  | none => let (u, rt) := rt.draw uuid4; (.cycle u, rt)

/-- `_prepare_bar` -/
def prepareBar (rt : PlatformRuntime) (call : CycleCall) :
    Except PyError (CycleCtx × PlatformRuntime) := do
  let now := call.collaborators.now
  let (cycleId, rt) := rt.cycleId call
  let df ← call.collaborators.getLatest call.symbol call.timeframe
    (some (rt.clock.nowEventTime now))
  match df.getLast? with
  | none => throw .indexError
  | some lastRow => return ({
      cycleId, df
      symbol := call.symbol
      timeframe := call.timeframe
      revisionId := call.revisionId
      experimentId := call.experimentId
      bar := lastRow.bar
      eventTime := lastRow.timestamp
      processingTime := rt.clock.nowProcessingTime now },
    { rt with clock := rt.clock.setEventTime lastRow.timestamp })

/-- `_pre_decision_evaluate` -/
def preDecisionEvaluate (rt : PlatformRuntime) (ctx : CycleCtx) : CycleCtx × PlatformRuntime :=
  match rt.executionEngine with
  | none => (ctx, rt)
  | some engine =>
    let (preSnapshot, rt) := rt.snapshot ctx.cycleId
    let (barEval, rt) := rt.draw
      (engine.evaluateBar ctx.bar preSnapshot (executionCtx engine ctx ctx.eventTime))
    let rt := { rt with executionEngine := some barEval.engine }
    ({ ctx with executionEvents := ctx.executionEvents ++ barEval.events },
      rt.applyTransitions barEval.transitions)

/-- `_emit_candle_received` -/
def emitCandleReceived (rt : PlatformRuntime) (ctx : CycleCtx) : CycleCtx × PlatformRuntime :=
  if rt.emitEvents then rt.emitCause ctx (.candleReceived ctx.bar) else (ctx, rt)

/-- The test of `_build_features` that the feature store has kept the market context. -/
def checkStored (rt : PlatformRuntime) (featureSet : FeatureSet) (context : MarketContext)
    (collaborators : Collaborators) : Except PyError Unit :=
  if rt.persistFeatures then do
    let stored ← collaborators.storedContext featureSet.featureSetId
    if stored ≠ some context then
      throw (.runtimeError "FeatureStore record does not match built MarketContext")
  else return ()

/-- The events of `_build_features`. -/
def emitFeatures (rt : PlatformRuntime) (ctx : CycleCtx) (featureSet : FeatureSet)
    (context : MarketContext) : CycleCtx × PlatformRuntime :=
  if rt.emitEvents then
    let (ctx, rt) := rt.emitCause ctx (.featureSetBuilt featureSet.featureSetId
      featureSet.featureVersion featureSet.configHash featureSet.indicators featureSet.flags)
    rt.emitCause ctx (.marketContextDerived context)
  else (ctx, rt)

/-- `_build_features` -/
def buildFeatures (rt : PlatformRuntime) (ctx : CycleCtx) (collaborators : Collaborators) :
    Except PyError ((FeatureSet × MarketContext) × CycleCtx × PlatformRuntime) := do
  let (featureSet, context) ←
    collaborators.build ctx.df ctx.symbol ctx.timeframe ctx.processingTime
  rt.checkStored featureSet context collaborators
  return ((featureSet, context), rt.emitFeatures ctx featureSet context)

/-- The update of `_maybe_reset_daily_risk`. -/
def dailyReset (equity : ℚ) : RiskUpdate :=
  { signalsToday := some 0, dailyPnl := some 0, dailyDrawdownPct := some 0,
    dailyStartEquity := some equity }

/-- `_maybe_reset_daily_risk` -/
def maybeResetDailyRisk (rt : PlatformRuntime) (eventTime : ℤ) (cycleId : CorrelationId) :
    PlatformRuntime :=
  let currentDay := date eventTime
  match rt.signalsDay with
  | none => { rt with signalsDay := some currentDay }
  | some day =>
    if currentDay = day then rt
    else
      let rt := { rt with signalsDay := some currentDay }
      let risk := rt.stateStore.risk
      let currentEquity := rt.stateStore.portfolio.equity
      if risk.signalsToday = 0 ∧ risk.dailyPnl = 0 ∧ risk.dailyDrawdownPct = 0 ∧
          risk.dailyStartEquity = currentEquity then rt
      else rt.applyNew (.riskUpdated (dailyReset currentEquity)) eventTime cycleId

/-- `_mark_to_market` -/
def markToMarket (rt : PlatformRuntime) (ctx : CycleCtx) : PlatformRuntime :=
  if rt.stateStore.portfolio.openPositions = [] then rt
  else rt.applyNew (.markToMarket [(ctx.symbol, ctx.bar.close)]) ctx.eventTime ctx.cycleId

/-- Append an event if the runtime emits events. -/
def emitIf (rt : PlatformRuntime) (ctx : CycleCtx) (payload : Payload) :
    CycleCtx × PlatformRuntime :=
  if rt.emitEvents then (rt.emit ctx payload).2 else (ctx, rt)

/-- `_collect_provider_signals` -/
def collectProviderSignals (rt : PlatformRuntime) (ctx : CycleCtx) (featureSet : FeatureSet)
    (context : MarketContext) :
    List SignalProvider → Except PyError (List StrategySignal × CycleCtx × PlatformRuntime)
  | [] => return ([], ctx, rt)
  | provider :: rest =>
    if ¬ provider.enabled then
      let (ctx, rt) := rt.emitIf ctx (.providerSkipped provider.providerId "disabled")
      rt.collectProviderSignals ctx featureSet context rest
    else do
      let signal ← provider.analyze featureSet context
      let (ctx, rt) := rt.emitIf ctx
        (.providerOpinion provider.providerId signal.side signal.confidence signal.rationale)
      let (signals, ctx, rt) ← rt.collectProviderSignals ctx featureSet context rest
      return (signal :: signals, ctx, rt)

/-- The payload of the outcome event of `_decide`. -/
def outcomePayload (decision : Decision) (snapshot : StateSnapshot) : Payload :=
  match decision.result with
  | .approved => .decisionApproved decision.decisionId snapshot.snapshotId decision.finalSignal
  | .rejected reason stage =>
    .decisionRejected decision.decisionId snapshot.snapshotId (some stage) reason
      decision.decisionLog

/-- The events of `_decide`. -/
def emitDecision (rt : PlatformRuntime) (ctx : CycleCtx) (decision : Decision)
    (snapshot : StateSnapshot) : CycleCtx × PlatformRuntime :=
  let (ctx, rt) := rt.emitCause ctx
    (.decisionMade decision.decisionId decision.result.value snapshot.snapshotId
      decision.decisionLog)
  let (ctx, rt) := rt.emitCause ctx (outcomePayload decision snapshot)
  match decision.isApproved, decision.finalSignal with
  | true, some signal => (rt.emit ctx (.signalPublished decision.decisionId signal)).2
  | _, _ => (ctx, rt)

/-- The arguments `_decide` passes to the decision engine. -/
def decisionCtx (ctx : CycleCtx) : DecisionCtx where
  correlationId := ctx.cycleId
  eventTime := ctx.eventTime
  decisionTime := ctx.processingTime
  revisionId := ctx.revisionId
  experimentId := ctx.experimentId

/-- The transition of `_decide` that counts an approved decision. -/
def countApproved (rt : PlatformRuntime) (ctx : CycleCtx) (decision : Decision)
    (snapshot : StateSnapshot) : PlatformRuntime :=
  if decision.isApproved then
    rt.applyNew (.riskUpdated { signalsToday := some (snapshot.risk.signalsToday + 1) })
      ctx.eventTime ctx.cycleId
  else rt

/-- `_decide` -/
def decide (rt : PlatformRuntime) (ctx : CycleCtx) (signals : List StrategySignal)
    (context : MarketContext) (snapshot : StateSnapshot) :
    Except PyError (Decision × CycleCtx × PlatformRuntime) := do
  let (outcome, rt) :=
    rt.draw (rt.decisionEngine.process signals context snapshot (decisionCtx ctx))
  let decision ← outcome
  let (ctx, rt) := if rt.emitEvents then rt.emitDecision ctx decision snapshot else (ctx, rt)
  return (decision, ctx, rt.countApproved ctx decision snapshot)

/-- The same-bar exit of `_same_bar_exit_and_execute`. -/
def sameBarExit (rt : PlatformRuntime) (ctx : CycleCtx) (engine : SimulatedExecutionEngine)
    (signal : Option FinalSignal) : CycleCtx × PlatformRuntime :=
  match rt.stateStore.portfolio.openPositions, signal with
  | _ :: _, some signal =>
    let (signalSnapshot, rt) := rt.snapshot ctx.cycleId
    let (signalEval, rt) := rt.draw (engine.evaluateBar ctx.bar signalSnapshot
      (executionCtx engine ctx ctx.eventTime) (some signal.side) false)
    let rt := { rt with executionEngine := some signalEval.engine }
    ({ ctx with executionEvents := ctx.executionEvents ++ signalEval.events },
      rt.applyTransitions signalEval.transitions)
  | _, _ => (ctx, rt)

/-- The call of `execute` in `_same_bar_exit_and_execute`. -/
def executeDecision (rt : PlatformRuntime) (ctx : CycleCtx) (engine : SimulatedExecutionEngine)
    (decision : Decision) : Except PyError CycleCtx × PlatformRuntime :=
  let (execSnapshot, rt) := rt.snapshot ctx.cycleId
  let (outcome, rt) := rt.draw (engine.execute decision execSnapshot ctx.bar
    (executionCtx engine ctx decision.eventTime))
  match outcome with
  | .error e => (.error e, rt)
  | .ok result =>
    let rt := { rt with executionEngine := some result.engine }
    (.ok { ctx with executionEvents := ctx.executionEvents ++ result.events },
      rt.applyTransitions result.transitions)

/-- `_same_bar_exit_and_execute`. When `execute` raises, the exit has already been applied. -/
def sameBarExitAndExecute (rt : PlatformRuntime) (ctx : CycleCtx) (decision : Decision) :
    Except PyError CycleCtx × PlatformRuntime :=
  match decision.isApproved, rt.executionEngine with
  | true, some engine =>
    let (ctx, rt) := rt.sameBarExit ctx engine decision.finalSignal
    rt.executeDecision ctx (rt.executionEngine.getD engine) decision
  | _, _ => (.ok ctx, rt)

/-- A cycle that has reached its decision snapshot. -/
structure AtSnapshot where
  ctx : CycleCtx
  featureSet : FeatureSet
  context : MarketContext
  snapshot : StateSnapshot

/-- A cycle that has made its decision. -/
structure AtDecision extends AtSnapshot where
  signals : List StrategySignal
  decision : Decision

/-- The stretch of `run_cycle` from the daily reset to the decision snapshot. -/
def takeSnapshot (rt : PlatformRuntime) (ctx : CycleCtx) (featureSet : FeatureSet)
    (context : MarketContext) : AtSnapshot × PlatformRuntime :=
  let rt := rt.maybeResetDailyRisk ctx.eventTime ctx.cycleId
  let rt := rt.markToMarket ctx
  let (snapshot, rt) := rt.snapshot ctx.cycleId
  ({ ctx, featureSet, context, snapshot }, rt)

/-- `run_cycle` up to the decision snapshot. -/
def runToSnapshot (rt : PlatformRuntime) (call : CycleCall) :
    Except PyError AtSnapshot × PlatformRuntime :=
  match rt.prepareBar call with
  | .error e => (.error e, rt)
  | .ok (ctx, rt) =>
    let (ctx, rt) := rt.preDecisionEvaluate ctx
    let (ctx, rt) := rt.emitCandleReceived ctx
    match rt.buildFeatures ctx call.collaborators with
    | .error e => (.error e, rt)
    | .ok ((featureSet, context), ctx, rt) =>
      let (a, rt) := rt.takeSnapshot ctx featureSet context
      (.ok a, rt)

/-- `run_cycle` up to the decision. -/
def runToDecision (rt : PlatformRuntime) (call : CycleCall) :
    Except PyError AtDecision × PlatformRuntime :=
  match rt.runToSnapshot call with
  | (.error e, rt) => (.error e, rt)
  | (.ok a, rt) =>
    match rt.collectProviderSignals a.ctx a.featureSet a.context
        call.collaborators.providers with
    | .error e => (.error e, rt)
    | .ok (signals, ctx, rt) =>
      match rt.decide ctx signals a.context a.snapshot with
      | .error e => (.error e, rt)
      | .ok (decision, ctx, rt) => (.ok { a with ctx, signals, decision }, rt)

/-- `run_cycle` up to `publish_many`. -/
def runToPublish (rt : PlatformRuntime) (call : CycleCall) :
    Except PyError CycleResult × PlatformRuntime :=
  match rt.runToDecision call with
  | (.error e, rt) => (.error e, rt)
  | (.ok a, rt) =>
    match rt.sameBarExitAndExecute a.ctx a.decision with
    | (.error e, rt) => (.error e, rt)
    | (.ok ctx, rt) => (.ok {
        events := ctx.events ++ ctx.executionEvents
        correlationId := ctx.cycleId
        featureSet := a.featureSet
        context := a.context
        snapshot := a.snapshot
        signals := a.signals
        decision := a.decision
        executionEvents := ctx.executionEvents }, rt)

/-- `run_cycle` -/
def runCycleOn (rt : PlatformRuntime) (bus : EventBus) (call : CycleCall) :
    Except PyError CycleResult × PlatformRuntime :=
  match rt.runToPublish call with
  | (.error e, rt) => (.error e, rt)
  | (.ok result, rt) =>
    let (outcome, sent) := bus.publishMany result.events
    (outcome.map fun _ => result, { rt with published := rt.published ++ sent })

/-- `run_cycle` where no subscriber of the bus raises. -/
def runCycle (rt : PlatformRuntime) (call : CycleCall) :
    Except PyError CycleResult × PlatformRuntime :=
  match rt.runToPublish call with
  | (.error e, rt) => (.error e, rt)
  | (.ok result, rt) => (.ok result, { rt with published := rt.published ++ result.events })

/-- The runtime after a call, whether it has returned or raised. -/
def step (rt : PlatformRuntime) (call : CycleCall) : PlatformRuntime := (rt.runCycle call).2

/-- The queue of the execution engine. -/
def pendingEntries (rt : PlatformRuntime) : List PendingEntry :=
  match rt.executionEngine with
  | none => []
  | some engine => engine.pendingEntries

end PlatformRuntime

/-! ## Setting up a runtime -/

/-- The arguments of `SimulatedExecutionEngine.__init__`. -/
structure ExecutionSetup where
  fillModel : FillModel
  config : ValidationExecutionConfig
  mode : Mode := .validation
  emitEvents : Bool := true
  deriving DecidableEq, Repr

/-- The arguments of `PlatformRuntime.__init__` and of the store it is given. -/
structure RuntimeSetup where
  decisionEngine : EngineConfig
  mode : Mode := .validation
  persistFeatures : Bool := true
  emitEvents : Bool := true
  initialCash : ℚ := 10000
  limits : RiskLimits := defaultLimits
  startedAt : ℤ := 0
  execution : Option ExecutionSetup
  clock : Clock
  deriving DecidableEq, Repr

/-- A runtime before its first cycle. -/
def RuntimeSetup.start (setup : RuntimeSetup) : PlatformRuntime where
  decisionEngine := setup.decisionEngine
  mode := setup.mode
  persistFeatures := setup.persistFeatures
  emitEvents := setup.emitEvents
  stateStore := .init setup.initialCash setup.limits setup.startedAt
  executionEngine := setup.execution.map fun e => {
    fillModel := e.fillModel, config := e.config, mode := e.mode, emitEvents := e.emitEvents }
  clock := setup.clock

/-! ## A market with one provider -/

/-- The signal of a provider that is sure of its side. -/
def sureSignal (side : SignalSide) (context : MarketContext) : StrategySignal where
  providerId := "trend"
  symbol := context.symbol
  side := side
  confidence := 1
  confidence_mem := one_mem_unit
  rationale := { summary := "", metadata := [] }
  stopLoss := none
  takeProfit := none
  timeframe := context.timeframe
  eventTime := context.eventTime

/-- Collaborators that serve one bar and have one provider, sure of its side. -/
def Collaborators.serving (candle : Candle) (side : SignalSide) : Collaborators where
  now := candle.timestamp
  getLatest _ _ _ := .ok [candle]
  build _ symbol timeframe processingTime := .ok ({
      featureSetId := 0, symbol, timeframe, processingTime
      eventTime := candle.timestamp
      featureVersion := "v1"
      configHash := ""
      close := candle.bar.close
      indicators := []
      flags := [] }, {
      symbol, timeframe
      currentPrice := candle.bar.close
      trend := .sideways
      volatility := .normal
      atr := 1
      atrPct := 1
      session := .us
      eventTime := candle.timestamp })
  storedContext _ := .ok none
  providers := [⟨"trend", true, fun _ context => .ok (sureSignal side context)⟩]

/-- A bar whose price does not move. -/
def Candle.flat (timestamp : ℤ) (price : ℚ) : Candle := ⟨timestamp, price, price, price, price, 1⟩

/-- A cycle on a flat bar. -/
def CycleCall.flat (symbol : String) (timestamp : ℤ) (price : ℚ) (side : SignalSide) :
    CycleCall where
  symbol := symbol
  timeframe := "1h"
  collaborators := .serving (.flat timestamp price) side

/-- A runtime that follows its one provider with a tenth of the equity. -/
def RuntimeSetup.solo (fillAt : FillAt) : RuntimeSetup where
  decisionEngine := .solo
  persistFeatures := false
  emitEvents := false
  execution := some {
    fillModel := { modelId := "no_cost", fillAt }
    config := { ValidationExecutionConfig.default with
      exposurePctPerTrade := 10, exposurePctPerTrade_mem := by norm_num } }
  clock := .wall none

end TradingPlatform
