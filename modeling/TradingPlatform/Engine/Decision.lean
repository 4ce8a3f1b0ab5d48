import TradingPlatform.Engine.Aggregator
import TradingPlatform.Lib.Outcome
import TradingPlatform.Lib.Rounding

/-!
# Risk manager, final signal and the decision engine

`RiskManager.evaluate` makes six checks of the decision snapshot; two of them are waived for a
decision that opposes an open position. `DecisionEngine.process` rejects at the first stage that
fails, naming the first failed check, and approves otherwise.
-/

namespace TradingPlatform

/-! ## Risk manager -/

namespace RiskConfig

variable (config : RiskConfig)

/-- `RiskCheckResult` with the message of its outcome. -/
def checkResult (checkName : String) (passed : Bool) (currentValue threshold : ℚ)
    (okMessage failMessage : String) : RiskCheckResult where
  checkName := checkName
  passed := passed
  currentValue := currentValue
  threshold := threshold
  message := if passed then okMessage else failMessage

/-- Some open position, of whatever symbol, is closed by the side. -/
def opposingExit (side : Side) (portfolio : PortfolioState) : Bool :=
  portfolio.openPositions.any fun p => side.opposes p.side

def dailyDrawdownCheck (risk : RiskState) : RiskCheckResult :=
  checkResult "daily_drawdown" (risk.dailyDrawdownPct < config.maxDailyDrawdownPct)
    risk.dailyDrawdownPct config.maxDailyDrawdownPct
    "daily drawdown within limit" "daily drawdown limit breached"

def maxSignalsPerDayCheck (risk : RiskState) : RiskCheckResult :=
  checkResult "max_signals_per_day" (risk.signalsToday < config.maxSignalsPerDay)
    risk.signalsToday config.maxSignalsPerDay
    "signals today within limit" "max signals per day reached"

def maxOpenPositionsCheck (side : Side) (portfolio : PortfolioState) : RiskCheckResult :=
  checkResult "max_open_positions"
    (opposingExit side portfolio || portfolio.openPositions.length < config.maxOpenPositions)
    portfolio.openPositions.length config.maxOpenPositions
    "open positions within limit" "max open positions reached"

def maxExposureCheck (side : Side) (portfolio : PortfolioState) (risk : RiskState) :
    RiskCheckResult :=
  checkResult "max_exposure"
    (opposingExit side portfolio || risk.openExposurePct ≤ config.maxExposurePct)
    risk.openExposurePct config.maxExposurePct
    "exposure within limit" "max exposure exceeded"

def minConfidenceCheck (confidence : ℚ) : RiskCheckResult :=
  checkResult "min_confidence" (config.minConfidence ≤ confidence) confidence config.minConfidence
    "confidence sufficient" "confidence below minimum"

def maxConsecutiveLossesCheck (risk : RiskState) : RiskCheckResult :=
  checkResult "max_consecutive_losses" (risk.consecutiveLosses < risk.limits.maxConsecutiveLosses)
    risk.consecutiveLosses risk.limits.maxConsecutiveLosses
    "consecutive losses within limit" "max consecutive losses reached"

/-- The checks of `evaluate`, in their order. -/
def checks (aggregated : AggregatorSuccess) (snapshot : StateSnapshot) : List RiskCheckResult :=
  [config.dailyDrawdownCheck snapshot.risk,
    config.maxSignalsPerDayCheck snapshot.risk,
    config.maxOpenPositionsCheck aggregated.side snapshot.portfolio,
    config.maxExposureCheck aggregated.side snapshot.portfolio snapshot.risk,
    config.minConfidenceCheck aggregated.confidence,
    maxConsecutiveLossesCheck snapshot.risk]

/-- `RiskManager.evaluate` -/
def evaluate (aggregated : AggregatorSuccess) (snapshot : StateSnapshot) : RiskVerdict :=
  let checks := config.checks aggregated snapshot
  { passed := checks.all (·.passed)
    checks
    stateSnapshotId := snapshot.snapshotId
    riskStateVersion := snapshot.risk.version }

/-- `RiskManager.finalize_verdict` -/
def finalizeVerdict (verdict : RiskVerdict) (finalSignal : FinalSignal)
    (snapshot : StateSnapshot) : RiskVerdict :=
  let rrCheck := checkResult "min_risk_reward" (config.minRiskReward ≤ finalSignal.riskReward)
    finalSignal.riskReward config.minRiskReward
    "risk reward sufficient" "risk reward below minimum"
  { passed := verdict.passed && rrCheck.passed
    checks := verdict.checks ++ [rrCheck]
    stateSnapshotId := snapshot.snapshotId
    riskStateVersion := snapshot.risk.version }

end RiskConfig

/-! ## Final signal -/

namespace FinalSignalBuilder

/-- `weighted_avg`: the plain mean when the weights do not sum to a positive number. -/
def weightedAvg (values : List (ℚ × ℚ)) : Option ℚ :=
  if values.isEmpty then none
  else
    let totalW := (values.map Prod.snd).sum
    if totalW ≤ 0 then some ((values.map Prod.fst).sum / values.length)
    else some ((values.map fun v => v.1 * v.2).sum / totalW)

/-- `_merge_levels` -/
def mergeLevels (side : Side) (winners : List StrategySignal) (entry : ℚ)
    (weights : Dict String ℚ) : ℚ × ℚ :=
  let levels (level : StrategySignal → Option ℚ) : List (ℚ × ℚ) :=
    winners.filterMap fun s => (level s).map fun l => (l, weights.getD s.providerId 1)
  let stop := weightedAvg (levels (·.stopLoss))
  let target := weightedAvg (levels (·.takeProfit))
  match side with
  | .buy => (stop.getD (entry * (99 / 100)), target.getD (entry * (102 / 100)))
  | .sell => (stop.getD (entry * (101 / 100)), target.getD (entry * (98 / 100)))

/-- `_risk_reward` -/
def riskReward (entry stopLoss takeProfit : ℚ) : ℚ :=
  let risk := |entry - stopLoss|
  let reward := |takeProfit - entry|
  if risk = 0 then 0 else roundDigits (reward / risk) 4

/-- `FinalSignalBuilder.build` -/
def build (aggregated : AggregatorSuccess) (signals : List StrategySignal)
    (context : MarketContext) (snapshot : StateSnapshot) (decisionTime : ℤ)
    (revisionId : Option String) (volTargetAtrPct volTargetCap : ℚ) :
    StateM ℕ (Except PyError FinalSignal) := do
  let winners := signals.filter fun s => s.providerId ∈ aggregated.weights.keys
  let entryPrice := context.currentPrice
  let (stopLoss, takeProfit) := mergeLevels aggregated.side winners entryPrice aggregated.weights
  let sizeMultiplier :=
    if 0 < volTargetAtrPct ∧ 0 < context.atrPct then
      min volTargetCap (volTargetAtrPct / context.atrPct)
    else 1
  let id ← uuid4
  let signal : FinalSignal := {
    id, entryPrice, stopLoss, takeProfit, decisionTime, revisionId, sizeMultiplier
    symbol := context.symbol
    side := aggregated.side
    confidence := aggregated.confidence
    riskReward := riskReward entryPrice stopLoss takeProfit
    timeframe := context.timeframe
    eventTime := context.eventTime
    contributingProviders := aggregated.weights.keys
    stateSnapshotId := snapshot.snapshotId }
  return signal.validate

end FinalSignalBuilder

/-! ## Decision engine -/

/-- `_skipped_risk_verdict` -/
def skippedRiskVerdict (snapshot : StateSnapshot) : RiskVerdict where
  passed := true
  checks := []
  stateSnapshotId := snapshot.snapshotId
  riskStateVersion := snapshot.risk.version

/-- `_skipped_aggregation` -/
def skippedAggregation (method : AggregationMethod) : AggregationResult where
  method := method.literal
  side := .hold
  confidence := 0
  weights := ∅
  dissent := []

/-- The arguments of `process` that the decision only records. -/
structure DecisionCtx where
  correlationId : CorrelationId
  eventTime : ℤ
  decisionTime : ℤ
  revisionId : Option String := none
  experimentId : Option String := none
  deriving DecidableEq, Repr

namespace EngineConfig

variable (config : EngineConfig)

/-- A decision with the given outcome and log. -/
def decision (decisionId : ℕ) (c : DecisionCtx) (result : DecisionResult) (log : DecisionLog)
    (finalSignal : Option FinalSignal := none) : Decision where
  decisionId := decisionId
  result := result
  finalSignal := finalSignal
  decisionLog := log
  correlationId := c.correlationId
  eventTime := c.eventTime
  decisionTime := c.decisionTime
  revisionId := c.revisionId
  experimentId := c.experimentId

/-- The log of a decision on `snapshot`. -/
def log (marketResult : StageResult) (signals : List StrategySignal)
    (aggregation : AggregationResult) (riskCheck : RiskVerdict) (snapshot : StateSnapshot) :
    DecisionLog where
  marketFilter := marketResult
  providerSignals := signals
  aggregation := aggregation
  riskCheck := riskCheck
  stateSnapshotId := snapshot.snapshotId
  portfolioVersion := snapshot.portfolio.version
  riskStateVersion := snapshot.risk.version

/-- The name of the first failed check. -/
def firstFailed (checks : List RiskCheckResult) : Option String :=
  (checks.find? (¬ ·.passed)).map (·.checkName)

/-- The end of `process`: the risk-reward check of the final signal decides. -/
def finish (decisionId : ℕ) (signals : List StrategySignal) (snapshot : StateSnapshot)
    (c : DecisionCtx) (marketResult : StageResult) (aggregation : AggregationResult)
    (verdict : RiskVerdict) (finalSignal : FinalSignal) : Decision :=
  let verdict := config.risk.finalizeVerdict verdict finalSignal snapshot
  if ¬ verdict.passed then
    decision decisionId c (.rejected (firstFailed verdict.checks) .riskManager)
      (log marketResult signals aggregation verdict snapshot)
  else
    decision decisionId c .approved (log marketResult signals aggregation verdict snapshot)
      (some finalSignal)

/-- The risk stages of `process`, after the aggregator has yielded a side. -/
def processAggregated (decisionId : ℕ) (signals : List StrategySignal)
    (context : MarketContext) (snapshot : StateSnapshot) (c : DecisionCtx)
    (marketResult : StageResult) (aggregated : AggregatorSuccess) :
    StateM ℕ (Except PyError Decision) := do
  let aggregation : AggregationResult := {
    method := config.aggregation.method.literal
    side := aggregated.side.toSignalSide
    confidence := aggregated.confidence
    weights := aggregated.weights
    dissent := aggregated.dissent }
  let verdict := config.risk.evaluate aggregated snapshot
  if ¬ verdict.passed then
    return .ok (decision decisionId c (.rejected (firstFailed verdict.checks) .riskManager)
      (log marketResult signals aggregation verdict snapshot))
  else
    let built ← FinalSignalBuilder.build aggregated signals context snapshot c.decisionTime
      c.revisionId config.risk.volTargetAtrPct config.risk.volTargetCap
    return built.map
      (config.finish decisionId signals snapshot c marketResult aggregation verdict)

/-- The stages of `process`, under the id drawn for the decision. -/
def processStages (decisionId : ℕ) (signals : List StrategySignal) (context : MarketContext)
    (snapshot : StateSnapshot) (c : DecisionCtx) : StateM ℕ (Except PyError Decision) :=
  let marketResult := config.filter.check context
  if ¬ marketResult.passed then
    return .ok (decision decisionId c (.rejected marketResult.reason .marketFilter)
      (log marketResult signals (skippedAggregation config.aggregation.method)
        (skippedRiskVerdict snapshot) snapshot))
  else
    match config.aggregation.combine signals with
    | .error reason =>
      let aggregation : AggregationResult := {
        method := config.aggregation.method.literal
        side := .hold
        confidence := 0
        weights := ∅
        dissent := (signals.filter (·.side ≠ .hold)).map (·.providerId) }
      return .ok (decision decisionId c (.rejected (some reason) .aggregator)
        (log marketResult signals aggregation (skippedRiskVerdict snapshot) snapshot))
    | .ok aggregated =>
      config.processAggregated decisionId signals context snapshot c marketResult aggregated

/-- `DecisionEngine.process` -/
def process (signals : List StrategySignal) (context : MarketContext) (snapshot : StateSnapshot)
    (c : DecisionCtx) : StateM ℕ (Except PyError Decision) := do
  let decisionId ← uuid4
  config.processStages decisionId signals context snapshot c

section

variable {config : EngineConfig} {signals : List StrategySignal} {context : MarketContext}
  {snapshot : StateSnapshot} {c : DecisionCtx} {u : ℕ}

theorem eventTime_finish {decisionId : ℕ} {marketResult : StageResult}
    {aggregation : AggregationResult} {verdict : RiskVerdict} {finalSignal : FinalSignal} :
    (config.finish decisionId signals snapshot c marketResult aggregation verdict
      finalSignal).eventTime = c.eventTime := by
  unfold finish
  dsimp only
  split <;> rfl

theorem processAggregated_spec {decisionId : ℕ} {marketResult : StageResult}
    {aggregated : AggregatorSuccess} :
    u ≤ (config.processAggregated decisionId signals context snapshot c marketResult
      aggregated u).2 ∧
    ∀ d, (config.processAggregated decisionId signals context snapshot c marketResult
      aggregated u).1 = .ok d → d.eventTime = c.eventTime := by
  unfold processAggregated
  split
  · refine ⟨le_rfl, fun d hd => ?_⟩
    cases hd
    rfl
  · refine ⟨Nat.le_add_right u 1, fun d hd => ?_⟩
    obtain ⟨signal, _, rfl⟩ := Except.map_eq_ok.mp hd
    exact eventTime_finish

variable (config signals context snapshot c u) in
/-- `process` only draws identifiers, and its decision is of the time it is given. -/
theorem process_spec : u ≤ (config.process signals context snapshot c u).2 ∧
    ∀ d, (config.process signals context snapshot c u).1 = .ok d → d.eventTime = c.eventTime := by
  have hle : u ≤ u + 1 := Nat.le_add_right u 1
  have heq : config.process signals context snapshot c u =
      config.processStages u signals context snapshot c (u + 1) := rfl
  rw [heq]
  unfold processStages
  split
  · refine ⟨hle, fun d hd => ?_⟩
    cases hd
    rfl
  cases config.aggregation.combine signals with
  | error reason =>
    refine ⟨hle, fun d hd => ?_⟩
    cases hd
    rfl
  | ok aggregated => exact ⟨hle.trans processAggregated_spec.1, processAggregated_spec.2⟩

end

/-- A configuration under which a single provider decides. -/
def solo : EngineConfig where
  aggregation := { minAgreeingProviders := 1 }
  filter := { minAtrPct := 0, allowedSessions := ["US"] }
  risk := {
    maxDailyDrawdownPct := 5, maxSignalsPerDay := 10, minConfidence := 0, minRiskReward := 0
    maxOpenPositions := 3, maxExposurePct := 50 }

end EngineConfig

end TradingPlatform
