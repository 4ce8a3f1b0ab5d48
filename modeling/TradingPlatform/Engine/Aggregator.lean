import TradingPlatform.Contracts

/-!
# Engine configuration, market filter and aggregator

The first two stages of the decision engine. The configuration records carry the bounds their
fields are validated against.
-/

namespace TradingPlatform

/-! ## Configuration -/

inductive AggregationMethod | weightedMajority | majority | unanimous
  deriving DecidableEq, Repr

def AggregationMethod.literal : AggregationMethod → String
  | .weightedMajority => "weighted_majority"
  | .majority => "majority"
  | .unanimous => "unanimous"

structure AggregationConfig where
  minAgreeingProviders : ℕ
  method : AggregationMethod := .weightedMajority
  minAgreeingProviders_ge : 1 ≤ minAgreeingProviders := by decide
  deriving DecidableEq, Repr

structure FilterConfig where
  minAtrPct : ℚ
  allowedSessions : List String
  minAtrPct_nonneg : 0 ≤ minAtrPct := by norm_num
  deriving DecidableEq, Repr

structure RiskConfig where
  maxDailyDrawdownPct : ℚ
  maxSignalsPerDay : ℤ
  minConfidence : ℚ
  minRiskReward : ℚ
  maxOpenPositions : ℤ
  maxExposurePct : ℚ
  volTargetAtrPct : ℚ := 0
  volTargetCap : ℚ := 3 / 2
  maxDailyDrawdownPct_nonneg : 0 ≤ maxDailyDrawdownPct := by norm_num
  maxSignalsPerDay_ge : 1 ≤ maxSignalsPerDay := by norm_num
  minConfidence_mem : 0 ≤ minConfidence ∧ minConfidence ≤ 1 := by norm_num
  minRiskReward_nonneg : 0 ≤ minRiskReward := by norm_num
  maxOpenPositions_nonneg : 0 ≤ maxOpenPositions := by norm_num
  maxExposurePct_nonneg : 0 ≤ maxExposurePct := by norm_num
  volTargetAtrPct_nonneg : 0 ≤ volTargetAtrPct := by norm_num
  volTargetCap_nonneg : 0 ≤ volTargetCap := by norm_num
  deriving Repr

instance : DecidableEq RiskConfig := fun a b =>
  decidable_of_iff (a.maxDailyDrawdownPct = b.maxDailyDrawdownPct ∧
    a.maxSignalsPerDay = b.maxSignalsPerDay ∧ a.minConfidence = b.minConfidence ∧
    a.minRiskReward = b.minRiskReward ∧ a.maxOpenPositions = b.maxOpenPositions ∧
    a.maxExposurePct = b.maxExposurePct ∧ a.volTargetAtrPct = b.volTargetAtrPct ∧
    a.volTargetCap = b.volTargetCap) (by cases a; cases b; simp)

structure EngineConfig where
  aggregation : AggregationConfig
  filter : FilterConfig
  risk : RiskConfig
  deriving DecidableEq, Repr

/-! ## Market filter -/

/-- `MarketFilter.check` -/
def FilterConfig.check (config : FilterConfig) (context : MarketContext) : StageResult :=
  if context.session.literal ∉ config.allowedSessions then {
    passed := false
    reason := some "session_not_allowed"
    details := [("session", .text context.session.literal),
      ("allowed", .texts config.allowedSessions)] }
  else if context.volatility = .low then {
    passed := false
    reason := some "low_volatility"
    details := [("volatility", .text "LOW")] }
  else if context.atrPct < config.minAtrPct then {
    passed := false
    reason := some "atr_below_minimum"
    details := [("atr_pct", .number context.atrPct), ("min_atr_pct", .number config.minAtrPct)] }
  else {
    passed := true
    reason := none
    details := [("session", .text context.session.literal), ("atr_pct", .number context.atrPct)] }

/-! ## Aggregator -/

structure AggregatorSuccess where
  side : Side
  confidence : ℚ
  weights : Dict String ℚ
  dissent : List String
  deriving DecidableEq

/-- `AggregatorOutcome`: the reason of a failure, or a success. -/
abbrev AggregatorOutcome := Except String AggregatorSuccess

/-- `_provider_weight` -/
def StrategySignal.providerWeight (signal : StrategySignal) : ℚ :=
  (signal.rationale.metadata.lookup "weight").getD 1

namespace AggregationConfig

/-- The weights `_success` records, a later winner of the same provider replacing an earlier
one. -/
def winnerWeights (winners : List StrategySignal) (weighted : Bool) : Dict String ℚ :=
  winners.foldl (fun d s => d.set s.providerId (if weighted then s.providerWeight else 1)) ∅

/-- `_success` -/
def success (winners losers : List StrategySignal) (side : Side) (weighted : Bool) :
    AggregatorSuccess :=
  let confidence :=
    if weighted then
      let weightTotal := (winners.map (·.providerWeight)).sum
      if weightTotal ≠ 0 then
        (winners.map fun s => s.confidence * s.providerWeight).sum / weightTotal
      else 0
    else (winners.map (·.confidence)).sum / winners.length
  { side, confidence
    weights := winnerWeights winners weighted
    dissent := losers.map (·.providerId) }

variable (config : AggregationConfig)

/-- `_combine_unanimous` -/
def combineUnanimous (signals : List StrategySignal) : AggregatorOutcome :=
  let active := signals.filter (·.side ≠ .hold)
  match active.map (·.side) with
  | [] => .error "no_active_signals"
  | first :: rest =>
    if rest.any (· ≠ first) then .error "provider_conflict"
    else match first with
      | .hold => .error "insufficient_consensus"
      | .buy =>
        if active.length < config.minAgreeingProviders then .error "insufficient_consensus"
        else .ok (success active [] .buy true)
      | .sell =>
        if active.length < config.minAgreeingProviders then .error "insufficient_consensus"
        else .ok (success active [] .sell true)

/-- `_combine_majority` -/
def combineMajority (signals : List StrategySignal) (weighted : Bool) : AggregatorOutcome :=
  let active := signals.filter (·.side ≠ .hold)
  if active.isEmpty then .error "no_active_signals"
  else
    let buys := active.filter (·.side = .buy)
    let sells := active.filter (·.side = .sell)
    let minAgree := config.minAgreeingProviders
    if minAgree ≤ buys.length ∧ sells.length < buys.length then
      .ok (success buys sells .buy weighted)
    else if minAgree ≤ sells.length ∧ buys.length < sells.length then
      .ok (success sells buys .sell weighted)
    else if ¬ buys.isEmpty ∧ ¬ sells.isEmpty then .error "provider_conflict"
    else .error "insufficient_consensus"

/-- `Aggregator.combine` -/
def combine (signals : List StrategySignal) : AggregatorOutcome :=
  match config.method with
  | .unanimous => config.combineUnanimous signals
  | method => config.combineMajority signals (method == .weightedMajority)

end AggregationConfig

end TradingPlatform
