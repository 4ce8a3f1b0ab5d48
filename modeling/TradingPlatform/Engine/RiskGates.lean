import TradingPlatform.Engine.Decision
import TradingPlatform.State.Store

/-!
# Which limits gate an exit

`RiskManager.evaluate` waives the position and the exposure limit for a decision that closes an open
position, of whatever symbol, and waives none of the other limits. This file says when that amounts
to: a decision that closes a position of its own symbol is not rejected by a limit on opening, and
any other decision meets the position and the exposure limit in full.
-/

namespace TradingPlatform

/-! ## What `process` returns -/

namespace EngineConfig

variable {config : EngineConfig} {signals : List StrategySignal} {context : MarketContext}
  {snapshot : StateSnapshot} {c : DecisionCtx} {u : ℕ} {aggregated : AggregatorSuccess}

theorem process_aggregated (hfilter : (config.filter.check context).passed = true)
    (hcombine : config.aggregation.combine signals = .ok aggregated) :
    config.process signals context snapshot c u =
      config.processAggregated u signals context snapshot c (config.filter.check context)
        aggregated (u + 1) := by
  have hskip : ¬ ¬ (config.filter.check context).passed = true := not_not.mpr hfilter
  change config.processStages u signals context snapshot c (u + 1) = _
  unfold processStages
  rw [if_neg hskip]
  simp only [hcombine]

/-- A decision that fails the first six checks is rejected by the first of them that fails. -/
theorem process_of_failed (hfilter : (config.filter.check context).passed = true)
    (hcombine : config.aggregation.combine signals = .ok aggregated)
    (hfailed : ¬ (config.risk.evaluate aggregated snapshot).passed = true) :
    ∃ d, (config.process signals context snapshot c u).1 = .ok d ∧
      d.result = .rejected (firstFailed (config.risk.checks aggregated snapshot)) .riskManager ∧
      d.decisionLog.riskCheck.checks = config.risk.checks aggregated snapshot := by
  rw [process_aggregated hfilter hcombine]
  unfold processAggregated
  simp only [hfailed]
  exact ⟨_, rfl, rfl, rfl⟩

theorem firstFailed_append {checks : List RiskCheckResult} {check : RiskCheckResult}
    (h : checks.all (·.passed) = true) (hfail : check.passed = false) :
    firstFailed (checks ++ [check]) = some check.checkName := by
  have hnone : checks.find? (fun x => ¬ x.passed) = none := by
    rw [List.find?_eq_none]
    intro x hx
    simpa using List.all_eq_true.mp h x hx
  rw [firstFailed, List.find?_append, hnone]
  simp [hfail]

/-- The end of `process` rejects only for the risk-reward ratio. -/
theorem finish_cases {decisionId : ℕ} {marketResult : StageResult} {aggregation : AggregationResult}
    {verdict : RiskVerdict} {finalSignal : FinalSignal} (h : verdict.passed = true)
    (hchecks : verdict.checks.all (·.passed) = true) :
    let d :=
      config.finish decisionId signals snapshot c marketResult aggregation verdict finalSignal
    (d.result = .approved ∨ d.result = .rejected (some "min_risk_reward") .riskManager) ∧
      ∃ rrCheck, rrCheck.checkName = "min_risk_reward" ∧
        d.decisionLog.riskCheck.checks = verdict.checks ++ [rrCheck] := by
  intro d
  let verdict' := config.risk.finalizeVerdict verdict finalSignal snapshot
  by_cases hrr : config.risk.minRiskReward ≤ finalSignal.riskReward
  · have hpassed : verdict'.passed = true := by
      simp [verdict', RiskConfig.finalizeVerdict, RiskConfig.checkResult, h, hrr]
    have hd : d = decision decisionId c .approved
        (log marketResult signals aggregation verdict' snapshot) (some finalSignal) :=
      if_neg (not_not.mpr hpassed)
    exact ⟨.inl (by rw [hd]; rfl), _, rfl, by rw [hd]; rfl⟩
  · have hfailed : ¬ verdict'.passed = true := by
      simp [verdict', RiskConfig.finalizeVerdict, RiskConfig.checkResult, hrr]
    have hd : d = decision decisionId c (.rejected (firstFailed verdict'.checks) .riskManager)
        (log marketResult signals aggregation verdict' snapshot) := if_pos hfailed
    have hfirst : firstFailed verdict'.checks = some "min_risk_reward" :=
      firstFailed_append hchecks (by simp [RiskConfig.checkResult, hrr])
    exact ⟨.inr (by rw [hd, hfirst]; rfl), _, rfl, by rw [hd]; rfl⟩

/-- A decision that passes the six checks is rejected only for its risk-reward ratio. -/
theorem process_of_passed (hfilter : (config.filter.check context).passed = true)
    (hcombine : config.aggregation.combine signals = .ok aggregated)
    (hpassed : (config.risk.evaluate aggregated snapshot).passed = true) {d : Decision}
    (hd : (config.process signals context snapshot c u).1 = .ok d) :
    (d.result = .approved ∨ d.result = .rejected (some "min_risk_reward") .riskManager) ∧
      ∃ rrCheck, rrCheck.checkName = "min_risk_reward" ∧
        d.decisionLog.riskCheck.checks = config.risk.checks aggregated snapshot ++ [rrCheck] := by
  rw [process_aggregated hfilter hcombine] at hd
  unfold processAggregated at hd
  simp only [hpassed, not_true, if_false] at hd
  change Except.map _ (FinalSignalBuilder.build aggregated signals context snapshot c.decisionTime
    c.revisionId config.risk.volTargetAtrPct config.risk.volTargetCap (u + 1)).1 = _ at hd
  cases hbuilt : (FinalSignalBuilder.build aggregated signals context snapshot c.decisionTime
      c.revisionId config.risk.volTargetAtrPct config.risk.volTargetCap (u + 1)).1 with
  | error e =>
    rw [hbuilt] at hd
    cases hd
  | ok signal =>
    rw [hbuilt] at hd
    cases hd
    exact finish_cases hpassed hpassed

/-- An approved decision has passed the six checks. -/
theorem process_of_approved {d : Decision}
    (hd : (config.process signals context snapshot c u).1 = .ok d)
    (happroved : d.isApproved = true) :
    ∃ aggregated, config.aggregation.combine signals = .ok aggregated ∧
      (config.risk.evaluate aggregated snapshot).passed = true := by
  have hresult : d.result = .approved := beq_iff_eq.mp happroved
  cases hfilter : (config.filter.check context).passed with
  | false =>
    change (config.processStages u signals context snapshot c (u + 1)).1 = _ at hd
    unfold processStages at hd
    rw [if_pos (by rw [hfilter]; exact Bool.false_ne_true)] at hd
    cases hd
    cases hresult
  | true =>
    cases hcombine : config.aggregation.combine signals with
    | error reason =>
      change (config.processStages u signals context snapshot c (u + 1)).1 = _ at hd
      unfold processStages at hd
      rw [if_neg (not_not.mpr hfilter)] at hd
      simp only [hcombine] at hd
      cases hd
      cases hresult
    | ok aggregated =>
      refine ⟨aggregated, rfl, ?_⟩
      by_contra hfailed
      obtain ⟨d', hd', hrejected, _⟩ := process_of_failed (c := c) (u := u) hfilter hcombine hfailed
      cases hd.symm.trans hd'
      rw [hresult] at hrejected
      cases hrejected

/-- A decision is approved only below the limit on the signals of the day. -/
theorem signalsToday_lt_of_approved {d : Decision}
    (hd : (config.process signals context snapshot c u).1 = .ok d)
    (happroved : d.isApproved = true) :
    snapshot.risk.signalsToday < config.risk.maxSignalsPerDay := by
  obtain ⟨aggregated, _, hpassed⟩ := process_of_approved hd happroved
  have hcheck := List.all_eq_true.mp hpassed (config.risk.maxSignalsPerDayCheck snapshot.risk)
    (List.mem_cons_of_mem _ List.mem_cons_self)
  exact of_decide_eq_true hcheck

end EngineConfig

/-! ## Limits on opening -/

/-- The checks that gate opening a position. -/
def openingLimits : List String :=
  ["daily_drawdown", "max_signals_per_day", "max_open_positions", "max_exposure",
    "max_consecutive_losses"]

/-- The side closes an open position of the symbol. -/
def PortfolioState.ownOpposed (portfolio : PortfolioState) (symbol : String) (side : Side) : Prop :=
  ∃ p ∈ portfolio.openPositions, p.symbol = symbol ∧ side.opposes p.side = true

/-- The side closes an open position of another symbol. -/
def PortfolioState.otherOpposed (portfolio : PortfolioState) (symbol : String) (side : Side) :
    Prop :=
  ∃ p ∈ portfolio.openPositions, p.symbol ≠ symbol ∧ side.opposes p.side = true

/-- The decision is rejected, for the given reason. -/
def RejectedFor (reason : String) (outcome : Except PyError Decision) : Prop :=
  ∃ d, outcome = .ok d ∧ d.result = .rejected (some reason) .riskManager

/-- The risk manager rejects the decision, and the named check is among those that failed. -/
def EnforcedBy (checkName : String) (outcome : Except PyError Decision) : Prop :=
  ∃ d reason, outcome = .ok d ∧ d.result = .rejected reason .riskManager ∧
    ∃ check ∈ d.decisionLog.riskCheck.checks, check.checkName = checkName ∧ check.passed = false

/-- A decision that closes a position of its own symbol is not rejected for a limit on opening, and
for any other decision the position limit and the exposure limit are enforced. -/
structure GatesOpening (config : RiskConfig) (symbol : String) (side : Side)
    (snapshot : StateSnapshot) (outcome : Except PyError Decision) : Prop where
  exits : snapshot.portfolio.ownOpposed symbol side →
    ∀ reason ∈ openingLimits, ¬ RejectedFor reason outcome
  positions : ¬ snapshot.portfolio.ownOpposed symbol side →
    config.maxOpenPositions ≤ snapshot.portfolio.openPositions.length →
    EnforcedBy "max_open_positions" outcome
  exposure : ¬ snapshot.portfolio.ownOpposed symbol side →
    config.maxExposurePct < snapshot.risk.openExposurePct → EnforcedBy "max_exposure" outcome

/-- Where the limits of the risk manager gate opening only: an exit of its own symbol finds the
drawdown, the signals and the losses within their limits (the losses matter only when the confidence
suffices), and no position of another symbol waives a breached limit. -/
structure OpeningGated (config : RiskConfig) (symbol : String) (aggregated : AggregatorSuccess)
    (snapshot : StateSnapshot) : Prop where
  exits : snapshot.portfolio.ownOpposed symbol aggregated.side →
    snapshot.risk.dailyDrawdownPct < config.maxDailyDrawdownPct ∧
    snapshot.risk.signalsToday < config.maxSignalsPerDay ∧
    (snapshot.risk.consecutiveLosses < snapshot.risk.limits.maxConsecutiveLosses ∨
      aggregated.confidence < config.minConfidence)
  others : ¬ snapshot.portfolio.ownOpposed symbol aggregated.side →
    snapshot.portfolio.otherOpposed symbol aggregated.side →
    (snapshot.portfolio.openPositions.length : ℤ) < config.maxOpenPositions ∧
    snapshot.risk.openExposurePct ≤ config.maxExposurePct

namespace EngineConfig

section

variable {config : EngineConfig} {signals : List StrategySignal} {context : MarketContext}
  {snapshot : StateSnapshot} {c : DecisionCtx} {u : ℕ} {aggregated : AggregatorSuccess}

theorem opposingExit_iff (side : Side) (portfolio : PortfolioState) (symbol : String) :
    RiskConfig.opposingExit side portfolio = true ↔
      portfolio.ownOpposed symbol side ∨ portfolio.otherOpposed symbol side := by
  simp only [RiskConfig.opposingExit, List.any_eq_true]
  constructor
  · rintro ⟨p, hp, hopp⟩
    by_cases hsym : p.symbol = symbol
    · exact .inl ⟨p, hp, hsym, hopp⟩
    · exact .inr ⟨p, hp, hsym, hopp⟩
  · rintro (⟨p, hp, _, hopp⟩ | ⟨p, hp, _, hopp⟩) <;> exact ⟨p, hp, hopp⟩

theorem firstFailed_cons {check : RiskCheckResult} {rest : List RiskCheckResult} :
    firstFailed (check :: rest) =
      if check.passed = true then firstFailed rest else some check.checkName := by
  cases hpassed : check.passed <;> simp [firstFailed, hpassed]

variable (config) in
/-- The first check to fail for an exit; the waived checks never do. -/
theorem firstFailed_checks_of_exit
    (hexit : RiskConfig.opposingExit aggregated.side snapshot.portfolio = true) :
    firstFailed (config.risk.checks aggregated snapshot) =
      if snapshot.risk.dailyDrawdownPct < config.risk.maxDailyDrawdownPct then
        if snapshot.risk.signalsToday < config.risk.maxSignalsPerDay then
          if config.risk.minConfidence ≤ aggregated.confidence then
            if snapshot.risk.consecutiveLosses < snapshot.risk.limits.maxConsecutiveLosses then
              none
            else some "max_consecutive_losses"
          else some "min_confidence"
        else some "max_signals_per_day"
      else some "daily_drawdown" := by
  have hpositions :
      (config.risk.maxOpenPositionsCheck aggregated.side snapshot.portfolio).passed = true := by
    simp [RiskConfig.maxOpenPositionsCheck, RiskConfig.checkResult, hexit]
  have hexposure : (config.risk.maxExposureCheck aggregated.side snapshot.portfolio
      snapshot.risk).passed = true := by
    simp [RiskConfig.maxExposureCheck, RiskConfig.checkResult, hexit]
  simp only [RiskConfig.checks, firstFailed_cons, hpositions, hexposure, if_true,
    RiskConfig.dailyDrawdownCheck, RiskConfig.maxSignalsPerDayCheck, RiskConfig.minConfidenceCheck,
    RiskConfig.maxConsecutiveLossesCheck, RiskConfig.checkResult, decide_eq_true_eq]
  rfl

theorem evaluate_passed_iff : (config.risk.evaluate aggregated snapshot).passed = true ↔
    firstFailed (config.risk.checks aggregated snapshot) = none := by
  simp only [RiskConfig.evaluate, firstFailed, Option.map_eq_none_iff, List.find?_eq_none,
    List.all_eq_true]
  refine forall₂_congr fun check _ => ?_
  simp

/-- The decision is rejected for a limit on opening when such a limit is the first to fail. -/
theorem rejectedFor_iff (hfilter : (config.filter.check context).passed = true)
    (hcombine : config.aggregation.combine signals = .ok aggregated) {reason : String}
    (hreason : reason ∈ openingLimits) :
    RejectedFor reason (config.process signals context snapshot c u).1 ↔
      firstFailed (config.risk.checks aggregated snapshot) = some reason := by
  by_cases hpassed : (config.risk.evaluate aggregated snapshot).passed = true
  · refine iff_of_false ?_ ?_
    · rintro ⟨d, hd, hresult⟩
      rcases (process_of_passed hfilter hcombine hpassed hd).1 with happroved | hrejected
      · rw [hresult] at happroved
        cases happroved
      · rw [hresult] at hrejected
        obtain rfl : reason = "min_risk_reward" := by simpa using hrejected
        simp [openingLimits] at hreason
    · rw [evaluate_passed_iff.mp hpassed]
      exact fun h => by cases h
  · obtain ⟨d, hd, hresult, _⟩ := process_of_failed (c := c) (u := u) hfilter hcombine hpassed
    constructor
    · rintro ⟨d', hd', hresult'⟩
      rw [hd] at hd'
      cases hd'
      rw [hresult] at hresult'
      simpa using hresult'
    · intro hfirst
      exact ⟨d, hd, by rw [hresult, hfirst]⟩

/-- When an exit is not rejected for a limit on opening. -/
theorem exits_iff (hfilter : (config.filter.check context).passed = true)
    (hcombine : config.aggregation.combine signals = .ok aggregated)
    (hexit : RiskConfig.opposingExit aggregated.side snapshot.portfolio = true) :
    (∀ reason ∈ openingLimits,
      ¬ RejectedFor reason (config.process signals context snapshot c u).1) ↔
    (snapshot.risk.dailyDrawdownPct < config.risk.maxDailyDrawdownPct ∧
      snapshot.risk.signalsToday < config.risk.maxSignalsPerDay ∧
      (snapshot.risk.consecutiveLosses < snapshot.risk.limits.maxConsecutiveLosses ∨
        aggregated.confidence < config.risk.minConfidence)) := by
  have hfirst := firstFailed_checks_of_exit config hexit
  calc (∀ reason ∈ openingLimits,
      ¬ RejectedFor reason (config.process signals context snapshot c u).1)
    _ ↔ ∀ reason ∈ openingLimits,
        firstFailed (config.risk.checks aggregated snapshot) ≠ some reason :=
      forall₂_congr fun reason hreason => not_congr (rejectedFor_iff hfilter hcombine hreason)
    _ ↔ _ := by
      rw [hfirst, ← not_le (a := config.risk.minConfidence)]
      split_ifs <;> simp_all [openingLimits]

/-- When a limit is enforced on a decision: its check fails, waived or not. -/
theorem enforcedBy_iff (hfilter : (config.filter.check context).passed = true)
    (hcombine : config.aggregation.combine signals = .ok aggregated) {checkName : String}
    (hname : checkName ≠ "min_risk_reward") :
    EnforcedBy checkName (config.process signals context snapshot c u).1 ↔
      ∃ check ∈ config.risk.checks aggregated snapshot,
        check.checkName = checkName ∧ check.passed = false := by
  by_cases hpassed : (config.risk.evaluate aggregated snapshot).passed = true
  · have hall : ∀ check ∈ config.risk.checks aggregated snapshot, check.passed = true :=
      List.all_eq_true.mp hpassed
    refine iff_of_false ?_ ?_
    · rintro ⟨d, reason, hd, _, check, hcheck, hcn, hfail⟩
      obtain ⟨_, rrCheck, hrr, hchecks⟩ := process_of_passed hfilter hcombine hpassed hd
      rw [hchecks, List.mem_append, List.mem_singleton] at hcheck
      rcases hcheck with hcheck | rfl
      · exact absurd (hall check hcheck) (by simp [hfail])
      · exact hname (hcn.symm.trans hrr)
    · rintro ⟨check, hcheck, _, hfail⟩
      exact absurd (hall check hcheck) (by simp [hfail])
  · obtain ⟨d, hd, hresult, hchecks⟩ :=
      process_of_failed (c := c) (u := u) hfilter hcombine hpassed
    constructor
    · rintro ⟨d', reason, hd', _, check⟩
      rw [hd] at hd'
      cases hd'
      rwa [hchecks] at check
    · intro hcheck
      exact ⟨d, _, hd, hresult, hchecks ▸ hcheck⟩

variable (snapshot c u) in
theorem positions_enforced_iff (hfilter : (config.filter.check context).passed = true)
    (hcombine : config.aggregation.combine signals = .ok aggregated) :
    EnforcedBy "max_open_positions" (config.process signals context snapshot c u).1 ↔
      ¬ RiskConfig.opposingExit aggregated.side snapshot.portfolio = true ∧
        config.risk.maxOpenPositions ≤ snapshot.portfolio.openPositions.length := by
  rw [enforcedBy_iff hfilter hcombine (by simp)]
  simp [RiskConfig.checks, RiskConfig.dailyDrawdownCheck, RiskConfig.maxSignalsPerDayCheck,
    RiskConfig.maxOpenPositionsCheck, RiskConfig.maxExposureCheck, RiskConfig.minConfidenceCheck,
    RiskConfig.maxConsecutiveLossesCheck, RiskConfig.checkResult]

variable (snapshot c u) in
theorem exposure_enforced_iff (hfilter : (config.filter.check context).passed = true)
    (hcombine : config.aggregation.combine signals = .ok aggregated) :
    EnforcedBy "max_exposure" (config.process signals context snapshot c u).1 ↔
      ¬ RiskConfig.opposingExit aggregated.side snapshot.portfolio = true ∧
        config.risk.maxExposurePct < snapshot.risk.openExposurePct := by
  rw [enforcedBy_iff hfilter hcombine (by simp)]
  simp [RiskConfig.checks, RiskConfig.dailyDrawdownCheck, RiskConfig.maxSignalsPerDayCheck,
    RiskConfig.maxOpenPositionsCheck, RiskConfig.maxExposureCheck, RiskConfig.minConfidenceCheck,
    RiskConfig.maxConsecutiveLossesCheck, RiskConfig.checkResult]

/-- The limits gate opening, and only opening, exactly under `OpeningGated`. -/
theorem gatesOpening_iff (hfilter : (config.filter.check context).passed = true)
    (hcombine : config.aggregation.combine signals = .ok aggregated) :
    GatesOpening config.risk context.symbol aggregated.side snapshot
      (config.process signals context snapshot c u).1 ↔
    OpeningGated config.risk context.symbol aggregated snapshot := by
  have hopposing := opposingExit_iff aggregated.side snapshot.portfolio context.symbol
  have hpositions := positions_enforced_iff snapshot c u hfilter hcombine
  have hexposure := exposure_enforced_iff snapshot c u hfilter hcombine
  by_cases hown : snapshot.portfolio.ownOpposed context.symbol aggregated.side
  · have hexits := exits_iff (c := c) (u := u) hfilter hcombine (hopposing.mpr (.inl hown))
    constructor
    · intro h
      exact ⟨fun _ => hexits.mp (h.exits hown), fun hno => absurd hown hno⟩
    · intro h
      exact ⟨fun _ => hexits.mpr (h.exits hown), fun hno => absurd hown hno,
        fun hno => absurd hown hno⟩
  · constructor
    · intro h
      refine ⟨fun hyes => absurd hyes hown, fun _ hother => ⟨?_, ?_⟩⟩
      · refine lt_of_not_ge fun hge => ?_
        exact (hpositions.mp (h.positions hown hge)).1 (hopposing.mpr (.inr hother))
      · refine le_of_not_gt fun hgt => ?_
        exact (hexposure.mp (h.exposure hown hgt)).1 (hopposing.mpr (.inr hother))
    · intro h
      refine ⟨fun hyes => absurd hyes hown, fun _ hge => hpositions.mpr ⟨fun hopp => ?_, hge⟩,
        fun _ hgt => hexposure.mpr ⟨fun hopp => ?_, hgt⟩⟩
      · have hother := (hopposing.mp hopp).resolve_left hown
        exact absurd hge (not_le.mpr (h.others hown hother).1)
      · have hother := (hopposing.mp hopp).resolve_left hown
        exact absurd hgt (not_lt.mpr (h.others hown hother).2)

end

/-! ## An exit rejected for the drawdown -/

def sellSignal : StrategySignal where
  providerId := "trend"
  symbol := "BTC"
  side := .sell
  confidence := 1
  confidence_mem := one_mem_unit
  rationale := { summary := "", metadata := [] }
  stopLoss := some 101
  takeProfit := some 98
  timeframe := "1h"
  eventTime := 0

def usContext : MarketContext where
  symbol := "BTC"
  timeframe := "1h"
  currentPrice := 100
  trend := .down
  volatility := .normal
  atr := 1
  atrPct := 1
  session := .us
  eventTime := 0

/-- A long position in `symbol`, with the drawdown at 6 percent. -/
def drawnDown (symbol : String) : StateSnapshot :=
  let s := InMemoryStateStore.init 10000
  { snapshotId := 0
    portfolio := { s.portfolio with openPositions := [{
      positionId := 1, symbol, side := .long, quantity := 1, entryPrice := 100, entryTime := 0
      stopLoss := none, takeProfit := none }] }
    risk := { s.risk with dailyDrawdownPct := 6 }
    version := 1, correlationId := none }

/-- The aggregate of `sellSignal` alone. -/
def soloSell : AggregatorSuccess := AggregationConfig.success [sellSignal] [] .sell false

def cycleCtx : DecisionCtx := { correlationId := .given "cycle", eventTime := 0, decisionTime := 0 }

theorem usContext_passes : (solo.filter.check usContext).passed = true := by decide +kernel

theorem combine_sellSignal : solo.aggregation.combine [sellSignal] = .ok soloSell := by
  decide +kernel

/-- A sell decision that would close the long position of its own symbol is rejected for the
drawdown. -/
theorem not_gatesOpening_drawdown :
    (solo.filter.check usContext).passed = true ∧
    solo.aggregation.combine [sellSignal] = .ok soloSell ∧
    ¬ GatesOpening solo.risk usContext.symbol soloSell.side (drawnDown "BTC")
      (solo.process [sellSignal] usContext (drawnDown "BTC") cycleCtx 2).1 := by
  refine ⟨usContext_passes, combine_sellSignal, fun h => ?_⟩
  have hown : (drawnDown "BTC").portfolio.ownOpposed usContext.symbol soloSell.side :=
    ⟨_, List.mem_singleton_self _, rfl, rfl⟩
  refine h.exits hown "daily_drawdown" (by simp [openingLimits]) ?_
  rw [rejectedFor_iff usContext_passes combine_sellSignal (by simp [openingLimits])]
  decide +kernel

theorem gatesOpening_iff_drawdown :
    GatesOpening solo.risk usContext.symbol soloSell.side (drawnDown "BTC")
      (solo.process [sellSignal] usContext (drawnDown "BTC") cycleCtx 2).1 ↔
    OpeningGated solo.risk usContext.symbol soloSell (drawnDown "BTC") :=
  gatesOpening_iff usContext_passes combine_sellSignal

end EngineConfig

end TradingPlatform
