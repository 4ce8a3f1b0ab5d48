import TradingPlatform.Validation.Breakdowns
import TradingPlatform.Validation.Timeline

/-!
# The outcome of a logged run

All that `compute_outcome_metrics` gives for the events of a log: the totals of the closed trades,
the ratios, the curve marked to market, the timeline, the breakdowns and the scores.
-/

namespace TradingPlatform

/-- The totals of the closed trades, given by their results in the order of the log. -/
def OutcomeMetrics.ofTrades (pnls : List ℚ) (ordersRejected positionsOpened : ℕ)
    (initialCapital : ℚ) (endingEquity : Option ℚ) (mtm : Option MarkedOutcome) :
    OutcomeMetrics :=
  let grossProfit := (pnls.filter (0 < ·)).sum
  let grossLoss := |(pnls.filter (· ≤ 0)).sum|
  let equityCurve := closedTradeCurve initialCapital pnls
  let drawdown := outcomeDrawdown initialCapital equityCurve
  let finalEquity := endingEquity.getD (equityCurve.getLastD initialCapital)
  { totalTrades := pnls.length
    winRate := if pnls = [] then 0 else (pnls.countP (0 < ·) : ℚ) / pnls.length
    profitFactor := if 0 < grossLoss then some (grossProfit / grossLoss)
      else if grossProfit ≠ 0 then none else some 0
    maxDrawdown := drawdown.2.1
    maxDrawdownPct := drawdown.2.2
    grossProfit
    grossLoss
    totalPnl := pnls.sum
    initialCapital
    endingEquity := finalEquity
    returnPct := if 0 < initialCapital then
      (finalEquity - initialCapital) / initialCapital * 100 else 0
    equityCurve
    ordersRejected
    positionsOpened
    positionsClosed := pnls.length
    mtm }

/-- `_annualized_sortino` -/
def annualizedSortino (sqrt : ℚ → ℚ) (dailyReturns : List ℚ) : ℚ :=
  if dailyReturns.length < 2 then 0
  else
    let mean : ℚ := dailyReturns.sum / dailyReturns.length
    let downsideVar : ℚ :=
      (dailyReturns.map fun r => (min 0 r) ^ 2).sum / dailyReturns.length
    let downsideStd := sqrt downsideVar
    if downsideStd ≤ 0 then 0 else mean / downsideStd * sqrt 252

structure FailureSummary where
  totalLosses : ℕ
  lossShareByRegime : Dict String ℚ
  lowConfidenceLossShare : ℚ
  avgWin : ℚ
  avgLoss : ℚ
  unattributedTrades : ℕ
  deriving DecidableEq

/-- `summarize_failures` -/
def summarizeFailures (regime : RegimeBreakdown) : FailureSummary :=
  let buckets := regime.byRegime.values
  let totalLosses := (buckets.map (·.losses)).sum
  let lowConfidenceLosses := ((regime.byConfidenceBand.entries.filter fun (band, _) =>
    band = "below_0.60" ∨ band = "0.60-0.69").map fun (_, bucket) => bucket.losses).sum
  let totalConfidenceLosses := (regime.byConfidenceBand.values.map (·.losses)).sum
  let winsTotal := (buckets.map (·.grossProfit)).sum
  let winCount := (buckets.map (·.wins)).sum
  let lossesTotal := (buckets.map (·.grossLoss)).sum
  { totalLosses
    lossShareByRegime := (regime.byRegime.filter fun _ bucket =>
      decide (0 < totalLosses ∧ 0 < bucket.losses)).map fun bucket =>
        roundDigits ((bucket.losses : ℚ) / totalLosses) 4
    lowConfidenceLossShare := if 0 < totalConfidenceLosses then
      roundDigits ((lowConfidenceLosses : ℚ) / totalConfidenceLosses) 4 else 0
    avgWin := roundDigits (if winCount ≠ 0 then winsTotal / winCount else 0) 4
    avgLoss := roundDigits (if totalLosses ≠ 0 then -lossesTotal / totalLosses else 0) 4
    unattributedTrades := regime.unattributedTrades }

namespace Logged

/-- `compute_daily_equity_returns` -/
def computeDailyEquityReturns (events : List LoggedEvent) (initialCapital : ℚ) : List ℚ :=
  dailyReturns initialCapital
    (sumsBy date ((closedByTime events).map fun e => (e.eventTime, e.pnl)))

/-- The entries of the outcome that are added when the run has candle events. -/
structure MarkedOutcome extends TradingPlatform.MarkedOutcome where
  sharpeRatio : ℚ
  sortinoRatio : ℚ
  deriving DecidableEq, Repr

/-- The marked entries; the return divides by the initial capital with no guard. -/
def markedOutcome (sqrt : ℚ → ℚ) (events : List LoggedEvent) (initialCapital : ℚ) :
    Except PyError (Option MarkedOutcome) :=
  let (mtmCurve, mtmReturns) := computeMarkToMarketSeries events initialCapital
  match mtmCurve.getLast? with
  | none => .ok none
  | some last =>
    if initialCapital = 0 then .error .zeroDivisionError
    else .ok (some {
      equityCurve := mtmCurve
      returnPct := (last - initialCapital) / initialCapital * 100
      maxDrawdownPct := maxDrawdownPct mtmCurve
      sharpeRatio := annualizedSharpe sqrt mtmReturns
      sortinoRatio := annualizedSortino sqrt mtmReturns })

/-- The outcome of a run. -/
structure Outcome extends OutcomeMetrics where
  sharpeRatio : ℚ
  sortinoRatio : ℚ
  tradeSharpeRatio : ℚ
  dailyReturnCount : ℕ
  marked : Option MarkedOutcome
  equityTimeline : Option EquityTimeline
  monthlyBreakdown : List MonthlyRow
  diagnostics : Diagnostics
  regimeAnalysis : RegimeBreakdown
  score : ℚ
  optimizationScore : ℚ
  failureSummary : FailureSummary
  deriving DecidableEq

/-- `compute_outcome_metrics` -/
def computeOutcomeMetrics (sqrt : ℚ → ℚ) (events : List LoggedEvent) (initialCapital : ℚ)
    (endingEquity : Option ℚ := none) : Except PyError Outcome := do
  let pnls := (closedTrades events).map (·.pnl)
  let dailyReturns' := computeDailyEquityReturns events initialCapital
  let sharpe := annualizedSharpe sqrt dailyReturns'
  let marked ← markedOutcome sqrt events initialCapital
  let timeline ← computeEquityTimeline sqrt events initialCapital
  let totals := OutcomeMetrics.ofTrades pnls (eventsOfType .orderRejected events).length
    (eventsOfType .positionOpened events).length initialCapital endingEquity
    (marked.map (·.toMarkedOutcome))
  let regimeAnalysis := computeRegimeBreakdown events
  let score := strategyScore totals sharpe
  return { totals with
    sharpeRatio := sharpe
    sortinoRatio := annualizedSortino sqrt dailyReturns'
    tradeSharpeRatio := annualizedSharpe sqrt (dailyReturns initialCapital pnls)
    dailyReturnCount := dailyReturns'.length
    marked
    equityTimeline := timeline
    monthlyBreakdown := computeMonthlyBreakdown events initialCapital
    diagnostics := computeDiagnostics events
    regimeAnalysis
    score
    optimizationScore := TradingPlatform.optimizationScore score totals.totalTrades
    failureSummary := summarizeFailures regimeAnalysis }

variable {sqrt : ℚ → ℚ} {events : List LoggedEvent} {initialCapital : ℚ}
  {endingEquity : Option ℚ} {outcome : Outcome}

/-! ## When the metrics are computed -/

theorem markedOutcome_returns (hcapital : initialCapital ≠ 0) :
    ∃ marked, markedOutcome sqrt events initialCapital = .ok marked := by
  unfold markedOutcome
  obtain ⟨curve, returns⟩ := computeMarkToMarketSeries events initialCapital
  cases hlast : curve.getLast? with
  | none => exact ⟨none, by simp only [hlast]⟩
  | some last => exact ⟨some _, by simp only [hlast, if_neg hcapital]; rfl⟩

theorem computeEquityTimeline_returns {maxPoints : ℕ} (hcapital : initialCapital ≠ 0)
    (hmax : maxPoints ≠ 0) :
    ∃ timeline, computeEquityTimeline sqrt events initialCapital maxPoints = .ok timeline := by
  unfold computeEquityTimeline
  dsimp only
  split
  · exact ⟨_, rfl⟩
  · split
    · exact ⟨_, rfl⟩
    · exact ⟨_, if_neg (not_or.mpr ⟨hmax, hcapital⟩)⟩

/-- With an initial capital the metrics of any log can be computed. -/
theorem computeOutcomeMetrics_returns (hcapital : initialCapital ≠ 0) :
    ∃ outcome, computeOutcomeMetrics sqrt events initialCapital endingEquity = .ok outcome := by
  obtain ⟨marked, hmarked⟩ : ∃ marked, markedOutcome sqrt events initialCapital = .ok marked :=
    markedOutcome_returns hcapital
  obtain ⟨timeline, htimeline⟩ : ∃ timeline,
      computeEquityTimeline sqrt events initialCapital = .ok timeline :=
    computeEquityTimeline_returns hcapital (by decide)
  unfold computeOutcomeMetrics
  rw [hmarked, htimeline]
  exact ⟨_, rfl⟩

/-- The totals of the metrics are those of the closed trades. -/
theorem toOutcomeMetrics_of_ok
    (h : computeOutcomeMetrics sqrt events initialCapital endingEquity = .ok outcome) :
    outcome.toOutcomeMetrics = OutcomeMetrics.ofTrades ((closedTrades events).map (·.pnl))
      (eventsOfType .orderRejected events).length (eventsOfType .positionOpened events).length
      initialCapital endingEquity (outcome.marked.map (·.toMarkedOutcome)) := by
  obtain ⟨marked, -, h⟩ := Except.bind_eq_ok.mp h
  obtain ⟨timeline, -, h⟩ := Except.bind_eq_ok.mp h
  cases h
  rfl

/-- A log whose trades come out of order and lack most entries. -/
def sparseLog : List LoggedEvent :=
  [{ eventType := .positionClosed, eventTime := 2764800000000, correlationId := .given "b"
     payload := { pnl := some (-3) } },
   { eventType := .positionClosed, eventTime := 86400000000, correlationId := .given "a"
     payload := { pnl := some 5, exitReason := some "stop_loss" } },
   { eventType := .positionClosed, eventTime := 0, correlationId := .given "" }]

section

variable (events : List EventEnvelope)

theorem pnls_logged :
    (closedTrades (events.map EventEnvelope.logged)).map (·.pnl) =
      (TradingPlatform.eventsOfType .positionClosed events).map (·.pnl) := by
  rw [closedTrades, eventsOfType, List.filter_map, List.map_map]
  refine List.map_congr_left fun e _ => ?_
  obtain ⟨_, _, _, _, _, _, _, _, _, _, payload⟩ := e
  cases payload <;> rfl

theorem length_eventsOfType_logged (eventType : EventType) :
    (eventsOfType eventType (events.map EventEnvelope.logged)).length =
      (TradingPlatform.eventsOfType eventType events).length := by
  rw [eventsOfType, List.filter_map, List.length_map]
  rfl

theorem markedOutcome_logged :
    (markedOutcome sqrt (events.map EventEnvelope.logged) initialCapital).map
        (Option.map (·.toMarkedOutcome)) =
      TradingPlatform.markedOutcome events initialCapital := by
  unfold markedOutcome TradingPlatform.markedOutcome
  rw [computeMarkToMarketSeries_logged]
  obtain ⟨curve, returns⟩ := TradingPlatform.computeMarkToMarketSeries events initialCapital
  dsimp only
  cases curve.getLast? with
  | none => rfl
  | some last =>
    dsimp only
    split
    · rfl
    · rfl

end

/-- The timeline fails only where the marked entries do. -/
theorem computeEquityTimeline_of_marked {marked : Option MarkedOutcome}
    (h : markedOutcome sqrt events initialCapital = .ok marked) :
    ∃ timeline, computeEquityTimeline sqrt events initialCapital = .ok timeline := by
  by_cases hcapital : initialCapital = 0
  · by_cases hcandle : (markedEvents events).any (·.eventType = .candleReceived) = true
    · have hcurve : (computeMarkToMarketSeries events initialCapital).1.getLast? ≠ none := by
        simp [computeMarkToMarketSeries, hcandle]
      unfold markedOutcome at h
      generalize computeMarkToMarketSeries events initialCapital = series at h hcurve
      obtain ⟨curve, returns⟩ := series
      dsimp only at h hcurve
      cases hlast : curve.getLast? with
      | none => exact absurd hlast hcurve
      | some last =>
        rw [hlast] at h
        dsimp only at h
        rw [if_pos hcapital] at h
        cases h
    · refine ⟨none, ?_⟩
      unfold computeEquityTimeline
      dsimp only
      rw [if_pos hcandle]
  · exact computeEquityTimeline_returns hcapital (by decide)

theorem outcomeDrawdown_closedTradeCurve (pnls : List ℚ) (initialCapital : ℚ) :
    (outcomeDrawdown initialCapital (closedTradeCurve initialCapital pnls)).2 =
      (maxDrawdown initialCapital (closedTradeCurve initialCapital pnls),
        maxDrawdownPct (closedTradeCurve initialCapital pnls)) := by
  obtain ⟨hsum, hpct⟩ :=
    outcomeDrawdown_eq initialCapital (closedTradeCurve initialCapital pnls)
  have hhead : (closedTradeCurve initialCapital pnls).headD 0 = initialCapital := by
    cases pnls <;> simp [closedTradeCurve]
  rw [maxDrawdownPct_eq, hhead, ← hsum, ← hpct]

/-- On the log of a run the totals are those of its events. -/
theorem computeOutcomeMetrics_logged (events : List EventEnvelope) :
    (computeOutcomeMetrics sqrt (events.map EventEnvelope.logged) initialCapital endingEquity).map
        (·.toOutcomeMetrics) =
      TradingPlatform.computeOutcomeMetrics events initialCapital endingEquity := by
  have hmarked : (markedOutcome sqrt (events.map EventEnvelope.logged) initialCapital).map
      (Option.map (·.toMarkedOutcome)) = _ := markedOutcome_logged events
  have hdrawdown := outcomeDrawdown_closedTradeCurve
    ((TradingPlatform.eventsOfType .positionClosed events).map (·.pnl)) initialCapital
  unfold computeOutcomeMetrics TradingPlatform.computeOutcomeMetrics
  rw [← hmarked]
  cases h : markedOutcome sqrt (events.map EventEnvelope.logged) initialCapital with
  | error e => rfl
  | ok marked =>
    obtain ⟨timeline, htimeline⟩ := computeEquityTimeline_of_marked h
    rw [htimeline]
    simp only [bind, Except.bind, pure, Except.pure, Except.map, OutcomeMetrics.ofTrades,
      pnls_logged, length_eventsOfType_logged, hdrawdown, List.length_map]

end Logged

end TradingPlatform
