import TradingPlatform.Jobs.Store
import TradingPlatform.Lib.Json
import TradingPlatform.Validation.EngineMetrics
import TradingPlatform.Validation.Harness
import TradingPlatform.Validation.Outcome

/-!
# The metrics of a finished run as JSON

A finished run is saved in a JSON column and served by the job route. Both take the metrics as they
are computed. All ratios guard their denominators and stay finite but one: the profit factor of a
run without a loss is `float("inf")`.
-/

namespace TradingPlatform

/-- `day.isoformat()` -/
def dateText (day : ℤ) : String :=
  let d := Calendar.civilDate day
  String.ofList (Calendar.yearText d.year ++ '-' :: Calendar.digits 2 d.month ++
    '-' :: Calendar.digits 2 d.day)

/-- `strftime("%Y-%m")` -/
def monthText (month : ℤ) : String :=
  String.ofList (Calendar.yearText ((month - 1) / 12) ++
    '-' :: Calendar.digits 2 ((month - 1) % 12 + 1).toNat)

/-! ## Documents -/

def BucketStats.toJson (b : BucketStats) : Json := .object [
  ("trades", .nat b.trades), ("wins", .nat b.wins), ("losses", .nat b.losses),
  ("win_rate", .rat b.winRate), ("pnl", .rat b.pnl), ("gross_profit", .rat b.grossProfit),
  ("gross_loss", .rat b.grossLoss)]

def EngineMetrics.toJson (m : EngineMetrics) : Json := .object [
  ("total_cycles", .nat m.totalCycles), ("approved", .nat m.approved),
  ("rejected", .rat m.rejected), ("approval_rate", .rat m.approvalRate),
  ("rejection_breakdown", .object [
    ("by_reason", .dict .nat m.byReason), ("by_stage", .dict .nat m.byStage)]),
  ("provider_contribution", .dict .nat m.providerContribution),
  ("decisions_with_snapshot_id", .nat m.decisionsWithSnapshotId),
  ("snapshot_coverage", .rat m.snapshotCoverage)]

/-- The profit factor, where `none` is `float("inf")`. -/
def profitFactorJson : Option ℚ → Json
  | some factor => .rat factor
  | none => .number .infinite

/-- The entries of the totals, and the ratios among them. -/
def OutcomeMetrics.entries (m : OutcomeMetrics)
    (sharpe sortino tradeSharpe : ℚ) (dailyReturnCount : ℕ) : List (String × Json) := [
  ("total_trades", .nat m.totalTrades), ("win_rate", .rat m.winRate),
  ("profit_factor", profitFactorJson m.profitFactor), ("max_drawdown", .rat m.maxDrawdown),
  ("max_drawdown_pct", .rat m.maxDrawdownPct), ("sharpe_ratio", .rat sharpe),
  ("sortino_ratio", .rat sortino), ("trade_sharpe_ratio", .rat tradeSharpe),
  ("daily_return_count", .nat dailyReturnCount), ("gross_profit", .rat m.grossProfit),
  ("gross_loss", .rat m.grossLoss), ("total_pnl", .rat m.totalPnl),
  ("initial_capital", .rat m.initialCapital), ("ending_equity", .rat m.endingEquity),
  ("return_pct", .rat m.returnPct), ("equity_curve", .list (m.equityCurve.map .rat)),
  ("orders_rejected", .nat m.ordersRejected), ("positions_opened", .nat m.positionsOpened),
  ("positions_closed", .nat m.positionsClosed)]

def RegimeBreakdown.toJson (r : RegimeBreakdown) : Json := .object [
  ("by_regime", .dict BucketStats.toJson r.byRegime),
  ("by_confidence_band", .dict BucketStats.toJson r.byConfidenceBand),
  ("unattributed_trades", .nat r.unattributedTrades)]

def FailureSummary.toJson (f : FailureSummary) : Json := .object [
  ("total_losses", .nat f.totalLosses),
  ("loss_share_by_regime", .dict .rat f.lossShareByRegime),
  ("low_confidence_loss_share", .rat f.lowConfidenceLossShare), ("avg_win", .rat f.avgWin),
  ("avg_loss", .rat f.avgLoss), ("unattributed_trades", .nat f.unattributedTrades)]

namespace Logged

def MarkedOutcome.entries (m : MarkedOutcome) : List (String × Json) := [
  ("mtm_equity_curve", .list (m.equityCurve.map .rat)), ("mtm_return_pct", .rat m.returnPct),
  ("mtm_max_drawdown_pct", .rat m.maxDrawdownPct), ("mtm_sharpe_ratio", .rat m.sharpeRatio),
  ("mtm_sortino_ratio", .rat m.sortinoRatio)]

def TimelinePoint.toJson (p : TimelinePoint) : Json := .object [
  ("date", .text (dateText p.date)), ("strategy", .rat p.strategy),
  ("benchmark", .rat p.benchmark)]

def EquityTimeline.toJson (t : EquityTimeline) : Json := .object [
  ("points", .list (t.points.map TimelinePoint.toJson)),
  ("benchmark_label", .text t.benchmarkLabel),
  ("benchmark_return_pct", .rat t.benchmarkReturnPct),
  ("benchmark_max_drawdown_pct", .rat t.benchmarkMaxDrawdownPct),
  ("benchmark_sharpe_ratio", .rat t.benchmarkSharpeRatio)]

def MonthlyRow.toJson (r : MonthlyRow) : Json := .object [
  ("month", .text (monthText r.month)), ("trades", .nat r.trades), ("win_rate", .rat r.winRate),
  ("pnl", .rat r.pnl), ("return_pct", .rat r.returnPct),
  ("max_drawdown_pct", .rat r.maxDrawdownPct), ("start_equity", .rat r.startEquity),
  ("end_equity", .rat r.endEquity)]

def Diagnostics.toJson (d : Diagnostics) : Json := .object [
  ("by_exit_reason", .dict BucketStats.toJson d.byExitReason),
  ("by_session", .dict BucketStats.toJson d.bySession),
  ("by_side", .dict BucketStats.toJson d.bySide)]

/-- The dictionary that `compute_outcome_metrics` returns. -/
def Outcome.toJson (o : Outcome) : Json := .object (
  o.toOutcomeMetrics.entries o.sharpeRatio o.sortinoRatio o.tradeSharpeRatio o.dailyReturnCount ++
  (o.marked.map MarkedOutcome.entries).getD [] ++
  (o.equityTimeline.map fun t => ("equity_timeline", t.toJson)).toList ++ [
    ("monthly_breakdown", .list (o.monthlyBreakdown.map MonthlyRow.toJson)),
    ("diagnostics", o.diagnostics.toJson), ("regime_analysis", o.regimeAnalysis.toJson),
    ("score", .rat o.score), ("optimization_score", .rat o.optimizationScore),
    ("failure_summary", o.failureSummary.toJson)])

/-! ## Saving and serving -/

/-- `ValidationRunRequest` -/
structure ValidationRunRequest where
  symbol : Option String := none
  timeframe : Option String := none
  startDate : Option String := none
  endDate : Option String := none
  csvPath : Option String := none
  source : String := "exchange"
  initialCapital : ℚ := 10000
  experimentId : Option String := none
  revisionId : Option String := none
  maxConsecutiveLosses : Option ℤ := none
  strategy : String := "baseline"

/-- `model_dump` -/
def ValidationRunRequest.modelDump (r : ValidationRunRequest) : Json := .object [
  ("symbol", .optText r.symbol), ("timeframe", .optText r.timeframe),
  ("start_date", .optText r.startDate), ("end_date", .optText r.endDate),
  ("csv_path", .optText r.csvPath), ("source", .text r.source),
  ("initial_capital", .rat r.initialCapital), ("experiment_id", .optText r.experimentId),
  ("revision_id", .optText r.revisionId),
  ("max_consecutive_losses", (r.maxConsecutiveLosses.map fun n => Json.rat n).getD .null),
  ("strategy", .text r.strategy)]

/-- A finished run, with its metrics. -/
structure ValidationResult where
  runId : String
  config : ValidationConfig
  engineMetrics : EngineMetrics
  outcomeMetrics : Logged.Outcome
  revisionId : Option String := none
  experimentId : Option String := none

namespace ValidationResult

variable (result : ValidationResult)

/-- The snapshot of a result that a job keeps. -/
def snapshot : List (String × Json) := [
  ("engine_metrics", result.engineMetrics.toJson),
  ("outcome_metrics", result.outcomeMetrics.toJson), ("run_id", .text result.runId),
  ("revision_id", .optText result.revisionId), ("experiment_id", .optText result.experimentId)]

/-- The `metrics` column. -/
def metrics : Json := .object [
  ("engine", result.engineMetrics.toJson), ("outcome", result.outcomeMetrics.toJson)]

end ValidationResult

/-- The row of a run, with its two JSON columns. -/
structure BacktestRunRow where
  runId : String
  symbol : String
  timeframe : String
  config : Json
  metrics : Json
  startedAt : ℤ
  completedAt : ℤ

/-- A JSON column takes the standard's numbers only. -/
def insertRow (row : BacktestRunRow) : Except PyError BacktestRunRow :=
  if row.config.Finite ∧ row.metrics.Finite then .ok row
  else .error (.raised "invalid input syntax for type json")

/-- The row of the run that `persist_validation_result` saves. -/
def persistValidationResult (now : ℤ) (result : ValidationResult)
    (revisionId experimentId : Option String) : Except PyError BacktestRunRow :=
  let rev := if given revisionId then revisionId else result.revisionId
  let exp := if given experimentId then experimentId else result.experimentId
  insertRow {
    runId := result.runId
    symbol := result.config.symbol
    timeframe := result.config.timeframe
    config := .object [
      ("start", .text (Calendar.isoformat result.config.start)),
      ("end", .text (Calendar.isoformat result.config.endTime)),
      ("initial_capital", .rat result.config.initialCapital),
      ("revision_id", .optText rev), ("experiment_id", .optText exp)]
    metrics := result.metrics
    startedAt := result.config.start
    completedAt := now }

def statusLiteral : JobStatus → String
  | .pending => "pending"
  | .running => "running"
  | .completed => "completed"
  | .failed => "failed"
  | .cancelled => "cancelled"

/-- The jobs that validate a strategy. -/
def validationKind : JobKind where
  Config := ValidationRunRequest
  Result := ValidationResult
  Snapshot := List (String × Json)
  Trial := Unit
  TrialSnapshot := Unit
  resultToDict := ValidationResult.snapshot
  trialToDict := id

/-- `job_response` -/
def jobResponse (job : Job validationKind) : Json :=
  let config : ValidationRunRequest := job.config
  let result : Option ValidationResult := job.result
  let resultSnapshot : Option (List (String × Json)) := job.resultSnapshot
  let elapsed : ℚ := (job.updatedAt - job.createdAt : ℤ) / 1000000
  .object ([
    ("id", .text (idText job.id)), ("status", .text (statusLiteral job.status)),
    ("config", config.modelDump), ("phase", .text job.phase), ("message", .text job.message),
    ("elapsed_seconds", .rat (roundDigits elapsed 1)),
    ("progress", .object [
      ("current", .rat job.progressCurrent), ("total", .rat job.progressTotal)])] ++
    (if given job.error then [("error", .optText job.error)] else []) ++
    match result with
    | some result => result.snapshot
    | none => resultSnapshot.getD [])

/-- The route's response, whose encoder refuses what is not in the standard. -/
def render (body : Json) : Except PyError Json :=
  if body.Finite then .ok body
  else .error (.valueError "Out of range float values are not JSON compliant")

/-! ## What is finite -/

theorem finite_bucket (b : BucketStats) : b.toJson.Finite := by simp [BucketStats.toJson]

theorem finite_point (p : TimelinePoint) : p.toJson.Finite := by simp [TimelinePoint.toJson]

theorem finite_row (r : MonthlyRow) : r.toJson.Finite := by simp [MonthlyRow.toJson]

theorem finite_rat (q : ℚ) : (Json.rat q).Finite := by simp

theorem finite_nat (n : ℕ) : (Json.nat n).Finite := by simp

theorem finite_engine (m : EngineMetrics) : m.toJson.Finite := by
  simp [EngineMetrics.toJson, Json.finite_dict finite_nat]

theorem finite_regime (r : RegimeBreakdown) : r.toJson.Finite := by
  simp [RegimeBreakdown.toJson, Json.finite_dict finite_bucket]

theorem finite_failures (f : FailureSummary) : f.toJson.Finite := by
  simp [FailureSummary.toJson, Json.finite_dict finite_rat]

theorem finite_diagnostics (d : Diagnostics) : d.toJson.Finite := by
  simp [Diagnostics.toJson, Json.finite_dict finite_bucket]

theorem finite_timeline (t : EquityTimeline) : t.toJson.Finite := by
  simp [EquityTimeline.toJson, Json.finite_list_map finite_point]

theorem finite_marked (m : MarkedOutcome) : (Json.object m.entries).Finite := by
  simp [MarkedOutcome.entries, Json.finite_list_map finite_rat]

theorem finite_profitFactor {factor : Option ℚ} :
    (profitFactorJson factor).Finite ↔ factor ≠ none := by
  cases factor with
  | none => simp [profitFactorJson]
  | some q => simp [profitFactorJson]

theorem finite_totals {m : OutcomeMetrics} {sharpe sortino tradeSharpe : ℚ} {days : ℕ} :
    (Json.object (m.entries sharpe sortino tradeSharpe days)).Finite ↔ m.profitFactor ≠ none := by
  simp [OutcomeMetrics.entries, Json.finite_list_map finite_rat, finite_profitFactor]

/-- The profit factor is the one number of an outcome that can be infinite. -/
theorem finite_outcome {o : Outcome} : o.toJson.Finite ↔ o.profitFactor ≠ none := by
  have hmarked : (Json.object ((o.marked.map MarkedOutcome.entries).getD [])).Finite := by
    cases o.marked with
    | none => exact Json.finite_object_nil
    | some m => exact finite_marked m
  have htimeline : (Json.object
      (o.equityTimeline.map fun t => ("equity_timeline", t.toJson)).toList).Finite := by
    cases o.equityTimeline with
    | none => exact Json.finite_object_nil
    | some t => exact Json.finite_object_cons.mpr ⟨finite_timeline t, Json.finite_object_nil⟩
  simp [Outcome.toJson, Json.finite_object_append, finite_totals, hmarked, htimeline,
    Json.finite_list_map finite_row, finite_diagnostics, finite_regime, finite_failures]

/-! ## When the metrics are finite -/

/-- A sum of parts that are not negative is positive if some part is. -/
theorem sum_map_pos_iff {part : ℚ → ℚ} (hpart : ∀ x, 0 ≤ part x) {l : List ℚ} :
    0 < (l.map part).sum ↔ ∃ x ∈ l, 0 < part x := by
  induction l with
  | nil => simp
  | cons x l ih =>
    have hsum : 0 ≤ (l.map part).sum := List.sum_nonneg fun y hy => by
      obtain ⟨x, -, rfl⟩ := List.mem_map.mp hy
      exact hpart x
    rw [List.map_cons, List.sum_cons, List.exists_mem_cons_iff, ← ih]
    constructor
    · intro h
      by_contra hnone
      rw [not_or, not_lt, not_lt] at hnone
      exact absurd h (not_lt.mpr (add_nonpos hnone.1 hnone.2))
    · rintro (h | h)
      · exact add_pos_of_pos_of_nonneg h hsum
      · exact add_pos_of_nonneg_of_pos (hpart x) h

theorem grossLoss_pos_iff {pnls : List ℚ} :
    0 < (bucketStats pnls).grossLoss ↔ ∃ pnl ∈ pnls, pnl < 0 := by
  rw [grossLoss_eq, sum_map_pos_iff fun x => le_max_right _ _]
  simp

theorem grossProfit_ne_zero_iff {pnls : List ℚ} :
    (bucketStats pnls).grossProfit ≠ 0 ↔ ∃ pnl ∈ pnls, 0 < pnl := by
  have hnonneg : 0 ≤ (bucketStats pnls).grossProfit := by
    rw [grossProfit_eq]
    refine List.sum_nonneg fun y hy => ?_
    obtain ⟨x, -, rfl⟩ := List.mem_map.mp hy
    exact le_max_right _ _
  rw [← hnonneg.lt_iff_ne', grossProfit_eq, sum_map_pos_iff fun x => le_max_right _ _]
  simp

/-- Some trade loses, or none wins. -/
def LosesOrNeverWins (pnls : List ℚ) : Prop := (∃ pnl ∈ pnls, pnl < 0) ∨ ∀ pnl ∈ pnls, pnl ≤ 0

instance : DecidablePred LosesOrNeverWins := fun pnls =>
  inferInstanceAs (Decidable ((∃ pnl ∈ pnls, pnl < 0) ∨ _))

theorem profitFactor_ofTrades {pnls : List ℚ} {rejected opened : ℕ} {initialCapital : ℚ}
    {endingEquity : Option ℚ} {mtm : Option TradingPlatform.MarkedOutcome} :
    (OutcomeMetrics.ofTrades pnls rejected opened initialCapital endingEquity mtm).profitFactor
      ≠ none ↔ LosesOrNeverWins pnls := by
  change (if 0 < (bucketStats pnls).grossLoss then
    some ((bucketStats pnls).grossProfit / (bucketStats pnls).grossLoss)
    else if (bucketStats pnls).grossProfit ≠ 0 then none else some 0) ≠ none ↔ _
  by_cases hloss : 0 < (bucketStats pnls).grossLoss
  · rw [if_pos hloss]
    exact iff_of_true (Option.some_ne_none _) (.inl (grossLoss_pos_iff.mp hloss))
  · rw [if_neg hloss, LosesOrNeverWins, or_iff_right (mt grossLoss_pos_iff.mpr hloss)]
    by_cases hprofit : (bucketStats pnls).grossProfit ≠ 0
    · rw [if_pos hprofit]
      obtain ⟨pnl, hmem, hpos⟩ := grossProfit_ne_zero_iff.mp hprofit
      exact iff_of_false (not_not.mpr rfl) fun h => absurd hpos (not_lt.mpr (h pnl hmem))
    · rw [if_neg hprofit]
      exact iff_of_true (Option.some_ne_none _) fun pnl hmem =>
        not_lt.mp fun hpos => hprofit (grossProfit_ne_zero_iff.mpr ⟨pnl, hmem, hpos⟩)

theorem finite_metrics {result : ValidationResult} :
    result.metrics.Finite ↔ result.outcomeMetrics.profitFactor ≠ none := by
  simp [ValidationResult.metrics, finite_engine, finite_outcome]

theorem finite_modelDump (r : ValidationRunRequest) : r.modelDump.Finite := by
  cases h : r.maxConsecutiveLosses with
  | none => simp [ValidationRunRequest.modelDump, h]
  | some n => simp [ValidationRunRequest.modelDump, h]

theorem finite_jobResponse {job : Job validationKind} {result : ValidationResult}
    (hresult : job.result = some result) :
    (jobResponse job).Finite ↔ result.outcomeMetrics.profitFactor ≠ none := by
  have herror : (Json.object (if given job.error then [("error", Json.optText job.error)]
      else [])).Finite := by
    split
    · exact Json.finite_object_cons.mpr ⟨Json.finite_optText _, Json.finite_object_nil⟩
    · exact Json.finite_object_nil
  have hconfig : (ValidationRunRequest.modelDump job.config).Finite := finite_modelDump _
  unfold jobResponse
  simp only [hresult]
  simp [Json.finite_object_append, herror, ValidationResult.snapshot, hconfig, finite_engine,
    finite_outcome]

theorem insertRow_ok_iff {row : BacktestRunRow} :
    (∃ saved, insertRow row = .ok saved) ↔ row.config.Finite ∧ row.metrics.Finite := by
  unfold insertRow
  split
  · next h => exact iff_of_true ⟨_, rfl⟩ h
  · next h =>
    refine iff_of_false ?_ h
    rintro ⟨_, hsaved⟩
    cases hsaved

theorem persistValidationResult_ok_iff {now : ℤ} {result : ValidationResult}
    {revisionId experimentId : Option String} :
    (∃ row, persistValidationResult now result revisionId experimentId = .ok row) ↔
      result.metrics.Finite := by
  refine insertRow_ok_iff.trans (and_iff_right ?_)
  simp

theorem render_ok_iff {body : Json} : (∃ sent, render body = .ok sent) ↔ body.Finite := by
  unfold render
  split
  · next h => exact iff_of_true ⟨_, rfl⟩ h
  · next h =>
    refine iff_of_false ?_ h
    rintro ⟨_, hsent⟩
    cases hsent

/-- The metrics of a finished run can be computed. They are finite, and the run can be saved and
served, if and only if some closed trade loses or none wins. -/
theorem metrics_finite_iff {initialCapital : ℚ} (hcapital : 0 < initialCapital) (sqrt : ℚ → ℚ)
    (events : List LoggedEvent) (endingEquity : Option ℚ) :
    ∃ outcome, computeOutcomeMetrics sqrt events initialCapital endingEquity = .ok outcome ∧
      ∀ (result : ValidationResult) (job : Job validationKind),
        result.outcomeMetrics = outcome → job.result = some result →
        ((result.metrics.Finite ∧ (jobResponse job).Finite) ↔
          LosesOrNeverWins ((closedTrades events).map (·.pnl))) ∧
        ∀ now revisionId experimentId,
          (∃ row, persistValidationResult now result revisionId experimentId = .ok row) ∧
            (∃ sent, render (jobResponse job) = .ok sent) ↔
          LosesOrNeverWins ((closedTrades events).map (·.pnl)) := by
  obtain ⟨outcome, houtcome⟩ : ∃ outcome,
      computeOutcomeMetrics sqrt events initialCapital endingEquity = .ok outcome :=
    computeOutcomeMetrics_returns hcapital.ne'
  refine ⟨outcome, houtcome, fun result job hmetrics hresult => ?_⟩
  have hfactor : outcome.profitFactor ≠ none ↔
      LosesOrNeverWins ((closedTrades events).map (·.pnl)) := by
    rw [toOutcomeMetrics_of_ok houtcome]
    exact profitFactor_ofTrades
  have hfinite : (result.metrics.Finite ∧ (jobResponse job).Finite) ↔
      LosesOrNeverWins ((closedTrades events).map (·.pnl)) := by
    rw [finite_metrics, finite_jobResponse hresult, and_self, hmetrics]
    exact hfactor
  refine ⟨hfinite, fun now revisionId experimentId => ?_⟩
  rw [persistValidationResult_ok_iff, render_ok_iff]
  exact hfinite

/-- A run whose one trade wins. -/
def soleWin : List LoggedEvent :=
  [{ eventType := .positionClosed, eventTime := 0, correlationId := .given "a"
     payload := { pnl := some 10, exitReason := some "take_profit", side := some "LONG" } }]

theorem metrics_finite_iff_soleWin : ∃ outcome,
    computeOutcomeMetrics id soleWin 10000 (some 10010) = .ok outcome ∧
      ∀ (result : ValidationResult) (job : Job validationKind),
        result.outcomeMetrics = outcome → job.result = some result →
        ((result.metrics.Finite ∧ (jobResponse job).Finite) ↔
          LosesOrNeverWins ((closedTrades soleWin).map (·.pnl))) := by
  obtain ⟨outcome, houtcome, h⟩ :=
    metrics_finite_iff (by norm_num : (0 : ℚ) < 10000) id soleWin (some 10010)
  exact ⟨outcome, houtcome, fun result job hmetrics hresult => (h result job hmetrics hresult).1⟩

/-- A finished run without a loss has an infinite profit factor, which is not saved. -/
theorem not_metrics_finite :
    ¬ ∀ (events : List LoggedEvent) (result : ValidationResult),
      0 < result.config.initialCapital →
      computeOutcomeMetrics id events result.config.initialCapital = .ok result.outcomeMetrics →
      result.engineMetrics = computeEngineMetrics [] events →
      result.metrics.Finite ∧ ∃ row, persistValidationResult 0 result none none = .ok row := by
  intro h
  obtain ⟨outcome, houtcome⟩ : ∃ outcome, computeOutcomeMetrics id soleWin 10000 = .ok outcome :=
    computeOutcomeMetrics_returns (by norm_num)
  let result : ValidationResult := {
    runId := "val_1"
    config := { symbol := "BTC/USDT", timeframe := "1h", start := 0, endTime := 0 }
    engineMetrics := computeEngineMetrics [] soleWin
    outcomeMetrics := outcome }
  have hfinite := (h soleWin result (by norm_num [result]) houtcome rfl).1
  have hfactor := finite_metrics.mp hfinite
  have hwins := profitFactor_ofTrades.mp (toOutcomeMetrics_of_ok houtcome ▸ hfactor)
  revert hwins
  decide +kernel

end Logged

end TradingPlatform
