import TradingPlatform.Engine.RiskGates
import TradingPlatform.Validation.EngineMetrics

/-!
# Rejections read back from the log

A stored decision keeps its log and not the reason of its rejection, and the dashboards derive the
reason from the log again. They take the first check of the risk manager for the one that failed,
and one reason for every failure of the aggregator. This file says for which decisions that is the
reason the engine gave.
-/

namespace TradingPlatform

/-! ## The stored log -/

/-- The entries of a stored stage result. -/
structure StoredStage where
  passed : Option Bool := none
  reason : Option String := none
  deriving DecidableEq

structure StoredAggregation where
  side : Option SignalSide := none
  passed : Option Bool := none
  deriving DecidableEq

structure StoredVerdict where
  passed : Option Bool := none
  /-- The `check_name` of each check. -/
  checks : List (Option String) := []
  deriving DecidableEq

/-- The entries of a `decision_log` that the dashboards read; a missing entry is `none`. -/
structure StoredLog where
  marketFilter : StoredStage := {}
  aggregation : StoredAggregation := {}
  riskCheck : StoredVerdict := {}
  providerIds : List String := []
  deriving DecidableEq

/-- `model_dump`: an aggregation result has no `passed`. -/
def DecisionLog.dump (log : DecisionLog) : StoredLog where
  marketFilter := { passed := some log.marketFilter.passed, reason := log.marketFilter.reason }
  aggregation := { side := some log.aggregation.side }
  riskCheck := {
    passed := some log.riskCheck.passed
    checks := log.riskCheck.checks.map fun check => some check.checkName }
  providerIds := log.providerSignals.map (·.providerId)

/-- `_extract_rejection_stage` -/
def extractRejectionStage (log : StoredLog) : Option RejectionStage :=
  if ¬ log.marketFilter.passed.getD true then some .marketFilter
  else if log.aggregation.side = some .hold ∨ ¬ log.aggregation.passed.getD true then
    some .aggregator
  else if ¬ log.riskCheck.passed.getD true then some .riskManager
  else none

/-- `_extract_rejection_reason` -/
def extractRejectionReason (log : StoredLog) : String :=
  if ¬ log.marketFilter.passed.getD true then orText log.marketFilter.reason "market_filter"
  else if log.aggregation.side = some .hold then "insufficient_consensus"
  else if ¬ log.riskCheck.passed.getD true then
    match log.riskCheck.checks with
    | [] => "risk"
    | check :: _ => check.getD "risk"
  else "unknown"

/-! ## The dashboards -/

structure DecisionRecordRow where
  result : ResultValue
  decisionLog : StoredLog
  mode : Mode

/-- The row a decision is stored as. -/
def Decision.row (d : Decision) (mode : Mode) : DecisionRecordRow where
  result := d.result.value
  decisionLog := d.decisionLog.dump
  mode := mode

structure EngineStats where
  decisionsToday : ℕ := 0
  approvalRate : ℚ := 0
  rejectionBreakdown : Dict String ℕ := ∅
  activeProviders : ℕ := 0
  featureSetVersion : String := "v1"

/-- `compute_engine_stats` -/
def computeEngineStats (table : List DecisionRecordRow) (modes : Option (List Mode)) :
    EngineStats :=
  let rows : List DecisionRecordRow :=
    if modes.getD [] = [] then table else table.filter (·.mode ∈ modes.getD [])
  if rows.length = 0 then {}
  else {
    decisionsToday := rows.length
    approvalRate := (rows.countP (·.result = .approved) : ℚ) / rows.length
    rejectionBreakdown := rows.foldl (fun breakdown row =>
      if row.result ≠ .rejected then breakdown
      else breakdown.bump (extractRejectionReason row.decisionLog)) ∅
    activeProviders := ((rows.flatMap (·.decisionLog.providerIds)).dedup.erase "").length }

/-- The `rejection_breakdown` of `compute_overview`. -/
def overviewRejections (rows : List DecisionRecordRow) : Dict String ℕ :=
  rows.foldl (fun reasons row =>
    if row.result = .approved then reasons
    else reasons.bump (extractRejectionReason row.decisionLog)) ∅

/-! ## What a rejected decision logs -/

/-- There are signals for one side, and none for the other. -/
def OneSided (signals : List StrategySignal) : Prop :=
  ∃ side, side ≠ .hold ∧ (∃ s ∈ signals, s.side = side) ∧
    ∀ s ∈ signals, s.side = side ∨ s.side = .hold

/-- What decides between the reasons of the aggregator. -/
theorem oneSided_iff {signals : List StrategySignal} : OneSided signals ↔
    ∃ side, (∃ s ∈ signals.filter (·.side ≠ .hold), s.side = side) ∧
      ∀ s ∈ signals.filter (·.side ≠ .hold), s.side = side := by
  simp only [OneSided, List.mem_filter, decide_eq_true_eq]
  constructor
  · rintro ⟨side, hside, ⟨s, hs, rfl⟩, hall⟩
    exact ⟨s.side, ⟨s, ⟨hs, hside⟩, rfl⟩, fun t ht => (hall t ht.1).resolve_right ht.2⟩
  · rintro ⟨side, ⟨s, ⟨hs, hside⟩, rfl⟩, hall⟩
    exact ⟨s.side, hside, ⟨s, hs, rfl⟩, fun t ht => or_iff_not_imp_right.mpr fun h =>
      hall t ⟨ht, h⟩⟩

namespace AggregationConfig

/-- The reasons of the aggregator: signals for one side only are too few, others are none or in
conflict. -/
def FailsFor (signals : List StrategySignal) (reason : String) : Prop :=
  reason = "insufficient_consensus" ∧ OneSided signals ∨
    reason ∈ ["no_active_signals", "provider_conflict"] ∧ ¬ OneSided signals

variable {config : AggregationConfig} {signals : List StrategySignal} {reason : String}

theorem combineUnanimous_error (h : config.combineUnanimous signals = .error reason) :
    FailsFor signals reason := by
  rw [FailsFor, oneSided_iff]
  unfold combineUnanimous at h
  dsimp only at h
  generalize signals.filter (·.side ≠ .hold) = active at h ⊢
  cases active with
  | nil =>
    cases h
    refine .inr ⟨by decide, ?_⟩
    rintro ⟨side, ⟨s, hs, -⟩, -⟩
    cases hs
  | cons s rest =>
    simp only [List.map_cons, List.any_map, List.any_eq_true] at h
    split at h
    · next hconflict =>
      cases h
      refine .inr ⟨by decide, ?_⟩
      rintro ⟨side, -, hall⟩
      obtain ⟨t, ht, hne⟩ := hconflict
      have hsame : t.side = s.side := (hall t (List.mem_cons_of_mem _ ht)).trans
        (hall s List.mem_cons_self).symm
      simp [hsame] at hne
    · next hagreed =>
      have hall : ∀ t ∈ s :: rest, t.side = s.side := by
        intro t ht
        rcases List.mem_cons.mp ht with rfl | ht
        · rfl
        · by_contra hne
          exact hagreed ⟨t, ht, by simpa using hne⟩
      have hreason : reason = "insufficient_consensus" := by
        cases hside : s.side <;> simp only [hside] at h <;> grind
      exact .inl ⟨hreason, s.side, ⟨s, List.mem_cons_self, rfl⟩, hall⟩

theorem combineMajority_error {weighted : Bool}
    (h : config.combineMajority signals weighted = .error reason) :
    FailsFor signals reason := by
  rw [FailsFor, oneSided_iff]
  have hactive : ∀ s ∈ signals.filter (·.side ≠ .hold), s.side ≠ .hold := by
    intro s hs
    simpa using (List.mem_filter.mp hs).2
  unfold combineMajority at h
  dsimp only at h
  generalize signals.filter (·.side ≠ .hold) = active at h hactive ⊢
  split at h
  · next hempty =>
    cases h
    refine .inr ⟨by decide, ?_⟩
    rintro ⟨side, ⟨s, hs, -⟩, -⟩
    rw [List.isEmpty_iff.mp hempty] at hs
    cases hs
  split at h
  · cases h
  split at h
  · cases h
  next hne _ _ =>
  obtain ⟨s, hs⟩ := List.exists_mem_of_ne_nil active (by simpa using hne)
  split at h
  · next hconflict =>
    cases h
    refine .inr ⟨by decide, ?_⟩
    rintro ⟨side, -, hall⟩
    simp only [List.isEmpty_iff, List.filter_eq_nil_iff, not_forall, not_not,
      decide_eq_true_eq] at hconflict
    obtain ⟨⟨b, hb, hbuy⟩, ⟨t, ht, hsell⟩⟩ := hconflict
    have hsame := (hall b hb).trans (hall t ht).symm
    rw [hbuy, hsell] at hsame
    cases hsame
  · next hagreed =>
    cases h
    refine .inl ⟨rfl, s.side, ⟨s, hs, rfl⟩, fun t ht => ?_⟩
    simp only [List.isEmpty_iff, List.filter_eq_nil_iff, decide_eq_true_eq] at hagreed
    have hs' := hactive s hs
    have ht' := hactive t ht
    cases hside : s.side <;> cases hside' : t.side <;> grind

theorem combine_error (h : config.combine signals = .error reason) :
    FailsFor signals reason := by
  unfold combine at h
  split at h
  · exact combineUnanimous_error h
  · exact combineMajority_error h

end AggregationConfig

theorem FilterConfig.reason_of_failed {config : FilterConfig} {context : MarketContext}
    (h : (config.check context).passed = false) :
    ∃ reason, (config.check context).reason = some reason ∧ reason ≠ "" := by
  unfold check at h ⊢
  split
  · exact ⟨_, rfl, by decide⟩
  split
  · exact ⟨_, rfl, by decide⟩
  split
  · exact ⟨_, rfl, by decide⟩
  · next h₁ h₂ h₃ => simp [h₁, h₂, h₃] at h

namespace EngineConfig

variable {config : EngineConfig} {signals : List StrategySignal} {context : MarketContext}
  {snapshot : StateSnapshot} {c : DecisionCtx} {u : ℕ} {d : Decision}

/-- The ways a decision is rejected, with what its log says. -/
inductive Rejects (config : EngineConfig) (signals : List StrategySignal) (context : MarketContext)
    (snapshot : StateSnapshot) (d : Decision) : Prop
  | marketFilter (hfilter : (config.filter.check context).passed = false)
      (hresult : d.result = .rejected (config.filter.check context).reason .marketFilter)
      (hlog : d.decisionLog.marketFilter = config.filter.check context)
  | aggregator (reason : String) (hfilter : (config.filter.check context).passed = true)
      (hcombine : config.aggregation.combine signals = .error reason)
      (hresult : d.result = .rejected (some reason) .aggregator)
      (hlog : d.decisionLog.marketFilter = config.filter.check context)
      (hside : d.decisionLog.aggregation.side = .hold)
  | riskManager (aggregated : AggregatorSuccess) (finals : List RiskCheckResult)
      (hfilter : (config.filter.check context).passed = true)
      (hcombine : config.aggregation.combine signals = .ok aggregated)
      (hresult : d.result = .rejected
        (firstFailed (config.risk.checks aggregated snapshot ++ finals)) .riskManager)
      (hlog : d.decisionLog.marketFilter = config.filter.check context)
      (hside : d.decisionLog.aggregation.side = aggregated.side.toSignalSide)
      (hfailed : d.decisionLog.riskCheck.passed = false)
      (hchecks : d.decisionLog.riskCheck.checks = config.risk.checks aggregated snapshot ++ finals)
      (hsome : ∃ check ∈ config.risk.checks aggregated snapshot ++ finals, check.passed = false)
      (hfinals : ∀ check ∈ finals, check.checkName = "min_risk_reward")

theorem rejects_processAggregated {decisionId : ℕ} {aggregated : AggregatorSuccess}
    (hfilter : (config.filter.check context).passed = true)
    (hcombine : config.aggregation.combine signals = .ok aggregated)
    (hd : (config.processAggregated decisionId signals context snapshot c
      (config.filter.check context) aggregated u).1 = .ok d) (hrejected : d.isApproved = false) :
    config.Rejects signals context snapshot d := by
  unfold processAggregated at hd
  split at hd
  · next hfailed =>
    cases hd
    have hsome : ∃ check ∈ config.risk.checks aggregated snapshot, check.passed = false := by
      simpa [RiskConfig.evaluate] using hfailed
    exact .riskManager aggregated [] hfilter hcombine (by rw [List.append_nil]; rfl) rfl rfl
      (Bool.eq_false_iff.mpr hfailed) (List.append_nil _).symm
      ((List.append_nil _).symm ▸ hsome) (by simp)
  · next hevaluated =>
    obtain ⟨signal, -, rfl⟩ := Except.map_eq_ok.mp hd
    unfold finish at hrejected ⊢
    dsimp only at hrejected ⊢
    split
    · next hfailed =>
      refine .riskManager aggregated [_] hfilter hcombine rfl rfl rfl
        (Bool.eq_false_iff.mpr hfailed) rfl ?_ (by simp [RiskConfig.checkResult])
      refine ⟨_, List.mem_append_right _ List.mem_cons_self, ?_⟩
      simpa [RiskConfig.finalizeVerdict, not_not.mp hevaluated] using hfailed
    · next hpassed =>
      rw [if_neg hpassed] at hrejected
      cases hrejected

theorem rejects_of_process (hd : (config.process signals context snapshot c u).1 = .ok d)
    (hrejected : d.isApproved = false) : config.Rejects signals context snapshot d := by
  change (config.processStages u signals context snapshot c (u + 1)).1 = .ok d at hd
  unfold processStages at hd
  cases hfilter : (config.filter.check context).passed with
  | false =>
    rw [if_pos (by simp [hfilter])] at hd
    cases hd
    exact .marketFilter hfilter rfl rfl
  | true =>
    rw [if_neg (by simp [hfilter])] at hd
    cases hcombine : config.aggregation.combine signals with
    | error reason =>
      simp only [hcombine] at hd
      cases hd
      exact .aggregator reason hfilter hcombine rfl rfl rfl
    | ok aggregated =>
      simp only [hcombine] at hd
      exact rejects_processAggregated hfilter hcombine hd hrejected

/-! ## When the reason is recovered -/

/-- The market filter rejects, or the aggregator with signals for one side only, or the limit on the
daily drawdown is breached. -/
structure Recoverable (config : EngineConfig) (signals : List StrategySignal)
    (context : MarketContext) (snapshot : StateSnapshot) : Prop where
  aggregator : (config.filter.check context).passed = true →
    (∀ aggregated, config.aggregation.combine signals ≠ .ok aggregated) → OneSided signals
  riskManager : (config.filter.check context).passed = true →
    ∀ aggregated, config.aggregation.combine signals = .ok aggregated →
      config.risk.maxDailyDrawdownPct ≤ snapshot.risk.dailyDrawdownPct

/-- The name of the first failed check, which is that of the first check only if the drawdown is
beyond its limit. -/
theorem firstFailed_name {aggregated : AggregatorSuccess} {finals : List RiskCheckResult}
    (hsome : ∃ check ∈ config.risk.checks aggregated snapshot ++ finals, check.passed = false)
    (hfinals : ∀ check ∈ finals, check.checkName = "min_risk_reward") :
    ∃ name, firstFailed (config.risk.checks aggregated snapshot ++ finals) = some name ∧
      name ≠ "" ∧ name ≠ "insufficient_consensus" ∧ (name = "daily_drawdown" ↔
        config.risk.maxDailyDrawdownPct ≤ snapshot.risk.dailyDrawdownPct) := by
  by_cases hdrawdown : config.risk.maxDailyDrawdownPct ≤ snapshot.risk.dailyDrawdownPct
  · refine ⟨"daily_drawdown", ?_, by decide, by decide, iff_of_true rfl hdrawdown⟩
    simp [firstFailed, RiskConfig.checks, RiskConfig.dailyDrawdownCheck, RiskConfig.checkResult,
      hdrawdown]
  obtain ⟨check, hfind⟩ : ∃ check, (config.risk.checks aggregated snapshot ++ finals).find?
      (fun x => ¬ x.passed) = some check := by
    rw [← Option.isSome_iff_exists, List.find?_isSome]
    simpa using hsome
  have hfailed : check.passed = false := by simpa using List.find?_some hfind
  have hnames : check.checkName ∈ ["max_signals_per_day", "max_open_positions", "max_exposure",
      "min_confidence", "max_consecutive_losses", "min_risk_reward"] := by
    have hmem := List.mem_of_find?_eq_some hfind
    simp only [RiskConfig.checks, List.cons_append, List.nil_append, List.mem_cons] at hmem
    rcases hmem with rfl | rfl | rfl | rfl | rfl | rfl | hmem
    · simp [RiskConfig.dailyDrawdownCheck, RiskConfig.checkResult, not_le.mp hdrawdown] at hfailed
    · simp [RiskConfig.maxSignalsPerDayCheck, RiskConfig.checkResult]
    · simp [RiskConfig.maxOpenPositionsCheck, RiskConfig.checkResult]
    · simp [RiskConfig.maxExposureCheck, RiskConfig.checkResult]
    · simp [RiskConfig.minConfidenceCheck, RiskConfig.checkResult]
    · simp [RiskConfig.maxConsecutiveLossesCheck, RiskConfig.checkResult]
    · simp [hfinals check hmem]
  refine ⟨check.checkName, by rw [firstFailed, hfind]; rfl, ?_, ?_, iff_of_false ?_ hdrawdown⟩ <;>
    · intro hname
      rw [hname] at hnames
      exact absurd hnames (by decide)

/-- The reasons that are read back for the others of their stage. -/
def isDefault (reason : String) : Bool :=
  reason = "insufficient_consensus" ∨ reason = "daily_drawdown"

/-- The stage is read back whatever the rejection. -/
theorem Rejects.stage_extracted (h : config.Rejects signals context snapshot d) :
    extractRejectionStage d.decisionLog.dump = d.result.rejectionStage := by
  cases h with
  | marketFilter hfilter hresult hlog =>
    simp [extractRejectionStage, DecisionLog.dump, hlog, hfilter, hresult,
      DecisionResult.rejectionStage]
  | aggregator reason hfilter hcombine hresult hlog hside =>
    simp [extractRejectionStage, DecisionLog.dump, hlog, hfilter, hside, hresult,
      DecisionResult.rejectionStage]
  | riskManager aggregated finals hfilter hcombine hresult hlog hside hfailed hchecks hsome
      hfinals =>
    have hopen : aggregated.side.toSignalSide ≠ .hold := by cases aggregated.side <;> decide
    simp [extractRejectionStage, DecisionLog.dump, hlog, hfilter, hside, hopen, hfailed, hresult,
      DecisionResult.rejectionStage]

theorem recoverable_iff_of_error {reason : String}
    (hfilter : (config.filter.check context).passed = true)
    (hcombine : config.aggregation.combine signals = .error reason) :
    config.Recoverable signals context snapshot ↔ OneSided signals := by
  have hfails : ∀ aggregated, config.aggregation.combine signals ≠ .ok aggregated := by
    intro aggregated hok
    cases hcombine.symm.trans hok
  constructor
  · exact fun h => h.aggregator hfilter hfails
  · exact fun h => ⟨fun _ _ => h, fun _ aggregated hok => absurd hok (hfails aggregated)⟩

theorem recoverable_iff_of_ok {aggregated : AggregatorSuccess}
    (hfilter : (config.filter.check context).passed = true)
    (hcombine : config.aggregation.combine signals = .ok aggregated) :
    config.Recoverable signals context snapshot ↔
      config.risk.maxDailyDrawdownPct ≤ snapshot.risk.dailyDrawdownPct := by
  constructor
  · exact fun h => h.riskManager hfilter aggregated hcombine
  · exact fun h => ⟨fun _ hfails => absurd hcombine (hfails aggregated), fun _ _ _ => h⟩

/-- What is read back from the log of a rejected decision. -/
theorem Rejects.extracted (h : config.Rejects signals context snapshot d) :
    ∃ reason, d.result.rejectionReason = some reason ∧ reason ≠ "" ∧
      extractRejectionStage d.decisionLog.dump = d.result.rejectionStage ∧
      (extractRejectionReason d.decisionLog.dump = reason ↔
        config.Recoverable signals context snapshot) ∧
      (extractRejectionReason d.decisionLog.dump = reason ∨
        isDefault (extractRejectionReason d.decisionLog.dump) = true ∧
          isDefault reason = false) := by
  have hstage := h.stage_extracted
  cases h with
  | marketFilter hfilter hresult hlog =>
    obtain ⟨reason, hreason, hne⟩ := FilterConfig.reason_of_failed hfilter
    have hpassed : ¬ (config.filter.check context).passed = true := by simp [hfilter]
    have hextracted : extractRejectionReason d.decisionLog.dump = reason := by
      simp [extractRejectionReason, DecisionLog.dump, hlog, hfilter, hreason, orText, hne]
    refine ⟨reason, by rw [hresult, ← hreason]; rfl, hne, hstage, iff_of_true hextracted ?_,
      .inl hextracted⟩
    exact ⟨fun h => absurd h hpassed, fun h => absurd h hpassed⟩
  | aggregator reason hfilter hcombine hresult hlog hside =>
    have hextracted : extractRejectionReason d.decisionLog.dump = "insufficient_consensus" := by
      simp [extractRejectionReason, DecisionLog.dump, hlog, hfilter, hside]
    rw [hextracted, recoverable_iff_of_error hfilter hcombine]
    rcases AggregationConfig.combine_error hcombine with ⟨rfl, hone⟩ | ⟨hother, hone⟩
    · exact ⟨_, by rw [hresult]; rfl, by decide, hstage, iff_of_true rfl hone, .inl rfl⟩
    · have hne : reason ≠ "" ∧ "insufficient_consensus" ≠ reason ∧ isDefault reason = false := by
        simp only [List.mem_cons, List.not_mem_nil, or_false] at hother
        rcases hother with rfl | rfl <;> decide
      exact ⟨reason, by rw [hresult]; rfl, hne.1, hstage, iff_of_false hne.2.1 hone,
        .inr ⟨rfl, hne.2.2⟩⟩
  | riskManager aggregated finals hfilter hcombine hresult hlog hside hfailed hchecks hsome
      hfinals =>
    obtain ⟨name, hname, hne, hconsensus, hdrawdown⟩ := firstFailed_name hsome hfinals
    have hopen : aggregated.side.toSignalSide ≠ .hold := by cases aggregated.side <;> decide
    have hextracted : extractRejectionReason d.decisionLog.dump = "daily_drawdown" := by
      simp [extractRejectionReason, DecisionLog.dump, hlog, hfilter, hside, hopen, hfailed, hchecks,
        RiskConfig.checks, RiskConfig.dailyDrawdownCheck, RiskConfig.checkResult]
    rw [hextracted, recoverable_iff_of_ok hfilter hcombine]
    refine ⟨name, by rw [hresult, hname]; rfl, hne, hstage, ?_, ?_⟩
    · rw [← hdrawdown, eq_comm]
    · by_cases hfirst : name = "daily_drawdown"
      · exact .inl hfirst.symm
      · exact .inr ⟨rfl, by simp [isDefault, hconsensus, hfirst]⟩

end EngineConfig

/-! ## The breakdowns -/

/-- A decision, with the call of `process` that made it. -/
structure ProcessedDecision where
  config : EngineConfig
  signals : List StrategySignal
  context : MarketContext
  snapshot : StateSnapshot
  ctx : DecisionCtx
  supply : ℕ
  mode : Mode
  decision : Decision
  processed : (config.process signals context snapshot ctx supply).1 = .ok decision

namespace ProcessedDecision

/-- The reason and the stage read back from the log are those of the decision. -/
def ReadBack (p : ProcessedDecision) : Prop :=
  p.decision.isApproved = false →
    some (extractRejectionReason p.decision.decisionLog.dump) = p.decision.result.rejectionReason ∧
      extractRejectionStage p.decision.decisionLog.dump = p.decision.result.rejectionStage

/-- If the decision is rejected, its reason can be read back. -/
def Recoverable (p : ProcessedDecision) : Prop :=
  p.decision.isApproved = false → p.config.Recoverable p.signals p.context p.snapshot

def row (p : ProcessedDecision) : DecisionRecordRow := p.decision.row p.mode

/-- The reasons a dashboard and the engine count. -/
def rejected (ps : List ProcessedDecision) : List ProcessedDecision :=
  ps.filter fun p => !p.decision.isApproved

variable {p : ProcessedDecision} {ps : List ProcessedDecision}

theorem result_row : p.row.result =
    if p.decision.isApproved then .approved else .rejected := by
  have hresult : p.row.result = p.decision.result.value := rfl
  rw [hresult, Decision.isApproved]
  cases p.decision.result with
  | approved => rfl
  | rejected reason stage => rfl

theorem readBack_iff : p.ReadBack ↔ p.Recoverable := by
  refine forall_congr' fun hrejected => ?_
  obtain ⟨reason, hreason, -, hstage, hiff, -⟩ :=
    (EngineConfig.rejects_of_process p.processed hrejected).extracted
  rw [hreason, Option.some.injEq, hiff, and_iff_left hstage]

/-- The reason read back from the log. -/
def extracted (p : ProcessedDecision) : String :=
  extractRejectionReason p.decision.decisionLog.dump

theorem foldl_row {breakdown : Dict String ℕ} : (ps.map row).foldl (fun breakdown row =>
      if row.result ≠ .rejected then breakdown
      else breakdown.bump (extractRejectionReason row.decisionLog)) breakdown =
    ((rejected ps).map extracted).foldl Dict.bump breakdown := by
  induction ps generalizing breakdown with
  | nil => rfl
  | cons p ps ih =>
    rw [List.map_cons, List.foldl_cons, ih, result_row]
    unfold rejected
    rw [List.filter_cons]
    cases p.decision.isApproved with
    | true => rfl
    | false => rfl

theorem rejectionBreakdown_stats :
    (computeEngineStats (ps.map row) none).rejectionBreakdown =
      Dict.tally ((rejected ps).map extracted) := by
  unfold computeEngineStats
  simp only [Option.getD_none, if_true, List.length_map]
  split
  · next hnone =>
    rw [List.length_eq_zero_iff.mp hnone]
    rfl
  · exact foldl_row

theorem overviewRejections_eq :
    overviewRejections (ps.map row) = Dict.tally ((rejected ps).map extracted) := by
  have hsame : ∀ row : DecisionRecordRow, row.result = .approved ↔ row.result ≠ .rejected := by
    intro row
    cases row.result <;> decide
  unfold overviewRejections
  simp only [hsame]
  exact foldl_row

/-- The engine counts the reason it gave. -/
theorem byReason_engine {events : List LoggedEvent} :
    (computeEngineMetrics (ps.map decision) events).byReason =
      Dict.tally ((rejected ps).map fun p => EngineMetricsAccumulator.reason p.decision) := by
  rw [byReason_computeEngineMetrics, List.filter_map, List.map_map]
  rfl

theorem recoverable_rejected_iff :
    (∀ p ∈ ps, p.Recoverable) ↔ ∀ p ∈ rejected ps, p.Recoverable := by
  refine ⟨fun h p hp => h p (List.mem_of_mem_filter hp), fun h p hp hrejected => ?_⟩
  exact h p (List.mem_filter.mpr ⟨hp, by rw [hrejected]; rfl⟩) hrejected

/-- A dashboard counts what the engine counts exactly if every reason can be read back: what is read
back wrongly is counted for one of two reasons that are never read as another. -/
theorem sameCounts_iff :
    Dict.SameCounts (Dict.tally ((rejected ps).map extracted))
        (Dict.tally ((rejected ps).map fun p => EngineMetricsAccumulator.reason p.decision)) ↔
      ∀ p ∈ ps, p.Recoverable := by
  have hextracted : ∀ p ∈ rejected ps,
      (p.extracted = EngineMetricsAccumulator.reason p.decision ↔ p.Recoverable) ∧
      (p.extracted = EngineMetricsAccumulator.reason p.decision ∨
        EngineConfig.isDefault p.extracted = true ∧
          EngineConfig.isDefault (EngineMetricsAccumulator.reason p.decision) = false) := by
    intro p hp
    have hrejected : p.decision.isApproved = false := by simpa using (List.mem_filter.mp hp).2
    obtain ⟨reason, hreason, hne, -, hiff, hmoved⟩ :=
      (EngineConfig.rejects_of_process p.processed hrejected).extracted
    have hcounted : EngineMetricsAccumulator.reason p.decision = reason := by
      simp [EngineMetricsAccumulator.reason, hreason, orText, hne]
    rw [hcounted]
    exact ⟨hiff.trans ⟨fun h _ => h, fun h => h hrejected⟩, hmoved⟩
  rw [Dict.sameCounts_labels_iff fun p hp => (hextracted p hp).2, recoverable_rejected_iff]
  exact forall₂_congr fun p hp => (hextracted p hp).1

/-- The reasons and the stages of rejected decisions are read back from their logs, and both
dashboards count them as the engine does, exactly if each rejection is one of the market filter, or
of the aggregator with signals for one side only, or comes with the drawdown beyond its limit. -/
theorem readBack_iff_recoverable (ps : List ProcessedDecision) (events : List LoggedEvent) :
    ((∀ p ∈ ps, p.ReadBack) ↔ ∀ p ∈ ps, p.Recoverable) ∧
      (Dict.SameCounts (computeEngineStats (ps.map row) none).rejectionBreakdown
        (computeEngineMetrics (ps.map decision) events).byReason ↔ ∀ p ∈ ps, p.Recoverable) ∧
      (Dict.SameCounts (overviewRejections (ps.map row))
        (computeEngineMetrics (ps.map decision) events).byReason ↔ ∀ p ∈ ps, p.Recoverable) := by
  rw [rejectionBreakdown_stats, overviewRejections_eq, byReason_engine]
  exact ⟨forall₂_congr fun p _ => readBack_iff, sameCounts_iff, sameCounts_iff⟩

open EngineConfig

/-- A snapshot with all signals of the day given and no drawdown. -/
def signalsSpent : StateSnapshot :=
  let s := drawnDown "BTC"
  { s with risk := { s.risk with dailyDrawdownPct := 0, signalsToday := 10 } }

theorem signalsSpent_fails : ¬ (solo.risk.evaluate soloSell signalsSpent).passed = true := by
  decide +kernel

theorem signalsSpent_undrawn :
    ¬ solo.risk.maxDailyDrawdownPct ≤ signalsSpent.risk.dailyDrawdownPct := by decide +kernel

/-- A decision rejected for the signals of the day is read as one rejected for the drawdown. -/
theorem not_readBack : ¬ ∀ p : ProcessedDecision, p.ReadBack := by
  intro h
  obtain ⟨d, hd, hresult, -⟩ := process_of_failed (c := cycleCtx) (u := 2) usContext_passes
    combine_sellSignal signalsSpent_fails
  have hrejected : d.isApproved = false := by
    rw [Decision.isApproved, hresult]
    rfl
  have hback := readBack_iff.mp
    (h ⟨solo, [sellSignal], usContext, signalsSpent, cycleCtx, 2, .live, d, hd⟩) hrejected
  exact absurd (hback.riskManager usContext_passes soloSell combine_sellSignal)
    signalsSpent_undrawn

end ProcessedDecision

end TradingPlatform
