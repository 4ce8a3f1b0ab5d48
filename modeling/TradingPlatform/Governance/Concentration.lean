import TradingPlatform.Governance.Evaluator
import TradingPlatform.Validation.Optimization

/-!
# The regime check and the runs it judges

The trials of an optimization keep the execution events only, so the outcome of a holdout period has
no trade in any regime, whatever it has traded, and the check counts none of its trades.
-/

namespace TradingPlatform

/-! ## Logs without market events -/

theorem contextByCorrelation_of_execution {events : List EventEnvelope}
    (h : ∀ e ∈ events, e.eventFamily = .execution) : contextByCorrelation events = ∅ := by
  refine List.foldlRecOn (motive := (· = ∅)) events _ rfl fun contexts hempty e he => ?_
  have hfamily := h e he
  rw [EventEnvelope.eventFamily, EventEnvelope.eventType] at hfamily
  cases hpay : e.payload with
  | marketContextDerived context =>
    rw [hpay] at hfamily
    cases hfamily
  | _ => exact hempty

theorem entryCycle_of_execution {events : List EventEnvelope}
    (h : ∀ e ∈ events, e.eventFamily = .execution) (closed : ClosedPayload) :
    entryCycle events closed = none := by
  unfold entryCycle
  rw [contextByCorrelation_of_execution h]
  cases (entryCorrelationByPosition events).get? closed.positionId with
  | none => rfl
  | some correlationId => cases correlationId.truthy <;> simp

/-- Without market contexts no trade is attributed to a regime. -/
theorem byRegime_of_execution {events : List EventEnvelope}
    (h : ∀ e ∈ events, e.eventFamily = .execution) :
    (computeRegimeBreakdown events).byRegime = ∅ := by
  unfold computeRegimeBreakdown
  dsimp only
  split
  · rfl
  · have hstep : ∀ b : BreakdownLoop, b.regimeBuckets = ∅ → ∀ closed ∈ closedPayloads events,
        (b.step events closed).regimeBuckets = ∅ := by
      intro b hb closed _
      rw [BreakdownLoop.step, entryCycle_of_execution h]
      exact hb
    have hloop : ((closedPayloads events).foldl (BreakdownLoop.step events) {}).regimeBuckets =
        ∅ :=
      List.foldlRecOn (motive := fun b : BreakdownLoop => b.regimeBuckets = ∅) _ _ rfl hstep
    rw [hloop]
    rfl

/-! ## The holdout outcome -/

namespace ValidationJob

variable {job : ValidationJob} {env : JobEnvironment} {result : JobResult} {rt : PlatformRuntime}

theorem family_of_mem_logged {events : List EventEnvelope} {e : EventEnvelope}
    (he : e ∈ logged false events) : e.eventFamily = .execution := by
  simpa using (List.mem_filter.mp he).2

/-- A job that does not emit every event attributes no trade. -/
theorem byRegime_of_quiet (hquiet : job.emitAll = false) (h : job.run env = .ok (result, rt)) :
    result.outcome.regimeAnalysis.byRegime = ∅ := by
  rw [run, hquiet] at h
  obtain ⟨⟨provider, start, endTime⟩, _, h⟩ := Except.bind_eq_ok.mp h
  obtain ⟨⟨cycles, rt'⟩, _, h⟩ := Except.bind_eq_ok.mp h
  obtain ⟨metrics, _, h⟩ := Except.bind_eq_ok.mp h
  cases h
  exact byRegime_of_execution fun e he => family_of_mem_logged he

end ValidationJob

namespace OptimizationCall

variable {Params : Type} {call : OptimizationCall Params} {env : OptimizationEnvironment}
  {result : OptimizationResult Params} {outcome : ScoredOutcome}

theorem byRegime_of_runTrial {params : Params} {range : ℤ × ℤ} {score : ℚ}
    (h : call.runTrial env params range = .ok (score, outcome)) :
    outcome.regimeAnalysis.byRegime = ∅ := by
  obtain ⟨⟨jobResult, rt⟩, hjob, h⟩ := Except.bind_eq_ok.mp h
  cases h
  exact ValidationJob.byRegime_of_quiet rfl hjob

theorem holdoutOutcome_withHoldout {finalists : List (TrialResult Params)}
    {run : ℚ × ScoredOutcome} :
    (call.withHoldout env result finalists run).holdoutOutcome = some run.2 := by
  unfold withHoldout
  dsimp only
  split <;> rfl

theorem holdoutOutcome_holdOut {before : OptimizationResult Params}
    {finalists : List (TrialResult Params)} {holdout : Option (ℤ × ℤ)}
    (hbefore : before.holdoutOutcome = none)
    (h : call.holdOut env before finalists holdout = .ok result)
    (houtcome : result.holdoutOutcome = some outcome) :
    ∃ params range score, call.runTrial env params range = .ok (score, outcome) := by
  cases holdout with
  | none =>
    cases h
    cases hbefore.symm.trans houtcome
  | some range =>
  cases hbest : before.best with
  | none =>
    rw [holdOut, hbest] at h
    cases h
    cases hbefore.symm.trans houtcome
  | some best =>
    rw [holdOut, hbest] at h
    obtain ⟨run, hrun, h⟩ := Except.bind_eq_ok.mp h
    cases h
    rw [holdoutOutcome_withHoldout] at houtcome
    cases houtcome
    exact ⟨best.params, range, run.1, hrun⟩

/-- The holdout outcome is that of a trial, if there is one. -/
theorem holdoutOutcome_run (h : call.run env = .ok result)
    (houtcome : result.holdoutOutcome = some outcome) :
    ∃ (call' : OptimizationCall Params) (params : Params) (range : ℤ × ℤ) (score : ℚ),
      call'.runTrial env params range = .ok (score, outcome) := by
  obtain ⟨⟨⟨optStart, optEnd⟩, holdout⟩, _, h⟩ := Except.bind_eq_ok.mp h
  obtain ⟨call', _, h⟩ := Except.bind_eq_ok.mp h
  obtain ⟨p, _, h⟩ := Except.bind_eq_ok.mp h
  obtain ⟨trials, _, h⟩ := Except.bind_eq_ok.mp h
  obtain ⟨⟨trials', finalists⟩, _, h⟩ := Except.bind_eq_ok.mp h
  obtain ⟨tested, _, h⟩ := Except.bind_eq_ok.mp h
  exact ⟨call', holdoutOutcome_holdOut rfl h houtcome⟩

/-- The regime check counts the trades of the holdout period, and decides on a candidate that passes
the other checks by the share of them that one regime holds. -/
def JudgesRegimes (result : OptimizationResult Params) (outcome : ScoredOutcome) : Prop :=
  tradesIn outcome.regimeAnalysis.byRegime = outcome.totalTrades ∧
    ((checkOutOfSample result).passed = true → (checkMinimumSample result).passed = true →
      (checkFoldStability result).passed = true →
      ((evaluateCandidate result).2.1 = .accepted ↔
        ∀ bucket ∈ outcome.regimeAnalysis.byRegime.values,
          (bucket.trades : ℚ) ≤ maxSingleRegimeShare * outcome.totalTrades))

/-! ## A sweep of one trial -/

/-- An environment with a file of four flat days. -/
def flatEnvironment : OptimizationEnvironment := { JobEnvironment.flat .close 4 with
  floatText := fun _ => "0.0" }

/-- A sweep of one trial, whose provider buys on every bar. -/
def soleTrial : OptimizationCall Unit where
  symbol := "BTC/USDT"
  timeframe := "1d"
  start := 0
  endTime := 3 * 86400000000
  trainRatio := 1 / 2
  search := .batch [()]
  space := {
    engineConfig := fun _ => .solo
    executionConfig := fun _ => .tenth
    collaborators := fun _ _ _ _ => .serving (.flat 0 100) .buy
    revisionId := fun _ => "rev"
    minAgreeingProviders := fun _ => 1 }
  minTrades := 0
  holdoutRatio := 1 / 3
  refine _ := []

/-- The holdout trades of a result, if it has a holdout outcome. -/
def holdoutCount : Except PyError (OptimizationResult Unit) → Option ℕ
  | .ok result => result.holdoutOutcome.map (·.totalTrades)
  | .error _ => none

theorem run_soleTrial : ∃ result outcome, soleTrial.run flatEnvironment = .ok result ∧
    result.holdoutOutcome = some outcome ∧ outcome.totalTrades = 2 := by
  have hcount : holdoutCount (soleTrial.run flatEnvironment) = some 2 := by decide +kernel
  cases hrun : soleTrial.run flatEnvironment with
  | error e =>
    rw [hrun] at hcount
    cases hcount
  | ok result =>
    rw [hrun] at hcount
    obtain ⟨outcome, houtcome, htrades⟩ := Option.map_eq_some_iff.mp hcount
    exact ⟨result, outcome, rfl, houtcome, htrades⟩

/-- The regime check judges the trades of a holdout period exactly when there are none. -/
theorem judgesRegimes_iff (h : call.run env = .ok result)
    (houtcome : result.holdoutOutcome = some outcome) :
    JudgesRegimes result outcome ↔ outcome.totalTrades = 0 := by
  obtain ⟨_, _, _, _, hrun⟩ := holdoutOutcome_run h houtcome
  have hnone : tradesIn outcome.regimeAnalysis.byRegime = 0 := by
    rw [byRegime_of_runTrial hrun]
    rfl
  constructor
  · rintro ⟨hcount, -⟩
    exact hcount.symm.trans hnone
  · intro hzero
    refine ⟨hnone.trans hzero.symm, fun _ hsample => ?_⟩
    have htrades : result.holdoutTrades = 0 := by
      rw [OptimizationResult.holdoutTrades, houtcome]
      exact hzero
    rw [checkMinimumSample, htrades] at hsample
    cases hsample

theorem judgesRegimes_iff_soleTrial : ∃ result outcome, soleTrial.run flatEnvironment = .ok result ∧
    (JudgesRegimes result outcome ↔ outcome.totalTrades = 0) := by
  obtain ⟨result, outcome, hrun, houtcome, -⟩ := run_soleTrial
  exact ⟨result, outcome, hrun, judgesRegimes_iff hrun houtcome⟩

/-- Two trades are closed in the holdout period, and the check counts none. -/
theorem not_judgesRegimes_soleTrial : ∃ result outcome,
    soleTrial.run flatEnvironment = .ok result ∧ result.holdoutOutcome = some outcome ∧
      ¬ JudgesRegimes result outcome := by
  obtain ⟨result, outcome, hrun, houtcome, htrades⟩ := run_soleTrial
  refine ⟨result, outcome, hrun, houtcome, fun hjudges => ?_⟩
  obtain ⟨_, _, _, _, htrial⟩ := holdoutOutcome_run hrun houtcome
  have hcount := hjudges.1
  rw [byRegime_of_runTrial htrial, htrades] at hcount
  cases hcount

end OptimizationCall

end TradingPlatform
