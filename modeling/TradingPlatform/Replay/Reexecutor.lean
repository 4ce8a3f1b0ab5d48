import TradingPlatform.Runtime.Platform

/-!
# Re-executing a recorded cycle

`re_execute_cycle` rebuilds the signals, the context and the snapshot of a cycle from its events and
the stored snapshot, runs the decision engine on them and compares the outcome with the decision the
events record. Of that decision it rebuilds the value of the result only: neither the reason of a
rejection nor the signal of an approval is read back, so the comparison always finds a change.
-/

namespace TradingPlatform

/-! ## The comparison -/

/-- What `build_decision_diff` reads of a decision. -/
structure DecisionView where
  result : ResultValue
  rejectionReason : Option String := none
  finalSignal : Option FinalSignal := none

def Decision.view (d : Decision) : DecisionView where
  result := d.result.value
  rejectionReason := d.result.rejectionReason
  finalSignal := d.finalSignal

namespace DecisionView

/-- The final signal of an approved decision. -/
def signal (d : DecisionView) : Option FinalSignal :=
  if d.result = .approved then d.finalSignal else none

def side (d : DecisionView) : Option Side := d.signal.map (·.side)

def confidence (d : DecisionView) : Option ℚ := d.signal.map (·.confidence)

end DecisionView

structure DecisionDiff where
  correlationId : CorrelationId
  originalResult : ResultValue
  reexecutedResult : ResultValue
  originalSide : Option Side
  reexecutedSide : Option Side
  originalRejectionReason : Option String
  reexecutedRejectionReason : Option String
  originalConfidence : Option ℚ
  reexecutedConfidence : Option ℚ
  changed : Bool
  revisionId : Option String := none
  deriving DecidableEq

/-- `build_decision_diff` -/
def buildDecisionDiff (correlationId : CorrelationId) (original reexecuted : DecisionView)
    (revisionId : Option String) : DecisionDiff where
  correlationId := correlationId
  originalResult := original.result
  reexecutedResult := reexecuted.result
  originalSide := original.side
  reexecutedSide := reexecuted.side
  originalRejectionReason := original.rejectionReason
  reexecutedRejectionReason := reexecuted.rejectionReason
  originalConfidence := original.confidence
  reexecutedConfidence := reexecuted.confidence
  changed := original.result ≠ reexecuted.result || original.side ≠ reexecuted.side ||
    original.rejectionReason ≠ reexecuted.rejectionReason
  revisionId := revisionId

/-! ## The replay -/

/-- What `re_execute_cycle` finds in the database and on disk: the stored snapshots, the engine of a
revision and the drift of the features. -/
structure ReplaySession (Drift : Type) where
  stateSnapshots : Dict ℕ StateSnapshot
  engineForRevision : Option String → EngineConfig
  detectFeatureDrift : EventEnvelope → Except PyError Drift

/-- What a `DECISION_MADE` event records. -/
structure RecordedDecision where
  event : EventEnvelope
  decisionId : ℕ
  result : ResultValue
  stateSnapshotId : ℕ

/-- The first `DECISION_MADE` event. -/
def findDecisionMade (events : List EventEnvelope) : Option RecordedDecision :=
  events.findSome? fun e => match e.payload with
    | .decisionMade decisionId result stateSnapshotId _ =>
      some { event := e, decisionId, result, stateSnapshotId }
    | _ => none

/-- The context of the first `MARKET_CONTEXT_DERIVED` event. -/
def findMarketContext (events : List EventEnvelope) : Option MarketContext :=
  events.findSome? fun e => match e.payload with
    | .marketContextDerived context => some context
    | _ => none

/-- The first `FEATURE_SET_BUILT` event. -/
def findFeatureSet (events : List EventEnvelope) : Option EventEnvelope :=
  events.find? (·.eventType = .featureSetBuilt)

/-- The signal rebuilt from a `PROVIDER_OPINION` event: the levels are not in the payload. -/
def signalFromOpinion (e : EventEnvelope) (providerId : String) (side : SignalSide)
    (confidence : ℚ) (rationale : ProviderRationale) : Except PyError StrategySignal :=
  if hconfidence : 0 ≤ confidence ∧ confidence ≤ 1 then .ok {
    providerId, side, confidence, rationale
    symbol := e.symbol
    confidence_mem := hconfidence
    stopLoss := none
    takeProfit := none
    timeframe := e.timeframe
    eventTime := e.eventTime }
  else .error (.validationError "StrategySignal" "confidence")

/-- `_signals_from_events` -/
def signalsFromEvents : List EventEnvelope → Except PyError (List StrategySignal)
  | [] => return []
  | e :: rest =>
    match e.payload with
    | .providerOpinion providerId side confidence rationale => do
      let signal ← signalFromOpinion e providerId side confidence rationale
      return signal :: (← signalsFromEvents rest)
    | _ => signalsFromEvents rest

namespace ReplaySession

variable {Drift : Type} (session : ReplaySession Drift)

/-- `_load_snapshot` -/
def loadSnapshot (snapshotId : ℕ) : Except PyError StateSnapshot :=
  match session.stateSnapshots.get? snapshotId with
  | none => .error (.valueError ("State snapshot not found: " ++ toString snapshotId))
  | some row => .ok { row with correlationId := none }

/-- The engine's decision on what has been rebuilt, and its comparison with the recorded one. -/
def compare (correlationId : CorrelationId) (made : RecordedDecision) (snapshot : StateSnapshot)
    (signals : List StrategySignal) (context : MarketContext) (revisionId : Option String)
    (uuid : ℕ) : Except PyError (Decision × DecisionDiff) := do
  let engine := session.engineForRevision revisionId
  let reexecuted ← (engine.process signals context snapshot {
    correlationId
    eventTime := made.event.eventTime
    decisionTime := made.event.processingTime
    revisionId := revisionId <|> made.event.revisionId
    experimentId := made.event.experimentId } uuid).1
  let original : DecisionView := { result := made.result }
  return (reexecuted, buildDecisionDiff correlationId original reexecuted.view revisionId)

/-- `re_execute_cycle`. The engine draws its identifiers from `uuid`. -/
def reExecuteCycle (events : List EventEnvelope) (revisionId : Option String) (uuid : ℕ) :
    Except PyError (Decision × DecisionDiff × Drift) :=
  match events with
  | [] => .error (.valueError "No events for cycle")
  | first :: _ =>
    match findDecisionMade events, findMarketContext events, findFeatureSet events with
    | some made, some context, some featureEvent => do
      let snapshot ← session.loadSnapshot made.stateSnapshotId
      let signals ← signalsFromEvents events
      if signals = [] then throw (.valueError "No provider opinions found for re-execute")
      let (reexecuted, diff) ← session.compare first.correlationId made snapshot signals context
        revisionId uuid
      let drift ← session.detectFeatureDrift featureEvent
      return (reexecuted, diff, drift)
    | _, _, _ => .error (.valueError ("Cycle missing required events for re-execute " ++
        "(DECISION_MADE, MARKET_CONTEXT_DERIVED, FEATURE_SET_BUILT)"))

end ReplaySession

/-! ## What the engine never leaves out -/

namespace EngineConfig

variable {config : EngineConfig} {signals : List StrategySignal} {context : MarketContext}
  {snapshot : StateSnapshot} {c : DecisionCtx} {u : ℕ} {d : Decision}

/-- The decision says why it rejects, or what it approves. -/
def Explained (d : Decision) : Prop :=
  (d.result = .approved ∧ d.finalSignal ≠ none) ∨
    ∃ reason stage, d.result = .rejected (some reason) stage

theorem firstFailed_ne_none {checks : List RiskCheckResult} (h : checks.all (·.passed) = false) :
    ∃ name, firstFailed checks = some name := by
  obtain ⟨check, hcheck, hfailed⟩ := List.all_eq_false.mp h
  cases hfind : checks.find? (fun check => ¬ check.passed) with
  | none => exact absurd (List.find?_eq_none.mp hfind check hcheck) (by simpa using hfailed)
  | some first => exact ⟨first.checkName, by rw [firstFailed, hfind]; rfl⟩

theorem reason_of_check {result : StageResult} (hresult : config.filter.check context = result)
    (h : result.passed = false) : ∃ reason, result.reason = some reason := by
  subst hresult
  revert h
  unfold FilterConfig.check
  split
  · exact fun _ => ⟨_, rfl⟩
  split
  · exact fun _ => ⟨_, rfl⟩
  split
  · exact fun _ => ⟨_, rfl⟩
  · exact fun h => nomatch h

theorem explained_finish {decisionId : ℕ} {marketResult : StageResult}
    {aggregation : AggregationResult} {verdict : RiskVerdict} {finalSignal : FinalSignal}
    (hverdict : verdict.passed = verdict.checks.all (·.passed)) :
    Explained (config.finish decisionId signals snapshot c marketResult aggregation verdict
      finalSignal) := by
  unfold finish
  dsimp only
  split
  · next hfailed =>
    have hchecks : (config.risk.finalizeVerdict verdict finalSignal snapshot).checks.all
        (·.passed) = false := by
      simpa [RiskConfig.finalizeVerdict, hverdict] using hfailed
    obtain ⟨name, hname⟩ := firstFailed_ne_none hchecks
    exact .inr ⟨name, .riskManager, by rw [decision, hname]⟩
  · exact .inl ⟨rfl, Option.some_ne_none _⟩

theorem explained_process (h : (config.process signals context snapshot c u).1 = .ok d) :
    Explained d := by
  change (config.processStages u signals context snapshot c (u + 1)).1 = .ok d at h
  unfold processStages at h
  dsimp only at h
  split at h
  · next hmarket =>
    cases h
    obtain ⟨reason, hreason⟩ := reason_of_check rfl (by simpa using hmarket)
    exact .inr ⟨reason, .marketFilter, by rw [decision, hreason]⟩
  cases hcombine : config.aggregation.combine signals with
  | error reason =>
    rw [hcombine] at h
    cases h
    exact .inr ⟨reason, .aggregator, rfl⟩
  | ok aggregated =>
    rw [hcombine] at h
    unfold processAggregated at h
    dsimp only at h
    split at h
    · next hverdict =>
      cases h
      have hfailed : (config.risk.evaluate aggregated snapshot).checks.all (·.passed) = false :=
        (Bool.not_eq_true _).mp hverdict
      obtain ⟨name, hname⟩ := firstFailed_ne_none hfailed
      exact .inr ⟨name, .riskManager, by rw [decision, hname]⟩
    · obtain ⟨signal, _, rfl⟩ := Except.map_eq_ok.mp h
      exact explained_finish rfl

end EngineConfig

/-! ## The comparison always finds a change -/

namespace ReplaySession

variable {Drift : Type} {session : ReplaySession Drift} {events : List EventEnvelope}
  {revisionId : Option String} {uuid : ℕ}

/-- A recorded value alone differs from every decision that says why. -/
theorem changed_of_explained {correlationId : CorrelationId} {result : ResultValue} {d : Decision}
    (h : EngineConfig.Explained d) :
    (buildDecisionDiff correlationId { result } d.view revisionId).changed = true := by
  rcases h with ⟨happroved, hsignal⟩ | ⟨reason, stage, hrejected⟩
  · obtain ⟨signal, hsignal⟩ := Option.ne_none_iff_exists'.mp hsignal
    cases result <;> simp [buildDecisionDiff, Decision.view, DecisionView.side,
      DecisionView.signal, happroved, hsignal, DecisionResult.value]
  · cases result <;> simp [buildDecisionDiff, Decision.view, hrejected,
      DecisionResult.rejectionReason, DecisionResult.value]

theorem changed_reExecuteCycle {replayed : Decision × DecisionDiff × Drift}
    (h : session.reExecuteCycle events revisionId uuid = .ok replayed) :
    replayed.2.1.changed = true := by
  cases events with
  | nil => cases h
  | cons first rest =>
  cases hmade : findDecisionMade (first :: rest) with
  | none =>
    simp only [reExecuteCycle, hmade] at h
    cases h
  | some made =>
  cases hcontext : findMarketContext (first :: rest) with
  | none =>
    simp only [reExecuteCycle, hmade, hcontext] at h
    cases h
  | some context =>
  cases hfeature : findFeatureSet (first :: rest) with
  | none =>
    simp only [reExecuteCycle, hmade, hcontext, hfeature] at h
    cases h
  | some featureEvent =>
  simp only [reExecuteCycle, hmade, hcontext, hfeature] at h
  obtain ⟨snapshot, _, h⟩ := Except.bind_eq_ok.mp h
  obtain ⟨signals, _, h⟩ := Except.bind_eq_ok.mp h
  split at h
  · cases h
  · obtain ⟨⟨reexecuted, diff⟩, hcompare, h⟩ := Except.bind_eq_ok.mp h
    obtain ⟨drift, _, h⟩ := Except.bind_eq_ok.mp h
    cases h
    obtain ⟨d, hprocess, hcompare⟩ := Except.bind_eq_ok.mp hcompare
    cases hcompare
    exact changed_of_explained (EngineConfig.explained_process hprocess)

/-- What a final signal proposes. -/
def levels (s : FinalSignal) : Side × ℚ × ℚ × ℚ := (s.side, s.entryPrice, s.stopLoss, s.takeProfit)

/-- The re-execution of the events returns the decision again and reports no change. -/
def Reproduces (session : ReplaySession Drift) (events : List EventEnvelope)
    (revisionId : Option String) (uuid : ℕ) (original : Decision) : Prop :=
  ∃ reexecuted diff drift,
    session.reExecuteCycle events revisionId uuid = .ok (reexecuted, diff, drift) ∧
      reexecuted.result = original.result ∧
      reexecuted.finalSignal.map levels = original.finalSignal.map levels ∧ diff.changed = false

/-- No cycle is reproduced by its re-execution, whatever it has published and decided. -/
theorem not_reproduces (session : ReplaySession Drift) (cycle : CycleResult)
    (revisionId : Option String) (uuid : ℕ) :
    ¬ session.Reproduces cycle.events revisionId uuid cycle.decision := by
  rintro ⟨reexecuted, diff, drift, hrun, -, -, hsame⟩
  have hchanged : diff.changed = true := changed_reExecuteCycle hrun
  rw [hsame] at hchanged
  cases hchanged

/-! ## A recorded cycle -/

/-- A database that holds the snapshot of one cycle, and the engine of one provider. -/
def ofCycle (cycle : CycleResult) : ReplaySession Unit where
  stateSnapshots := (∅ : Dict ℕ StateSnapshot).set cycle.snapshot.snapshotId cycle.snapshot
  engineForRevision _ := .solo
  detectFeatureDrift _ := .ok ()

/-- The first cycle of a runtime that emits its events and buys. -/
def flatCycle : Except PyError CycleResult :=
  ({ RuntimeSetup.solo .close with emitEvents := true }.start.runCycle
    (.flat "BTC/USDT" 0 100 .buy)).1

/-- The cycle is approved, re-executed to the same result, and reported as changed. -/
def misreported : Except PyError CycleResult → Bool
  | .error _ => false
  | .ok cycle =>
    cycle.decision.isApproved &&
      match (ofCycle cycle).reExecuteCycle cycle.events none 0 with
      | .error _ => false
      | .ok (reexecuted, diff, _) => reexecuted.result = cycle.decision.result && diff.changed

theorem misreported_flatCycle : misreported flatCycle = true := by decide +kernel

theorem not_reproduces_flatCycle : ∃ cycle, flatCycle = .ok cycle ∧
    cycle.decision.isApproved = true ∧
      ¬ (ofCycle cycle).Reproduces cycle.events none 0 cycle.decision := by
  have hmisreported := misreported_flatCycle
  cases hcycle : flatCycle with
  | error e =>
    rw [hcycle] at hmisreported
    cases hmisreported
  | ok cycle =>
    rw [hcycle] at hmisreported
    obtain ⟨happroved, hreplay⟩ := Bool.and_eq_true_iff.mp hmisreported
    refine ⟨cycle, rfl, happroved, ?_⟩
    rintro ⟨reexecuted, diff, drift, hrun, -, -, hsame⟩
    simp only [hrun, hsame, Bool.and_false, Bool.false_eq_true] at hreplay

end ReplaySession

end TradingPlatform
