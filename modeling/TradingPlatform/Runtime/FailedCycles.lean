import TradingPlatform.Execution.Sizing
import TradingPlatform.Runtime.Idle
import TradingPlatform.Runtime.Reports
import TradingPlatform.Engine.RiskGates

/-!
# Cycles that raise

A cycle publishes its events at its end, so one that raises before has published none of them, while
the store keeps what the pre-decision pass has done. The execution itself never raises: an account
without equity gets no position size, so the division of the risk gate is never reached. What is
left is the stretch from the features to the decision, and the publication, which the first
subscriber of the bus that raises cuts short. A trade is lost to the event log exactly when the bar
fills a queued entry or closes a position and that stretch raises, or when the bus raises on the
event of a trade or before it.
-/

namespace TradingPlatform

/-! ## The execution returns -/

namespace SimulatedExecutionEngine

open FloatValue

variable {engine : SimulatedExecutionEngine} {snapshot : StateSnapshot} {bar : Bar} {c : EventCtx}
  {u : ℕ}

theorem equity_pos_of_positionSize {entry stopLoss sizeMultiplier : ℚ}
    (h : 0 < engine.positionSize snapshot entry stopLoss sizeMultiplier) :
    0 < snapshot.portfolio.equity := by
  rw [← zero_lt_finite, ← positionSizeIn_exact] at h
  exact equity_pos_of_positionSizeIn h

theorem check_returns (h : snapshot.portfolio.equity ≠ 0) (intent : OrderIntent) :
    ∃ result, ExecutionRiskGate.check intent snapshot = .ok result := by
  rw [← ExecutionRiskGate.checkIn_exact]
  exact ExecutionRiskGate.checkIn_returns h _

/-- `execute` never raises. -/
theorem execute_returns (engine : SimulatedExecutionEngine) (decision : Decision)
    (snapshot : StateSnapshot) (bar : Bar) (c : EventCtx) (u : ℕ) :
    ∃ pass u', engine.execute decision snapshot bar c u = (.ok pass, u') := by
  cases happroved : decision.isApproved with
  | false => exact ⟨{ engine }, u, by simp only [execute, happroved]; rfl⟩
  | true =>
  cases hsignal : decision.finalSignal with
  | none => exact ⟨{ engine }, u, by simp only [execute, happroved, hsignal]; rfl⟩
  | some signal =>
    simp only [execute, happroved, hsignal]
    split
    · exact ⟨_, _, rfl⟩
    split
    · exact ⟨_, _, rfl⟩
    next hquantity =>
      have hequity : snapshot.portfolio.equity ≠ 0 :=
        (equity_pos_of_positionSize (not_le.mp hquantity)).ne'
      let quantity :=
        engine.positionSize snapshot signal.entryPrice signal.stopLoss signal.sizeMultiplier
      let intent := orderIntent u decision signal quantity snapshot c
      obtain ⟨result, hcheck⟩ := check_returns hequity intent
      let emitted := engine.emitting (buildEnvelope c (.orderIntentCreated intent)) (u + 1)
      have hplace : engine.placeOrder decision signal quantity snapshot bar c u =
          engine.gateOrder decision signal intent snapshot bar c emitted.1 emitted.2 := rfl
      change ∃ pass u', engine.placeOrder decision signal quantity snapshot bar c u = (.ok pass, u')
      rw [hplace, gateOrder, hcheck]
      cases hpassed : result.passed with
      | false =>
        simp only [hpassed, Bool.false_eq_true, if_false]
        exact ⟨_, _, rfl⟩
      | true =>
        simp only [hpassed, if_true]
        exact ⟨_, _, rfl⟩

/-! ## When the pass over the bar trades -/

/-- A position of the symbol meets its exit test on the bar; every position counts the bar. -/
def exitTriggered (bar : Bar) (symbol : String) (engine : SimulatedExecutionEngine) :
    List PositionState → Bool
  | [] => false
  | position :: rest =>
    if position.symbol ≠ symbol then exitTriggered bar symbol engine rest
    else
      ((engine.countBar position true).checkExit position bar (engine.barsHeld position true) none
        true).isSome || exitTriggered bar symbol (engine.countBar position true) rest

theorem evaluatePositions_transitions_eq_nil {positions : List PositionState} :
    (evaluatePositions bar c none true engine positions u).1.transitions = [] ↔
      exitTriggered bar c.symbol engine positions = false := by
  induction positions generalizing engine u with
  | nil => exact ⟨fun _ => rfl, fun _ => rfl⟩
  | cons position rest ih =>
    by_cases hsym : position.symbol = c.symbol
    · rw [exitTriggered, if_neg (not_not.mpr hsym)]
      cases hexit : (engine.countBar position true).checkExit position bar
          (engine.barsHeld position true) none true with
      | none =>
        rw [evaluatePositions_cons_of_none hsym hexit, ih]
        simp
      | some exit =>
        rw [evaluatePositions_cons_of_some hsym hexit]
        simp [Pass.append, Filled.toPass]
    · rw [evaluatePositions_cons_of_ne hsym, exitTriggered, if_pos hsym, ih]

theorem fillEntries_of_forall_ne {entries : List PendingEntry}
    (h : ∀ entry ∈ entries, entry.symbol ≠ c.symbol) :
    fillEntries bar c engine entries u = ({ engine }, u) := by
  induction entries with
  | nil => rfl
  | cons entry rest ih =>
    rw [fillEntries_cons_of_ne (h entry List.mem_cons_self)]
    exact ih fun entry' hentry' => h entry' (List.mem_cons_of_mem _ hentry')

/-- The pass over the bar trades when an entry of its symbol is queued or a position of its symbol
meets its exit test. -/
theorem evaluateBar_transitions_eq_nil :
    (engine.evaluateBar bar snapshot c none true u).1.transitions = [] ↔
      (∀ entry ∈ engine.pendingEntries, entry.symbol ≠ c.symbol) ∧
        exitTriggered bar c.symbol engine snapshot.portfolio.openPositions = false := by
  by_cases hqueue : ∀ entry ∈ engine.pendingEntries, entry.symbol ≠ c.symbol
  · have hpending : engine.processPendingEntries bar c u =
        ({ engine, events := engine.filterEvents [] }, u) := by
      have hkept : engine.pendingEntries.filter (·.symbol ≠ c.symbol) = engine.pendingEntries :=
        List.filter_eq_self.mpr fun entry hentry => by simpa using hqueue entry hentry
      have hfill : fillEntries bar c engine engine.pendingEntries u = ({ engine }, u) :=
        fillEntries_of_forall_ne hqueue
      have heq : engine.processPendingEntries bar c u =
          ({ (fillEntries bar c engine engine.pendingEntries u).1 with
            events := engine.filterEvents
              (fillEntries bar c engine engine.pendingEntries u).1.events
            engine := { (fillEntries bar c engine engine.pendingEntries u).1.engine with
              pendingEntries := engine.pendingEntries.filter (·.symbol ≠ c.symbol) } },
          (fillEntries bar c engine engine.pendingEntries u).2) := rfl
      rw [heq, hfill, hkept]
    have hpass : (engine.evaluateBar bar snapshot c none true u).1.transitions =
        (evaluatePositions bar c none true engine snapshot.portfolio.openPositions
          u).1.transitions := by
      have heq : (engine.evaluateBar bar snapshot c none true u).1.transitions =
          ((engine.processPendingEntries bar c u).1.append (evaluatePositions bar c none true
            (engine.processPendingEntries bar c u).1.engine snapshot.portfolio.openPositions
            (engine.processPendingEntries bar c u).2).1).transitions := rfl
      rw [heq, hpending]
      rfl
    rw [hpass, evaluatePositions_transitions_eq_nil]
    exact ⟨fun h => ⟨hqueue, h⟩, And.right⟩
  · obtain ⟨opens, closes, u₁, htransitions, hfills, -, -⟩ :=
      evaluateBar_spec bar c engine snapshot none u
    refine ⟨fun h => absurd ?_ hqueue, fun h => absurd h.1 hqueue⟩
    rw [htransitions, List.append_eq_nil_iff] at h
    have hlen := hfills.isOpening.1
    rw [h.1, List.length_nil] at hlen
    have hnone := List.length_eq_zero_iff.mp hlen.symm
    intro entry hentry hsymbol
    exact List.not_mem_nil (hnone ▸ List.mem_filter.mpr ⟨hentry, by simpa using hsymbol⟩)

end SimulatedExecutionEngine

/-! ## The decision -/

theorem FinalSignal.validate_returns_iff {signal : FinalSignal} (h : 0 ≤ signal.sizeMultiplier) :
    (∃ valid, signal.validate = .ok valid) ↔ 0 ≤ signal.confidence ∧ signal.confidence ≤ 1 := by
  unfold FinalSignal.validate
  by_cases hconfidence : 0 ≤ signal.confidence ∧ signal.confidence ≤ 1
  · simp [hconfidence, not_lt.mpr h]
  · simp [hconfidence]

namespace EngineConfig

variable {config : EngineConfig} {signals : List StrategySignal} {context : MarketContext}
  {snapshot : StateSnapshot} {c : DecisionCtx} {u : ℕ}

/-- Where the filter lets the market through and the risk checks pass, the signals give a confidence
that a final signal may have. -/
def Concludes (config : EngineConfig) (signals : List StrategySignal) (context : MarketContext)
    (snapshot : StateSnapshot) : Prop :=
  (config.filter.check context).passed = true →
    ∀ aggregated, config.aggregation.combine signals = .ok aggregated →
      (config.risk.evaluate aggregated snapshot).passed = true →
      0 ≤ aggregated.confidence ∧ aggregated.confidence ≤ 1

/-- The size multiplier of the engine is never negative. -/
theorem build_returns_iff {aggregated : AggregatorSuccess} {decisionTime : ℤ}
    {revisionId : Option String} :
    (∃ signal, (FinalSignalBuilder.build aggregated signals context snapshot decisionTime revisionId
      config.risk.volTargetAtrPct config.risk.volTargetCap u).1 = .ok signal) ↔
      0 ≤ aggregated.confidence ∧ aggregated.confidence ≤ 1 := by
  refine FinalSignal.validate_returns_iff (?_ : 0 ≤ FinalSignal.sizeMultiplier _)
  dsimp only
  split
  · next htarget =>
    exact le_min config.risk.volTargetCap_nonneg (div_nonneg htarget.1.le htarget.2.le)
  · exact zero_le_one

/-- `process` returns exactly where it concludes. -/
theorem process_returns_iff :
    (∃ decision, (config.process signals context snapshot c u).1 = .ok decision) ↔
      config.Concludes signals context snapshot := by
  have heq : config.process signals context snapshot c u =
      config.processStages u signals context snapshot c (u + 1) := rfl
  rw [heq, Concludes]
  by_cases hfilter : (config.filter.check context).passed = true
  · cases hcombine : config.aggregation.combine signals with
    | error reason =>
      simp only [processStages, hfilter, hcombine]
      exact ⟨fun _ _ _ h => (nomatch h), fun _ => ⟨_, rfl⟩⟩
    | ok aggregated =>
      by_cases hpassed : (config.risk.evaluate aggregated snapshot).passed = true
      · have hbuilt : ∀ decisionId, (config.processAggregated decisionId signals context snapshot c
            (config.filter.check context) aggregated (u + 1)).1 =
              (FinalSignalBuilder.build aggregated signals context snapshot c.decisionTime
                c.revisionId config.risk.volTargetAtrPct config.risk.volTargetCap (u + 1)).1.map
                (config.finish decisionId signals snapshot c (config.filter.check context) {
                  method := config.aggregation.method.literal
                  side := aggregated.side.toSignalSide
                  confidence := aggregated.confidence
                  weights := aggregated.weights
                  dissent := aggregated.dissent } (config.risk.evaluate aggregated snapshot)) := by
          intro decisionId
          unfold processAggregated
          simp only [hpassed, not_true, if_false]
          rfl
        simp only [processStages, hfilter, hcombine, not_true, if_false, hbuilt]
        constructor
        · rintro ⟨decision, hdecision⟩ - aggregated' haggregated -
          cases haggregated
          obtain ⟨signal, hsignal, -⟩ := Except.map_eq_ok.mp hdecision
          exact build_returns_iff.mp ⟨signal, hsignal⟩
        · intro h
          obtain ⟨signal, hsignal⟩ := build_returns_iff.mpr (h trivial aggregated rfl hpassed)
          exact ⟨_, Except.map_eq_ok.mpr ⟨signal, hsignal, rfl⟩⟩
      · simp only [processStages, hfilter, hcombine, not_true, if_false, processAggregated, hpassed]
        refine ⟨fun _ _ aggregated' haggregated hpassed' => ?_, fun _ => ⟨_, rfl⟩⟩
        cases haggregated
        exact absurd hpassed' hpassed
  · simp only [processStages, hfilter]
    exact ⟨fun _ h => absurd h (by simp), fun _ => ⟨_, rfl⟩⟩

end EngineConfig

/-! ## The stretch up to the decision -/

namespace PlatformRuntime

variable {rt rt₁ rt' : PlatformRuntime} {ctx : CycleCtx} {call : CycleCall}
  {featureSet : FeatureSet} {context : MarketContext} {signals : List StrategySignal}

/-- The signals of the enabled providers, if all of them return. -/
def opinions (featureSet : FeatureSet) (context : MarketContext) (providers : List SignalProvider) :
    Except PyError (List StrategySignal) :=
  (providers.filter (·.enabled)).mapM (·.analyze featureSet context)

theorem collectProviderSignals_returns_iff {providers : List SignalProvider} :
    (∃ ctx' rt', rt.collectProviderSignals ctx featureSet context providers =
      .ok (signals, ctx', rt')) ↔ opinions featureSet context providers = .ok signals := by
  induction providers generalizing rt ctx signals with
  | nil =>
    constructor
    · rintro ⟨ctx', rt', h⟩
      cases h
      rfl
    · intro h
      cases h
      exact ⟨ctx, rt, rfl⟩
  | cons provider rest ih =>
    cases henabled : provider.enabled with
    | false =>
      have hopinions : opinions featureSet context (provider :: rest) =
          opinions featureSet context rest := by simp [opinions, henabled]
      rw [hopinions]
      unfold collectProviderSignals
      simp only [henabled]
      exact ih
    | true =>
      have hopinions : opinions featureSet context (provider :: rest) =
          (provider.analyze featureSet context).bind fun signal =>
            (opinions featureSet context rest).bind fun signals => .ok (signal :: signals) := by
        simp only [opinions, henabled, List.filter_cons_of_pos, List.mapM_cons]
        rfl
      rw [hopinions, Except.bind_eq_ok]
      constructor
      · rintro ⟨ctx', rt', h⟩
        unfold collectProviderSignals at h
        simp only [henabled] at h
        obtain ⟨signal, hsignal, h⟩ := Except.bind_eq_ok.mp h
        obtain ⟨⟨signals', ctx₂, rt₂⟩, hrest, h⟩ := Except.bind_eq_ok.mp h
        cases h
        exact ⟨signal, hsignal, Except.bind_eq_ok.mpr ⟨signals', ih.mp ⟨_, _, hrest⟩, rfl⟩⟩
      · rintro ⟨signal, hsignal, h⟩
        obtain ⟨signals', hrest, h⟩ := Except.bind_eq_ok.mp h
        cases h
        let emitted := rt.emitIf ctx (.providerOpinion provider.providerId signal.side
          signal.confidence signal.rationale)
        obtain ⟨ctx', rt', hcollect⟩ : ∃ ctx' rt', emitted.2.collectProviderSignals emitted.1
          featureSet context rest = .ok (signals', ctx', rt') := ih.mpr hrest
        refine ⟨ctx', rt', ?_⟩
        unfold collectProviderSignals
        simp only [henabled]
        exact Except.bind_eq_ok.mpr ⟨signal, hsignal,
          Except.bind_eq_ok.mpr ⟨_, hcollect, rfl⟩⟩

theorem decide_returns_iff {snapshot : StateSnapshot} :
    (∃ decided, rt.decide ctx signals context snapshot = .ok decided) ↔
      rt.decisionEngine.Concludes signals context snapshot := by
  let process := rt.decisionEngine.process signals context snapshot (decisionCtx ctx)
  rw [← EngineConfig.process_returns_iff (c := decisionCtx ctx) (u := rt.uuid)]
  constructor
  · rintro ⟨decided, h⟩
    obtain ⟨decision, hprocess, -⟩ := Except.bind_eq_ok (x := (rt.draw process).1).mp h
    exact ⟨decision, hprocess⟩
  · rintro ⟨decision, hprocess⟩
    exact ⟨_, Except.bind_eq_ok (x := (rt.draw process).1).mpr ⟨decision, hprocess, rfl⟩⟩

/-- What the collaborators are asked between the pass over the bar and the decision, all of it
answered: the features are built and, where they are persisted, read back with the context they
were built with, and every enabled provider gives its signal. -/
structure Answered (rt : PlatformRuntime) (ctx : CycleCtx) (collaborators : Collaborators)
    (featureSet : FeatureSet) (context : MarketContext) (signals : List StrategySignal) : Prop where
  built : collaborators.build ctx.df ctx.symbol ctx.timeframe ctx.processingTime =
    .ok (featureSet, context)
  stored : rt.persistFeatures = true →
    collaborators.storedContext featureSet.featureSetId = .ok (some context)
  opinions : opinions featureSet context collaborators.providers = .ok signals

/-- The stretch from the features to the decision raises nothing: the collaborators answer, and the
decision engine concludes on the decision snapshot. -/
def Answers (rt : PlatformRuntime) (call : CycleCall) (ctx : CycleCtx) : Prop :=
  ∃ featureSet context signals, rt.Answered ctx call.collaborators featureSet context signals ∧
    ∀ a rt', rt.runToSnapshot call = (.ok a, rt') →
      rt.decisionEngine.Concludes signals context a.snapshot

theorem checkStored_returns_iff {collaborators : Collaborators} :
    rt.checkStored featureSet context collaborators = .ok () ↔ (rt.persistFeatures = true →
      collaborators.storedContext featureSet.featureSetId = .ok (some context)) := by
  unfold checkStored
  cases rt.persistFeatures with
  | false => exact ⟨nofun, fun _ => rfl⟩
  | true =>
    rw [if_pos rfl]
    constructor
    · intro h _
      obtain ⟨stored, hstored, h⟩ := Except.bind_eq_ok.mp h
      by_cases hsame : stored = some context
      · rw [hstored, hsame]
      · rw [if_pos hsame] at h
        cases h
    · intro h
      exact Except.bind_eq_ok.mpr ⟨_, h rfl, if_neg (not_not.mpr rfl)⟩

theorem buildFeatures_returns_iff {collaborators : Collaborators} :
    (∃ ctx' rt', rt.buildFeatures ctx collaborators = .ok ((featureSet, context), ctx', rt')) ↔
      collaborators.build ctx.df ctx.symbol ctx.timeframe ctx.processingTime =
        .ok (featureSet, context) ∧ rt.checkStored featureSet context collaborators = .ok () := by
  constructor
  · rintro ⟨ctx', rt', h⟩
    obtain ⟨⟨featureSet', context'⟩, hbuilt, h⟩ := Except.bind_eq_ok.mp h
    obtain ⟨_, hstored, h⟩ := Except.bind_eq_ok.mp h
    obtain ⟨hpair, -⟩ := Prod.mk.inj (Except.ok.inj h)
    cases hpair
    exact ⟨hbuilt, hstored⟩
  · rintro ⟨hbuilt, hstored⟩
    exact ⟨_, _, Except.bind_eq_ok.mpr ⟨_, hbuilt, Except.bind_eq_ok.mpr ⟨_, hstored, rfl⟩⟩⟩

/-- Nothing that the feature builder is asked depends on the pass over the bar. -/
theorem buildFeatures_asked :
    let candle := (rt.preDecisionEvaluate ctx).2.emitCandleReceived (rt.preDecisionEvaluate ctx).1
    candle.1.df = ctx.df ∧ candle.1.symbol = ctx.symbol ∧ candle.1.timeframe = ctx.timeframe ∧
      candle.1.processingTime = ctx.processingTime ∧
      candle.2.persistFeatures = rt.persistFeatures := by
  have happly : ∀ (ts : List StateTransitionEvent) (r : PlatformRuntime),
      (r.applyTransitions ts).persistFeatures = r.persistFeatures := by
    intro ts
    induction ts with
    | nil => exact fun _ => rfl
    | cons t ts ih => exact fun r => ih (r.applyTransition t)
  have hcandle : ∀ (r : PlatformRuntime) (ctx : CycleCtx),
      (r.emitCandleReceived ctx).1.df = ctx.df ∧
      (r.emitCandleReceived ctx).1.symbol = ctx.symbol ∧
      (r.emitCandleReceived ctx).1.timeframe = ctx.timeframe ∧
      (r.emitCandleReceived ctx).1.processingTime = ctx.processingTime ∧
      (r.emitCandleReceived ctx).2.persistFeatures = r.persistFeatures := by
    intro r ctx
    unfold emitCandleReceived
    split <;> exact ⟨rfl, rfl, rfl, rfl, rfl⟩
  cases hengine : rt.executionEngine with
  | none =>
    rw [preDecisionEvaluate_none hengine]
    exact hcandle rt ctx
  | some engine =>
    obtain ⟨hdf, hsymbol, htimeframe, htime, hpersist⟩ :=
      hcandle (rt.preDecisionEvaluate ctx).2 (rt.preDecisionEvaluate ctx).1
    rw [preDecisionEvaluate_eq hengine, happly] at hpersist
    have hsame : SameCycle ctx (rt.preDecisionEvaluate ctx).1 := sameCycle_preDecisionEvaluate
    refine ⟨hdf.trans ?_, hsymbol.trans hsame.symbol, htimeframe.trans hsame.timeframe,
      htime.trans hsame.processingTime, ?_⟩
    · unfold preDecisionEvaluate
      rw [hengine]
    · rw [preDecisionEvaluate_eq hengine]
      exact hpersist

/-- A cycle gets to its decision snapshot when the features are built and stored. -/
theorem runToSnapshot_returns_iff (hprepare : rt.prepareBar call = .ok (ctx, rt₁)) :
    (∃ a rt', rt.runToSnapshot call = (.ok a, rt') ∧ a.featureSet = featureSet ∧
      a.context = context) ↔
      call.collaborators.build ctx.df ctx.symbol ctx.timeframe ctx.processingTime =
        .ok (featureSet, context) ∧ (rt₁.persistFeatures = true →
          call.collaborators.storedContext featureSet.featureSetId = .ok (some context)) := by
  let pre := rt₁.preDecisionEvaluate ctx
  let candle := pre.2.emitCandleReceived pre.1
  have hrun : rt₁.preDecisionEvaluate ctx = pre ∧ pre.2.emitCandleReceived pre.1 = candle :=
    ⟨rfl, rfl⟩
  obtain ⟨hdf, hsymbol, htimeframe, htime, hpersist⟩ :
    candle.1.df = ctx.df ∧ candle.1.symbol = ctx.symbol ∧ candle.1.timeframe = ctx.timeframe ∧
      candle.1.processingTime = ctx.processingTime ∧
      candle.2.persistFeatures = rt₁.persistFeatures := buildFeatures_asked
  have hbuild : (∃ ctx' rt', candle.2.buildFeatures candle.1 call.collaborators =
      .ok ((featureSet, context), ctx', rt')) ↔ _ := buildFeatures_returns_iff
  rw [hdf, hsymbol, htimeframe, htime, checkStored_returns_iff, hpersist] at hbuild
  rw [← hbuild]
  constructor
  · rintro ⟨a, rt', h, rfl, rfl⟩
    cases hbuilt : candle.2.buildFeatures candle.1 call.collaborators with
    | error e =>
      simp only [runToSnapshot, hprepare, hrun, hbuilt] at h
      cases h
    | ok built =>
      obtain ⟨⟨featureSet, context⟩, ctx', rt₂⟩ := built
      simp only [runToSnapshot, hprepare, hrun, hbuilt] at h
      cases h
      exact ⟨ctx', rt₂, rfl⟩
  · rintro ⟨ctx', rt₂, hbuilt⟩
    refine ⟨(rt₂.takeSnapshot ctx' featureSet context).1,
      (rt₂.takeSnapshot ctx' featureSet context).2, ?_, rfl, rfl⟩
    simp only [runToSnapshot, hprepare, hrun, hbuilt]

theorem decisionEngine_of_runToSnapshot {a : AtSnapshot}
    (h : rt.runToSnapshot call = (.ok a, rt')) : rt'.decisionEngine = rt.decisionEngine := by
  rcases runToSnapshot_cases rt call with ⟨e, -, herror⟩ | ⟨ctx, rt₁, hprepared, hcases⟩
  · cases herror.symm.trans h
  rcases hcases with ⟨e, _, herror, -⟩ | ⟨a', rt₂, rt₃, hrun, hquiet₂, hquiet₃, -⟩
  · cases herror.symm.trans h
  cases hrun.symm.trans h
  obtain ⟨_, _, hpre, -⟩ := preDecisionEvaluate_applied rt₁ ctx
  obtain ⟨_, hreset, -⟩ := books_maybeResetDailyRisk rt₂ ctx.eventTime ctx.cycleId
  obtain ⟨_, hmark, -⟩ := books_markToMarket (rt₂.maybeResetDailyRisk ctx.eventTime ctx.cycleId) ctx
  calc rt'.decisionEngine
    _ = rt₂.decisionEngine :=
        hquiet₃.decisionEngine.trans (hmark.decisionEngine.trans hreset.decisionEngine)
    _ = rt₁.decisionEngine := hquiet₂.decisionEngine.trans hpre.decisionEngine
    _ = rt.decisionEngine := hprepared.quiet.decisionEngine

/-- A cycle gets to its decision exactly when the stretch from the features on raises nothing. -/
theorem runToDecision_returns_iff (hprepare : rt.prepareBar call = .ok (ctx, rt₁)) :
    (∃ d rt', rt.runToDecision call = (.ok d, rt')) ↔ rt.Answers call ctx := by
  have hpersist : rt₁.persistFeatures = rt.persistFeatures :=
    (prepareBar_ok hprepare).quiet.persistFeatures
  constructor
  · rintro ⟨d, rt', h⟩
    cases hsnap : rt.runToSnapshot call with
    | mk outcome rt₂ =>
    cases outcome with
    | error e => cases (runToDecision_of_error hsnap).symm.trans h
    | ok a =>
    cases hcollect : rt₂.collectProviderSignals a.ctx a.featureSet a.context
        call.collaborators.providers with
    | error e =>
      simp only [runToDecision, hsnap, hcollect] at h
      cases h
    | ok collected =>
    obtain ⟨signals, ctx₃, rt₃⟩ := collected
    cases hdecide : rt₃.decide ctx₃ signals a.context a.snapshot with
    | error e =>
      simp only [runToDecision, hsnap, hcollect, hdecide] at h
      cases h
    | ok decided =>
    obtain ⟨hbuilt, hstored⟩ := (runToSnapshot_returns_iff hprepare).mp ⟨a, rt₂, hsnap, rfl, rfl⟩
    have hconcludes := decide_returns_iff.mp ⟨decided, hdecide⟩
    have hengine : rt₃.decisionEngine = rt.decisionEngine :=
      (onlyEvents_collectProviderSignals hcollect).2.decisionEngine.trans
        (decisionEngine_of_runToSnapshot hsnap)
    rw [hengine] at hconcludes
    refine ⟨a.featureSet, a.context, signals, ⟨hbuilt, hpersist ▸ hstored,
      collectProviderSignals_returns_iff.mp ⟨_, _, hcollect⟩⟩, fun a' rt₂' hsnap' => ?_⟩
    cases hsnap.symm.trans hsnap'
    exact hconcludes
  · rintro ⟨featureSet, context, signals, hanswered, hconcludes⟩
    obtain ⟨a, rt₂, hsnap, rfl, rfl⟩ := (runToSnapshot_returns_iff hprepare).mpr
      ⟨hanswered.built, hpersist ▸ hanswered.stored⟩
    obtain ⟨ctx₃, rt₃, hcollect⟩ : ∃ ctx₃ rt₃, rt₂.collectProviderSignals a.ctx a.featureSet
      a.context call.collaborators.providers = .ok (signals, ctx₃, rt₃) :=
      collectProviderSignals_returns_iff.mpr hanswered.opinions
    have hengine : rt₃.decisionEngine = rt.decisionEngine :=
      (onlyEvents_collectProviderSignals hcollect).2.decisionEngine.trans
        (decisionEngine_of_runToSnapshot hsnap)
    obtain ⟨⟨decision, ctx₄, rt₄⟩, hdecide⟩ : ∃ decided, rt₃.decide ctx₃ signals a.context
      a.snapshot = .ok decided := decide_returns_iff.mpr (hengine ▸ hconcludes a rt₂ hsnap)
    exact ⟨{ a with ctx := ctx₄, signals, decision }, rt₄, by
      simp only [runToDecision, hsnap, hcollect, hdecide]⟩

/-! ## The trades of a cycle -/

/-- Transitions have been applied since `r`, none of which is a trade. -/
def Untraded (r r' : PlatformRuntime) : Prop :=
  ∃ ts, r'.transitions = r.transitions ++ ts ∧ madeTrades ts = []

theorem Untraded.trans {r₁ r₂ r₃ : PlatformRuntime} (h : Untraded r₁ r₂) (h' : Untraded r₂ r₃) :
    Untraded r₁ r₃ := by
  obtain ⟨ts, hts, hnone⟩ := h
  obtain ⟨ts', hts', hnone'⟩ := h'
  exact ⟨ts ++ ts', by rw [hts', hts, List.append_assoc],
    by rw [madeTrades_append, hnone, hnone']; rfl⟩

theorem Books.untraded {r r' : PlatformRuntime} (h : Books r r') : Untraded r r' := by
  obtain ⟨ts, happlied, hbooks⟩ := h
  exact ⟨ts, happlied.transitions, madeTrades_bookkeeping hbooks⟩

theorem Quiet.untraded {r r' : PlatformRuntime} (h : Quiet r r') : Untraded r r' :=
  Books.untraded (.of_applied_nil h.applied_nil)

/-- A cycle that raises before its decision trades in its pass over the bar only. -/
theorem untraded_of_error (hprepare : rt.prepareBar call = .ok (ctx, rt₁)) {e : PyError}
    (h : rt.runToDecision call = (.error e, rt')) :
    Untraded (rt₁.preDecisionEvaluate ctx).2 rt' := by
  rcases runToSnapshot_cases rt call with ⟨e', herror, -⟩ | ⟨ctx', rt₁', hprepared, hcases⟩
  · cases herror.symm.trans hprepare
  cases hprepared.prepared.symm.trans hprepare
  rcases hcases with ⟨e', _, hsnap, hquiet⟩ | ⟨a, rt₂, rt₃, hsnap, hquiet₂, hquiet₃, -⟩
  · cases (runToDecision_of_error hsnap).symm.trans h
    exact hquiet.untraded
  · have hreset := (books_maybeResetDailyRisk rt₂ ctx.eventTime ctx.cycleId).untraded
    have hmark := (books_markToMarket (rt₂.maybeResetDailyRisk ctx.eventTime ctx.cycleId)
      ctx).untraded
    rcases runToDecision_of_ok hsnap with ⟨e', rt₄, hrun, hquiet⟩ | ⟨d, rt₄, hrun, -⟩
    · cases hrun.symm.trans h
      exact hquiet₂.untraded.trans
        (hreset.trans (hmark.trans (hquiet₃.untraded.trans hquiet.untraded)))
    · cases hrun.symm.trans h

/-- The pass over the bar of `ctx` trades: an entry of its symbol is queued, or an open position of
its symbol meets its exit test. -/
def TradesOnBar (rt : PlatformRuntime) (ctx : CycleCtx) : Prop :=
  ∃ engine, rt.executionEngine = some engine ∧
    ((∃ entry ∈ engine.pendingEntries, entry.symbol = ctx.symbol) ∨
      SimulatedExecutionEngine.exitTriggered ctx.bar ctx.symbol engine
        rt.stateStore.portfolio.openPositions = true)

/-- The trades of the pass over the bar. -/
theorem preDecisionEvaluate_made (rt : PlatformRuntime) (ctx : CycleCtx) : ∃ ts,
    Applied ts rt (rt.preDecisionEvaluate ctx).2 ∧ (madeTrades ts = [] ↔ ¬ rt.TradesOnBar ctx) := by
  obtain ⟨ts, happlied, htrade, -⟩ := preDecisionEvaluate_trades rt ctx
  refine ⟨ts, happlied, ?_⟩
  have hmade : madeTrades ts = [] ↔ ts = [] := by
    refine ⟨fun h => List.eq_nil_iff_forall_not_mem.mpr fun t ht => ?_, fun h => by rw [h]; rfl⟩
    have hnone := List.filterMap_eq_nil_iff.mp h t ht
    rcases (htrade t ht).1 with ⟨p, fill, cost, hpay⟩ | ⟨id, fill, pnl, reason, hpay⟩ <;>
      rw [hpay] at hnone <;> cases hnone
  rw [hmade]
  cases hengine : rt.executionEngine with
  | none =>
    have hsame : rt.transitions ++ ts = rt.transitions := by
      rw [← happlied.transitions, preDecisionEvaluate_none hengine]
    refine ⟨fun _ h => ?_, fun _ => List.append_right_eq_self.mp hsame⟩
    obtain ⟨engine, hsome, -⟩ := h
    cases hengine.symm.trans hsome
  | some engine =>
    let pass := engine.evaluateBar ctx.bar (rt.snapshot ctx.cycleId).1
      (executionCtx engine ctx ctx.eventTime) none true (rt.uuid + 1)
    have hpass : Applied pass.1.transitions rt (rt.preDecisionEvaluate ctx).2 := by
      rw [preDecisionEvaluate_eq hengine]
      have hle : rt.uuid ≤ pass.2 := (Nat.le_add_right _ 1).trans
        (EnginePass.evaluated engine (rt.snapshot ctx.cycleId).1 none true :
          EnginePass ctx (rt.uuid + 1) pass.1 pass.2).le_uuid
      exact applied_of_engine hle
    have hts : ts = pass.1.transitions :=
      List.append_cancel_left (happlied.transitions.symm.trans hpass.transitions)
    have hiff : pass.1.transitions = [] ↔ _ :=
      SimulatedExecutionEngine.evaluateBar_transitions_eq_nil
    rw [hts, hiff]
    constructor
    · rintro ⟨hqueue, hexit⟩ ⟨engine', hsome, htrades⟩
      cases hengine.symm.trans hsome
      rcases htrades with ⟨entry, hentry, hsymbol⟩ | htriggered
      · exact hqueue entry hentry hsymbol
      · exact Bool.false_ne_true (hexit.symm.trans htriggered)
    · intro h
      refine ⟨fun entry hentry hsymbol => h ⟨engine, hengine, .inl ⟨entry, hentry, hsymbol⟩⟩, ?_⟩
      rw [← Bool.not_eq_true]
      exact fun htriggered => h ⟨engine, hengine, .inr htriggered⟩

/-! ## The cycle on a bus -/

variable {bus : EventBus}

theorem sameBarExitAndExecute_returns (rt : PlatformRuntime) (ctx : CycleCtx)
    (decision : Decision) :
    ∃ ctx' rt', rt.sameBarExitAndExecute ctx decision = (.ok ctx', rt') := by
  cases hengine : rt.executionEngine with
  | none => exact ⟨ctx, rt, sameBarExitAndExecute_idle (.inr hengine)⟩
  | some engine =>
    cases happroved : decision.isApproved with
    | false => exact ⟨ctx, rt, sameBarExitAndExecute_idle (.inl happroved)⟩
    | true =>
      obtain ⟨engine', -, heq⟩ := sameBarExitAndExecute_eq ctx happroved hengine
      rw [heq]
      generalize rt.sameBarExit ctx engine decision.finalSignal = exit
      let snapshot := exit.2.snapshot exit.1.cycleId
      have hsnapshot : exit.2.snapshot exit.1.cycleId = (snapshot.1, snapshot.2) := rfl
      obtain ⟨pass, u', hexecute⟩ := SimulatedExecutionEngine.execute_returns engine' decision
        snapshot.1 exit.1.bar (executionCtx engine' exit.1 decision.eventTime) snapshot.2.uuid
      refine ⟨{ exit.1 with executionEvents := exit.1.executionEvents ++ pass.events },
        { snapshot.2 with uuid := u', executionEngine := some pass.engine }.applyTransitions
          pass.transitions, ?_⟩
      unfold executeDecision
      simp only [hsnapshot, draw_eq snapshot.2 hexecute]

/-- A cycle that has made its decision gets to publish its events. -/
theorem runToPublish_returns {d : AtDecision} (h : rt.runToDecision call = (.ok d, rt')) :
    ∃ result rt'', rt.runToPublish call = (.ok result, rt'') := by
  obtain ⟨ctx', rt'', hexecute⟩ := sameBarExitAndExecute_returns rt' d.ctx d.decision
  simp only [runToPublish, h, hexecute]
  exact ⟨_, _, rfl⟩

/-- A cycle that has made its decision returns where no subscriber raises. -/
theorem runCycle_returns {d : AtDecision} (h : rt.runToDecision call = (.ok d, rt')) :
    ∃ result rt'', rt.runCycle call = (.ok result, rt'') := by
  obtain ⟨result, rt'', hpublish⟩ := runToPublish_returns h
  simp only [runCycle, hpublish]
  exact ⟨_, _, rfl⟩

/-- On a bus whose subscribers raise nothing the cycle is `runCycle`. -/
theorem runCycleOn_of_delivers (h : ∀ event, bus.delivers event = true) :
    rt.runCycleOn bus call = rt.runCycle call := by
  have hall : ∀ events, bus.publishMany events = (.ok (), events) := fun _ =>
    EventBus.publishMany_of_delivers fun event _ => h event
  simp only [runCycleOn, runCycle, hall]
  rfl

/-- What a cycle that gets to publish has traded, its events report; the bus decides which of them
it publishes. -/
theorem runCycleOn_reports {result : CycleResult} (h : rt.runToPublish call = (.ok result, rt')) :
    ∃ ts, (rt.runCycleOn bus call).2.transitions = rt.transitions ++ ts ∧
      (rt.runCycleOn bus call).2.published = rt.published ++ (bus.publishMany result.events).2 ∧
      reportedTrades result.events = madeTrades ts := by
  have hrun : rt.runCycle call =
      (.ok result, { rt' with published := rt'.published ++ result.events }) := by
    simp only [runCycle, h]
  obtain ⟨ctx, rt₁, ts, -, hts, hreports, hpublished, -⟩ := runCycle_reports hrun
  have hbefore : rt'.published = rt.published := List.append_cancel_right hpublished
  have hon : (rt.runCycleOn bus call).2 =
      { rt' with published := rt'.published ++ (bus.publishMany result.events).2 } := by
    simp only [runCycleOn, h]
  rw [hon, ← hbefore]
  exact ⟨ts, hts, rfl, hreports.trades⟩

/-! ## What is recorded -/

/-- Every position that the call has opened or closed in the store is reported by an event of its
own that the call has published and every subscriber of the bus, the event log among them, has
handled. -/
def Recorded (rt : PlatformRuntime) (bus : EventBus) (call : CycleCall) : Prop :=
  ∃ ts events, (rt.runCycleOn bus call).2.transitions = rt.transitions ++ ts ∧
    (rt.runCycleOn bus call).2.published = rt.published ++ events ∧
    (madeTrades ts).Subperm (reportedTrades (events.filter bus.delivers))

/-- Where the pass over the bar trades, the stretch up to the decision raises nothing; and where the
cycle gets to publish its events, none from the first one on which a subscriber raises reports a
trade. -/
structure Settles (rt : PlatformRuntime) (bus : EventBus) (call : CycleCall) : Prop where
  decides : ∀ ctx rt₁, rt.prepareBar call = .ok (ctx, rt₁) → rt₁.TradesOnBar ctx →
    rt.Answers call ctx
  heard : ∀ result rt', rt.runToPublish call = (.ok result, rt') →
    ∀ event ∈ bus.unheard result.events, event.payload.trade? = none

/-- The trades that are published and handled are all of them exactly when the events that are not
report none. -/
theorem subperm_heard_iff {events : List EventEnvelope} :
    (reportedTrades events).Subperm
        (reportedTrades ((bus.publishMany events).2.filter bus.delivers)) ↔
      ∀ event ∈ bus.unheard events, event.payload.trade? = none := by
  have hsplit : reportedTrades events = reportedTrades (events.takeWhile bus.delivers) ++
      reportedTrades (bus.unheard events) := by
    rw [← reportedTrades_append, EventBus.unheard, List.takeWhile_append_dropWhile]
  have hnone : reportedTrades (bus.unheard events) = [] ↔
      ∀ event ∈ bus.unheard events, event.payload.trade? = none := List.filterMap_eq_nil_iff
  rw [EventBus.filter_publishMany, ← hnone, hsplit]
  constructor
  · intro h
    have hlength := h.length_le
    rw [List.length_append] at hlength
    exact List.length_eq_zero_iff.mp (Nat.le_zero.mp (Nat.le_of_add_le_add_left
      (hlength.trans (Nat.add_zero _).ge)))
  · intro h
    rw [h, List.append_nil]

/-- A cycle that gets to publish its events is recorded exactly when the bus gets past its trades. -/
theorem recorded_iff_heard {result : CycleResult}
    (h : rt.runToPublish call = (.ok result, rt')) : rt.Recorded bus call ↔
      ∀ event ∈ bus.unheard result.events, event.payload.trade? = none := by
  obtain ⟨ts, hts, hpublished, htrades⟩ : ∃ ts,
    (rt.runCycleOn bus call).2.transitions = rt.transitions ++ ts ∧
      (rt.runCycleOn bus call).2.published = rt.published ++ (bus.publishMany result.events).2 ∧
      reportedTrades result.events = madeTrades ts := runCycleOn_reports h
  rw [← subperm_heard_iff, htrades]
  constructor
  · rintro ⟨ts', events, hts', hpublished', hreported⟩
    cases List.append_cancel_left (hts'.symm.trans hts)
    cases List.append_cancel_left (hpublished'.symm.trans hpublished)
    exact hreported
  · exact fun hreported => ⟨ts, _, hts, hpublished, hreported⟩

/-- A cycle that has published nothing is recorded exactly when it has traded nothing. -/
theorem recorded_iff_untraded {ts : List StateTransitionEvent}
    (htransitions : (rt.runCycleOn bus call).2.transitions = rt.transitions ++ ts)
    (hsilent : (rt.runCycleOn bus call).2.published = rt.published) :
    rt.Recorded bus call ↔ madeTrades ts = [] := by
  constructor
  · rintro ⟨ts', events, hts', hpublished, hreported⟩
    have hevents : events = [] := List.append_right_eq_self.mp (hpublished.symm.trans hsilent)
    rw [List.append_cancel_left (hts'.symm.trans htransitions), hevents] at hreported
    exact List.subperm_nil.mp hreported
  · intro hempty
    refine ⟨ts, [], htransitions, by rw [hsilent, List.append_nil], ?_⟩
    rw [hempty]
    exact .refl _

/-- A call records all its trades exactly when it settles: it gets no bar, or the bar makes it
trade nothing, or features, store, providers and decision engine raise nothing; and no subscriber of
the bus raises on the event of a trade or before it. -/
theorem recorded_iff (rt : PlatformRuntime) (bus : EventBus) (call : CycleCall) :
    rt.Recorded bus call ↔ rt.Settles bus call := by
  cases hdecision : rt.runToDecision call with
  | mk outcome rt' =>
  cases outcome with
  | ok d =>
    obtain ⟨result, rt'', hpublish⟩ := runToPublish_returns hdecision
    rw [recorded_iff_heard hpublish]
    constructor
    · intro hheard
      refine ⟨fun ctx rt₁ hprepare _ =>
        (runToDecision_returns_iff hprepare).mp ⟨d, rt', hdecision⟩, fun result' r hpublish' => ?_⟩
      cases hpublish.symm.trans hpublish'
      exact hheard
    · exact fun hsettles => hsettles.heard result rt'' hpublish
  | error e =>
    have hpublish : rt.runToPublish call = (.error e, rt') := by
      simp only [runToPublish, hdecision]
    have hrun : rt.runCycleOn bus call = (.error e, rt') := by simp only [runCycleOn, hpublish]
    have hraised : rt.runCycle call = (.error e, rt') := by simp only [runCycle, hpublish]
    have hsilent : rt'.published = rt.published := (runCycle_raised hraised).published
    have hheard : ∀ result r, rt.runToPublish call = (.ok result, r) →
        ∀ event ∈ bus.unheard result.events, event.payload.trade? = none := by
      intro result r hok
      cases hpublish.symm.trans hok
    cases hprepare : rt.prepareBar call with
    | error e' =>
      have hsame : rt' = rt := by
        have hraised : rt.runToSnapshot call = (.error e', rt) := by
          simp only [runToSnapshot, hprepare]
        cases (runToDecision_of_error hraised).symm.trans hdecision
        rfl
      constructor
      · refine fun _ => ⟨fun ctx rt₁ hok => ?_, hheard⟩
        cases hprepare.symm.trans hok
      · intro _
        have huntraded : rt.Recorded bus call ↔ madeTrades [] = [] :=
          recorded_iff_untraded (by rw [hrun, hsame, List.append_nil]) (by rw [hrun, hsilent])
        exact huntraded.mpr rfl
    | ok prepared =>
      obtain ⟨ctx, rt₁⟩ := prepared
      obtain ⟨ts, happlied, hmade⟩ := preDecisionEvaluate_made rt₁ ctx
      obtain ⟨ts', htransitions, hnone⟩ := untraded_of_error hprepare hdecision
      have hstart : rt₁.transitions = rt.transitions :=
        congrArg (List.map Prod.fst) (prepareBar_ok hprepare).quiet.applied
      rw [happlied.transitions, hstart, List.append_assoc] at htransitions
      have hrecorded : rt.Recorded bus call ↔ madeTrades ts = [] := by
        rw [recorded_iff_untraded (by rw [hrun, htransitions]) (by rw [hrun, hsilent]),
          madeTrades_append, hnone, List.append_nil]
      rw [hrecorded, hmade]
      constructor
      · refine fun huntraded => ⟨fun ctx' rt₁' hprepare' htraded => ?_, hheard⟩
        cases hprepare.symm.trans hprepare'
        exact absurd htraded huntraded
      · intro hsettles htraded
        obtain ⟨d, r, hok⟩ :=
          (runToDecision_returns_iff hprepare).mpr (hsettles.decides ctx rt₁ hprepare htraded)
        cases hok.symm.trans hdecision

/-- A cycle on a flat bar whose features cannot be built. -/
def brokenCall : CycleCall :=
  let call := CycleCall.flat "BTC/USDT" 3600 50 .buy
  { call with collaborators := { call.collaborators with
      build := fun _ _ _ _ => .error (.valueError "no features") } }

/-- A runtime that has bought at 100. -/
def longRuntime : PlatformRuntime :=
  (RuntimeSetup.solo .close).start.step (.flat "BTC/USDT" 0 100 .buy)

/-- The position is stopped out, and no event says so on a bus without subscribers. -/
theorem not_recorded_brokenCall : ¬ longRuntime.Recorded {} brokenCall := by
  have hrun : longRuntime.runCycleOn {} brokenCall = longRuntime.runCycle brokenCall :=
    runCycleOn_of_delivers fun _ => rfl
  rintro ⟨ts, events, hts, hpublished, hreported⟩
  rw [hrun] at hts hpublished
  have hsilent : (longRuntime.runCycle brokenCall).2.published = longRuntime.published := by
    decide +kernel
  have hclosed : madeTrades (longRuntime.runCycle brokenCall).2.transitions ≠
      madeTrades longRuntime.transitions := by decide +kernel
  have hevents : events = [] := List.append_right_eq_self.mp (hpublished.symm.trans hsilent)
  rw [hts, madeTrades_append] at hclosed
  rw [hevents] at hreported
  exact hclosed (by rw [List.subperm_nil.mp hreported, List.append_nil])

end PlatformRuntime

end TradingPlatform
