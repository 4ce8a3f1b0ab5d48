import TradingPlatform.Execution.EventTypes
import TradingPlatform.Runtime.CycleRule

/-!
# The shape of a published cycle

The types of the events that a cycle publishes follow from its providers and its decision: the bar
and its features, one event for each provider, the decision and its outcome, and after an approval
the signal. What the engine has built comes last, first of the passes over the bar and then of the
order, although the pending entries and the exits of the bar are earlier than everything else.
-/

namespace TradingPlatform

/-- If the payload is that of an approval, it has the signal that is approved. -/
def Payload.namesSignal : Payload → Bool
  | .decisionApproved _ _ finalSignal => finalSignal.isSome
  | _ => true

theorem Payload.namesSignal_of_ne {payload : Payload} (h : payload.eventType ≠ .decisionApproved) :
    payload.namesSignal = true := by
  cases payload with
  | decisionApproved => exact absurd rfl h
  | _ => rfl

/-! ## Approved decisions -/

namespace EngineConfig

variable {config : EngineConfig} {signals : List StrategySignal} {context : MarketContext}
  {snapshot : StateSnapshot} {c : DecisionCtx} {u : ℕ} {d : Decision}

theorem finalSignal_finish {decisionId : ℕ} {marketResult : StageResult}
    {aggregation : AggregationResult} {verdict : RiskVerdict} {finalSignal : FinalSignal}
    (happroved : (config.finish decisionId signals snapshot c marketResult aggregation verdict
      finalSignal).isApproved = true) :
    (config.finish decisionId signals snapshot c marketResult aggregation verdict
      finalSignal).finalSignal = some finalSignal := by
  revert happroved
  unfold finish
  dsimp only
  split
  · intro happroved
    cases beq_iff_eq.mp happroved
  · exact fun _ => rfl

/-- An approved decision has a final signal. -/
theorem exists_finalSignal (hd : (config.process signals context snapshot c u).1 = .ok d)
    (happroved : d.isApproved = true) : ∃ signal, d.finalSignal = some signal := by
  change (config.processStages u signals context snapshot c (u + 1)).1 = _ at hd
  unfold processStages at hd
  split at hd
  · cases hd
    cases beq_iff_eq.mp happroved
  · cases hcombine : config.aggregation.combine signals with
    | error reason =>
      simp only [hcombine] at hd
      cases hd
      cases beq_iff_eq.mp happroved
    | ok aggregated =>
      simp only [hcombine] at hd
      unfold processAggregated at hd
      split at hd
      · cases hd
        cases beq_iff_eq.mp happroved
      · obtain ⟨signal, _, rfl⟩ := Except.map_eq_ok.mp hd
        exact ⟨signal, finalSignal_finish happroved⟩

end EngineConfig

namespace PlatformRuntime

/-! ## What the phases add -/

/-- The type of the event of a provider. -/
def opinionType (provider : SignalProvider) : EventType :=
  if provider.enabled then .providerOpinion else .providerSkipped

/-- The types of the events of a decision. -/
def decisionTypes (decision : Decision) : List EventType :=
  if decision.isApproved then [.decisionMade, .decisionApproved, .signalPublished]
  else [.decisionMade, .decisionRejected]

/-- The types of the events that the runtime itself builds in a cycle. -/
def cycleTypes (providers : List SignalProvider) (decision : Decision) : List EventType :=
  [.candleReceived, .featureSetBuilt, .marketContextDerived] ++ providers.map opinionType ++
    decisionTypes decision

/-- What an execution needs to know of the engine. -/
def engineSetting (rt : PlatformRuntime) : Option (Bool × Bool) :=
  rt.executionEngine.map fun engine => (engine.emitEvents, engine.config.longOnly)

/-- From `p` to `q` a cycle adds events of these types of its own, and of the engine only those of
passes over the bar. -/
structure Adds (types : List EventType) (p q : CycleCtx × PlatformRuntime) : Prop where
  own : q.1.events.map (·.eventType) = p.1.events.map (·.eventType) ++ types
  bar : ∃ events, q.1.executionEvents = p.1.executionEvents ++ events ∧
    ∀ e ∈ events, e.eventType ∈ SimulatedExecutionEngine.barTypes
  named : (∀ e ∈ p.1.events, e.payload.namesSignal = true) →
    ∀ e ∈ q.1.events, e.payload.namesSignal = true
  emitEvents : q.2.emitEvents = p.2.emitEvents
  setting : q.2.engineSetting = p.2.engineSetting

variable {rt rt' : PlatformRuntime} {ctx ctx' : CycleCtx} {call : CycleCall}
  {p q r : CycleCtx × PlatformRuntime} {types types' : List EventType}

/-- The types of events that are there only if the runtime emits events. -/
def whenEmitting (rt : PlatformRuntime) (types : List EventType) : List EventType :=
  if rt.emitEvents then types else []

theorem whenEmitting_congr (h : rt'.emitEvents = rt.emitEvents) :
    rt'.whenEmitting types = rt.whenEmitting types := by
  unfold whenEmitting
  rw [h]

theorem whenEmitting_append :
    rt.whenEmitting types ++ rt.whenEmitting types' = rt.whenEmitting (types ++ types') := by
  unfold whenEmitting
  split <;> rfl

namespace Adds

theorem quiet (hctx : ctx' = ctx) (hemits : rt'.emitEvents = rt.emitEvents)
    (hsetting : rt'.engineSetting = rt.engineSetting) : Adds [] (ctx, rt) (ctx', rt') := by
  subst hctx
  exact ⟨(List.append_nil _).symm, ⟨[], (List.append_nil _).symm, List.forall_mem_nil _⟩, id,
    hemits, hsetting⟩

theorem refl (p : CycleCtx × PlatformRuntime) : Adds [] p p := quiet rfl rfl rfl

theorem trans (h : Adds types p q) (h' : Adds types' q r) : Adds (types ++ types') p r := by
  obtain ⟨hown, ⟨events, hevents, hbar⟩, hnamed, hemits, hsetting⟩ := h
  obtain ⟨hown', ⟨events', hevents', hbar'⟩, hnamed', hemits', hsetting'⟩ := h'
  refine ⟨?_, ⟨events ++ events', ?_, List.forall_mem_append.mpr ⟨hbar, hbar'⟩⟩,
    fun h => hnamed' (hnamed h), hemits'.trans hemits, hsetting'.trans hsetting⟩
  · rw [hown', hown, List.append_assoc]
  · rw [hevents', hevents, List.append_assoc]

theorem trans_nil (h : Adds types p q) (h' : Adds [] q r) : Adds types p r :=
  List.append_nil types ▸ h.trans h'

/-- A stretch that follows one that leaves the flag of the runtime as it is. -/
theorem trans_whenEmitting (h : Adds (rt.whenEmitting types) (ctx, rt) q)
    (h' : Adds (q.2.whenEmitting types') q r) :
    Adds (rt.whenEmitting (types ++ types')) (ctx, rt) r := by
  rw [whenEmitting_congr h.emitEvents] at h'
  exact whenEmitting_append ▸ h.trans h'

theorem emit {payload : Payload} {type : EventType} (htype : payload.eventType = type)
    (hnamed : payload.namesSignal = true) : Adds [type] (ctx, rt) (rt.emit ctx payload).2 := by
  have hevents : (rt.emit ctx payload).2.1.events = ctx.events ++ [(rt.emit ctx payload).1] := rfl
  refine ⟨?_, ⟨[], (List.append_nil _).symm, List.forall_mem_nil _⟩, fun h => ?_, rfl, rfl⟩
  · rw [hevents, List.map_append, ← htype]
    rfl
  · rw [hevents]
    exact List.forall_mem_append.mpr ⟨h, List.forall_mem_singleton.mpr hnamed⟩

theorem emitCause {payload : Payload} {type : EventType} (htype : payload.eventType = type)
    (hnamed : payload.namesSignal = true) : Adds [type] (ctx, rt) (rt.emitCause ctx payload) := by
  obtain ⟨hown, hbar, hall, hemits, hsetting⟩ := @emit rt ctx payload type htype hnamed
  exact ⟨hown, hbar, hall, hemits, hsetting⟩

theorem emitIf {payload : Payload} {type : EventType} (htype : payload.eventType = type)
    (hnamed : payload.namesSignal = true) :
    Adds (rt.whenEmitting [type]) (ctx, rt) (rt.emitIf ctx payload) := by
  unfold PlatformRuntime.emitIf whenEmitting
  split
  · exact emit htype hnamed
  · exact refl _

theorem emitCandleReceived :
    Adds (rt.whenEmitting [.candleReceived]) (ctx, rt) (rt.emitCandleReceived ctx) := by
  unfold PlatformRuntime.emitCandleReceived whenEmitting
  split
  · exact emitCause rfl rfl
  · exact refl _

theorem buildFeatures {collaborators : Collaborators} {built : FeatureSet × MarketContext}
    (h : rt.buildFeatures ctx collaborators = .ok (built, ctx', rt')) :
    Adds (rt.whenEmitting [.featureSetBuilt, .marketContextDerived]) (ctx, rt) (ctx', rt') := by
  obtain ⟨⟨featureSet, context⟩, _, h⟩ := Except.bind_eq_ok.mp h
  obtain ⟨_, _, h⟩ := Except.bind_eq_ok.mp h
  obtain ⟨_, hemit⟩ := Prod.mk.inj (Except.ok.inj h)
  rw [← hemit, emitFeatures, whenEmitting]
  split
  · have hfeatures : Adds [.featureSetBuilt] (ctx, rt) (rt.emitCause ctx (.featureSetBuilt
        featureSet.featureSetId featureSet.featureVersion featureSet.configHash
        featureSet.indicators featureSet.flags)) := emitCause rfl rfl
    exact hfeatures.trans (emitCause rfl rfl)
  · exact refl _

theorem collectProviderSignals {featureSet : FeatureSet} {context : MarketContext}
    {providers : List SignalProvider} {signals : List StrategySignal}
    (h : rt.collectProviderSignals ctx featureSet context providers = .ok (signals, ctx', rt')) :
    Adds (rt.whenEmitting (providers.map opinionType)) (ctx, rt) (ctx', rt') := by
  induction providers generalizing ctx rt signals with
  | nil =>
    cases h
    rw [List.map_nil, whenEmitting, ite_self]
    exact refl _
  | cons provider rest ih =>
    unfold PlatformRuntime.collectProviderSignals at h
    split at h
    · next hdisabled =>
      have hskip : Adds (rt.whenEmitting [opinionType provider]) (ctx, rt)
          (rt.emitIf ctx (.providerSkipped provider.providerId "disabled")) := by
        rw [opinionType, if_neg hdisabled]
        exact emitIf rfl rfl
      exact hskip.trans_whenEmitting (ih h)
    · next henabled =>
      obtain ⟨signal, _, h⟩ := Except.bind_eq_ok.mp h
      obtain ⟨⟨signals', ctx₂, rt₂⟩, hrest, h⟩ := Except.bind_eq_ok.mp h
      cases h
      have hopinion : Adds (rt.whenEmitting [opinionType provider]) (ctx, rt)
          (rt.emitIf ctx (.providerOpinion provider.providerId signal.side signal.confidence
            signal.rationale)) := by
        rw [opinionType, if_pos (not_not.mp henabled)]
        exact emitIf rfl rfl
      exact hopinion.trans_whenEmitting (ih hrest)

theorem maybeResetDailyRisk (eventTime : ℤ) (cycleId : CorrelationId) :
    Adds [] (ctx, rt) (ctx, rt.maybeResetDailyRisk eventTime cycleId) := by
  rcases maybeResetDailyRisk_cases rt eventTime cycleId with h | h | h <;> rw [h]
  · exact refl _
  · exact quiet rfl rfl rfl
  · exact quiet rfl rfl rfl

theorem markToMarket : Adds [] (ctx, rt) (ctx, rt.markToMarket ctx') := by
  rcases markToMarket_cases rt ctx' with h | h <;> rw [h]
  · exact refl _
  · exact quiet rfl rfl rfl

theorem countApproved {decision : Decision} {snapshot : StateSnapshot}
    (h : Adds types p (ctx, rt)) :
    Adds types p (ctx, rt.countApproved ctx' decision snapshot) := by
  unfold PlatformRuntime.countApproved
  split
  · exact h.trans_nil (quiet rfl rfl rfl)
  · exact h

theorem emitDecision {decision : Decision} {snapshot : StateSnapshot}
    (hsignal : decision.isApproved = true → ∃ signal, decision.finalSignal = some signal) :
    Adds (decisionTypes decision) (ctx, rt) (rt.emitDecision ctx decision snapshot) := by
  let made := rt.emitCause ctx (.decisionMade decision.decisionId decision.result.value
    snapshot.snapshotId decision.decisionLog)
  have hmade : Adds [.decisionMade] (ctx, rt) made := emitCause rfl rfl
  let outcome := made.2.emitCause made.1 (outcomePayload decision snapshot)
  have houtcome (hnamed : (outcomePayload decision snapshot).namesSignal = true) :
      Adds [.decisionMade, (outcomePayload decision snapshot).eventType] (ctx, rt) outcome :=
    hmade.trans (emitCause rfl hnamed)
  cases happroved' : decision.isApproved with
  | false =>
    have hrejected : (outcomePayload decision snapshot).eventType = .decisionRejected := by
      unfold outcomePayload
      cases hresult : decision.result with
      | approved =>
        rw [Decision.isApproved, hresult] at happroved'
        cases happroved'
      | rejected => rfl
    have hboth := houtcome (Payload.namesSignal_of_ne (by rw [hrejected]; decide))
    rw [hrejected] at hboth
    simp only [PlatformRuntime.emitDecision, decisionTypes, happroved']
    exact hboth
  | true =>
    obtain ⟨signal, hsignal⟩ := hsignal happroved'
    have hresult : decision.result = .approved := beq_iff_eq.mp happroved'
    have happroved : (outcomePayload decision snapshot).eventType = .decisionApproved := by
      rw [outcomePayload, hresult]
      rfl
    have hboth := houtcome (by rw [outcomePayload, hresult, hsignal]; rfl)
    rw [happroved] at hboth
    have hpublished : Adds [.signalPublished] outcome
        (outcome.2.emit outcome.1 (.signalPublished decision.decisionId signal)).2 := emit rfl rfl
    have hall := hboth.trans hpublished
    simp only [PlatformRuntime.emitDecision, decisionTypes, happroved', hsignal]
    exact hall

theorem decide {signals : List StrategySignal} {context : MarketContext}
    {snapshot : StateSnapshot} {decision : Decision}
    (h : rt.decide ctx signals context snapshot = .ok (decision, ctx', rt')) :
    Adds (rt.whenEmitting (decisionTypes decision)) (ctx, rt) (ctx', rt') := by
  let process := rt.decisionEngine.process signals context snapshot (decisionCtx ctx)
  obtain ⟨decision', hmade, h⟩ := Except.bind_eq_ok (x := (rt.draw process).1).mp h
  have hdrawn : Adds [] (ctx, rt) (ctx, (rt.draw process).2) := quiet rfl rfl rfl
  have hevents : Adds (rt.whenEmitting (decisionTypes decision')) (ctx, (rt.draw process).2)
      (if (rt.draw process).2.emitEvents then
        (rt.draw process).2.emitDecision ctx decision' snapshot
        else (ctx, (rt.draw process).2)) := by
    change Adds ((rt.draw process).2.whenEmitting (decisionTypes decision')) _ _
    unfold whenEmitting
    split
    · exact emitDecision (EngineConfig.exists_finalSignal hmade)
    · exact refl _
  have hall := hdrawn.trans hevents
  cases h
  exact hall.countApproved

/-! ## The passes over the bar -/

theorem evaluate {engine : SimulatedExecutionEngine} (hengine : rt.executionEngine = some engine)
    {snapshot : StateSnapshot} {approvedSide : Option Side} {incrementBars : Bool} {u : ℕ} :
    let pass := engine.evaluateBar ctx.bar snapshot (executionCtx engine ctx ctx.eventTime)
      approvedSide incrementBars u
    Adds [] (ctx, rt) (takeOver (ctx, rt) pass.1 pass.2) := by
  intro pass
  have hqueue : pass.1.engine.emitEvents = engine.emitEvents ∧
      pass.1.engine.config = engine.config := by
    cases incrementBars with
    | true =>
      obtain ⟨_, _, _, _, _, _, hqueue⟩ := SimulatedExecutionEngine.evaluateBar_spec ctx.bar
        (executionCtx engine ctx ctx.eventTime) engine snapshot approvedSide u
      exact ⟨hqueue.emitEvents, hqueue.config⟩
    | false =>
      obtain ⟨_, hqueue⟩ := SimulatedExecutionEngine.evaluateBar_exit_spec ctx.bar
        (executionCtx engine ctx ctx.eventTime) engine snapshot approvedSide u
      exact ⟨hqueue.emitEvents, hqueue.config⟩
  refine ⟨(List.append_nil _).symm, ⟨pass.1.events, rfl, fun e he => ?_⟩, id,
    (published_applyTransitions _ _).2, ?_⟩
  · exact (SimulatedExecutionEngine.builtFor_evaluateBar _ _ _).eventType he
  · change ((PlatformRuntime.applyTransitions _ pass.1.transitions).executionEngine).map _ =
      rt.executionEngine.map _
    rw [executionEngine_applyTransitions, hengine]
    simp only [Option.map_some, hqueue.1, hqueue.2]

theorem preDecisionEvaluate : Adds [] (ctx, rt) (rt.preDecisionEvaluate ctx) := by
  cases hengine : rt.executionEngine with
  | none =>
    rw [preDecisionEvaluate_none hengine]
    exact refl _
  | some engine =>
    have hpass := @evaluate rt ctx engine hengine (rt.snapshot ctx.cycleId).1 none true
      (rt.uuid + 1)
    unfold PlatformRuntime.preDecisionEvaluate
    rw [hengine]
    exact hpass

theorem sameBarExit {engine : SimulatedExecutionEngine} {signal : Option FinalSignal}
    (hengine : rt.executionEngine = some engine) :
    Adds [] (ctx, rt) (rt.sameBarExit ctx engine signal) := by
  cases hopen : rt.stateStore.portfolio.openPositions with
  | nil =>
    simp only [PlatformRuntime.sameBarExit, hopen]
    exact refl _
  | cons position rest =>
    cases signal with
    | none =>
      simp only [PlatformRuntime.sameBarExit, hopen]
      exact refl _
    | some signal =>
      have hpass := @evaluate rt ctx engine hengine (rt.snapshot ctx.cycleId).1 (some signal.side)
        false (rt.uuid + 1)
      simp only [PlatformRuntime.sameBarExit, hopen]
      exact hpass

end Adds

/-! ## The order -/

/-- What the order of a cycle adds to the events. -/
inductive Orders (rt : PlatformRuntime) (decision : Decision) : List EventEnvelope → Prop
  | idle (h : decision.isApproved = false ∨ rt.executionEngine = none) : Orders rt decision []
  | executed {engine : SimulatedExecutionEngine} {snapshot : StateSnapshot} {c : EventCtx}
      {events : List EventEnvelope} (happroved : decision.isApproved = true)
      (hsetting : rt.engineSetting = some (engine.emitEvents, engine.config.longOnly))
      (h : engine.OrderEvents decision snapshot c events) : Orders rt decision events

theorem executeDecision_orders {engine : SimulatedExecutionEngine} {decision : Decision}
    (happroved : decision.isApproved = true)
    (hsetting : rt.engineSetting = some (engine.emitEvents, engine.config.longOnly))
    {last : PlatformRuntime} (h : rt'.executeDecision ctx engine decision = (.ok ctx', last)) :
    ∃ orders, Orders rt decision orders ∧ ctx'.events = ctx.events ∧
      ctx'.executionEvents = ctx.executionEvents ++ orders := by
  let snapshot := rt'.snapshot ctx.cycleId
  have hsnapshot : rt'.snapshot ctx.cycleId = (snapshot.1, snapshot.2) := rfl
  cases hexecute : engine.execute decision snapshot.1 ctx.bar
      (executionCtx engine ctx decision.eventTime) snapshot.2.uuid with
  | mk outcome u' =>
  unfold executeDecision at h
  simp only [hsnapshot, draw_eq snapshot.2 hexecute] at h
  cases outcome with
  | error e => cases h
  | ok pass =>
    cases h
    exact ⟨pass.events, .executed happroved hsetting
      (SimulatedExecutionEngine.orderEvents_execute hexecute), rfl, rfl⟩

theorem sameBarExitAndExecute_orders {decision : Decision}
    (h : rt.sameBarExitAndExecute ctx decision = (.ok ctx', rt')) :
    ∃ exits orders, Orders rt decision orders ∧
      ctx'.events.map (·.eventType) = ctx.events.map (·.eventType) ∧
      ((∀ e ∈ ctx.events, e.payload.namesSignal = true) →
        ∀ e ∈ ctx'.events, e.payload.namesSignal = true) ∧
      ctx'.executionEvents = ctx.executionEvents ++ (exits ++ orders) ∧
      ∀ e ∈ exits, e.eventType ∈ SimulatedExecutionEngine.barTypes := by
  cases hengine : rt.executionEngine with
  | none =>
    rw [sameBarExitAndExecute_idle (.inr hengine)] at h
    cases h
    exact ⟨[], [], .idle (.inr hengine), rfl, id, (List.append_nil _).symm,
      List.forall_mem_nil _⟩
  | some engine =>
    cases happroved : decision.isApproved with
    | false =>
      rw [sameBarExitAndExecute_idle (.inl happroved)] at h
      cases h
      exact ⟨[], [], .idle (.inl happroved), rfl, id, (List.append_nil _).symm,
        List.forall_mem_nil _⟩
    | true =>
      obtain ⟨engine', hengine', heq⟩ := sameBarExitAndExecute_eq ctx happroved hengine
      rw [heq] at h
      obtain ⟨hown, ⟨exits, hexits, hbar⟩, hnamed, -, hsetting⟩ :=
        @Adds.sameBarExit rt ctx engine decision.finalSignal hengine
      have hsetting' : rt.engineSetting = some (engine'.emitEvents, engine'.config.longOnly) := by
        rw [← hsetting]
        change ((rt.sameBarExit ctx engine decision.finalSignal).2.executionEngine).map _ = _
        rw [hengine']
        rfl
      obtain ⟨orders, horders, hevents, hexecution⟩ :=
        executeDecision_orders happroved hsetting' h
      refine ⟨exits, orders, horders, ?_, fun h => ?_, ?_, hbar⟩
      · rw [hevents, hown, List.append_nil]
      · rw [hevents]
        exact hnamed h
      · rw [hexecution, hexits, List.append_assoc]

/-! ## The times of a cycle -/

/-- All that a cycle has collected is of its processing time. -/
def SameProcessing (p : CycleCtx × PlatformRuntime) : Prop :=
  ∀ e ∈ p.1.events ++ p.1.executionEvents, e.processingTime = p.1.processingTime

theorem SameProcessing.emit (h : SameProcessing (ctx, rt)) (payload : Payload) :
    SameProcessing (rt.emit ctx payload).2 := by
  obtain ⟨hown, hexecution⟩ := List.forall_mem_append.mp h
  refine List.forall_mem_append.mpr ⟨List.forall_mem_append.mpr ⟨hown, ?_⟩, hexecution⟩
  exact List.forall_mem_singleton.mpr rfl

theorem SameProcessing.takeOver (h : SameProcessing (ctx, rt)) {pass : Pass} {c : EventCtx}
    {types : List EventType} (hbuilt : BuiltFor c types pass.events)
    (hc : c.processingTime = ctx.processingTime) (u : ℕ) :
    SameProcessing (takeOver (ctx, rt) pass u) := by
  obtain ⟨hown, hexecution⟩ := List.forall_mem_append.mp h
  refine List.forall_mem_append.mpr ⟨hown, List.forall_mem_append.mpr ⟨hexecution, ?_⟩⟩
  exact fun e he => (hbuilt.times he).2.trans hc

theorem sameProcessing_kept : KeptByCycle SameProcessing where
  emit _ h := h.emit _
  emitCause _ h := h.emit _
  draw _ h := h
  day h := h
  books _ h := h
  evaluate _ _ _ h := h.takeOver (SimulatedExecutionEngine.builtFor_evaluateBar _ _ _) rfl _
  execute _ _ _ hexecute h :=
    h.takeOver (SimulatedExecutionEngine.orderEvents_execute hexecute).builtFor rfl _

/-- All events of a cycle that returns have the same processing time. -/
theorem runCycle_processingTime {result : CycleResult}
    (hrun : rt.runCycle call = (.ok result, rt')) :
    ∃ t, ∀ e ∈ result.events, e.processingTime = t := by
  obtain ⟨ctx, last, hsame, hevents, -⟩ := sameProcessing_kept.runCycle (fun ctx rt₁ hprep => by
    obtain ⟨hown, hexecution, -⟩ := prepareBar_collected hprep
    rw [SameProcessing, hown, hexecution]
    exact List.forall_mem_nil _) hrun
  exact ⟨ctx.processingTime, hevents ▸ hsame⟩

/-! ## The whole cycle -/

/-- A cycle that returns has published its own events, then those of the passes over the bar, then
those of the order. -/
theorem runCycle_shape {result : CycleResult} (hrun : rt.runCycle call = (.ok result, rt')) :
    ∃ own bar orders, result.events = own ++ (bar ++ orders) ∧
      own.map (·.eventType) =
        rt.whenEmitting (cycleTypes call.collaborators.providers result.decision) ∧
      (∀ e ∈ own, e.payload.namesSignal = true) ∧
      (∀ e ∈ bar, e.eventType ∈ SimulatedExecutionEngine.barTypes) ∧
      ∃ rt₁, rt₁.engineSetting = rt.engineSetting ∧ Orders rt₁ result.decision orders := by
  obtain ⟨prepared, built, collected, decided, last, hsteps⟩ := runCycle_steps hrun
  obtain ⟨hnone, hnone', -, hsince⟩ := prepareBar_collected hsteps.prepare
  let pre := prepared.2.preDecisionEvaluate prepared.1
  let candle := pre.2.emitCandleReceived pre.1
  have hpre : Adds [] prepared pre := Adds.preDecisionEvaluate
  have hcandle : Adds (pre.2.whenEmitting [.candleReceived]) pre candle := Adds.emitCandleReceived
  have hbuilt := hcandle.trans_whenEmitting (Adds.buildFeatures hsteps.build)
  have hreset : Adds [] built
      (built.1, built.2.maybeResetDailyRisk built.1.eventTime built.1.cycleId) :=
    Adds.maybeResetDailyRisk _ _
  have hmarked : Adds [] built (built.1, marked built) := hreset.trans Adds.markToMarket
  have hsnapshot : Adds [] built (built.1, ((marked built).snapshot built.1.cycleId).2) :=
    hmarked.trans (.quiet rfl rfl rfl)
  have hcollected := (hbuilt.trans_nil hsnapshot).trans_whenEmitting
    (Adds.collectProviderSignals hsteps.collect)
  have hdecided := hpre.trans (hcollected.trans_whenEmitting (Adds.decide hsteps.decide))
  obtain ⟨hown, ⟨bar, hbar, htypes⟩, hnamed, -, hsetting⟩ := hdecided
  obtain ⟨exits, orders, horders, hlast, hnamed', hexecution, hexits⟩ :=
    sameBarExitAndExecute_orders hsteps.execute
  refine ⟨last.1.events, bar ++ exits, orders, ?_, ?_, hnamed' (hnamed ?_),
    List.forall_mem_append.mpr ⟨htypes, hexits⟩, decided.2, ?_, horders⟩
  · rw [hsteps.events, hexecution, hbar, hnone', List.nil_append, List.append_assoc]
  · rw [hlast, hown, hnone]
    exact whenEmitting_congr (hpre.emitEvents.trans hsince.emitEvents)
  · rw [hnone]
    exact List.forall_mem_nil _
  · have hengine : prepared.2.executionEngine = rt.executionEngine :=
      (prepareBar_ok hsteps.prepare).quiet.executionEngine
    rw [hsetting, engineSetting, engineSetting, hengine]

/-- In a cycle that returns an approved decision has a final signal. -/
theorem runCycle_finalSignal {result : CycleResult} (hrun : rt.runCycle call = (.ok result, rt'))
    (happroved : result.decision.isApproved = true) :
    ∃ signal, result.decision.finalSignal = some signal := by
  obtain ⟨prepared, built, collected, decided, last, hsteps⟩ := runCycle_steps hrun
  have hdecide := hsteps.decide
  let process := collected.2.decisionEngine.process result.signals result.context
    ((marked built).snapshot built.1.cycleId).1 (decisionCtx collected.1)
  obtain ⟨decision, hmade, hdecide⟩ :=
    Except.bind_eq_ok (x := (collected.2.draw process).1).mp hdecide
  obtain ⟨rfl, -⟩ := Prod.mk.inj (Except.ok.inj hdecide)
  exact EngineConfig.exists_finalSignal hmade happroved

end PlatformRuntime

end TradingPlatform
