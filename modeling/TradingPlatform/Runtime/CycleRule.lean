import TradingPlatform.Runtime.Collecting

/-!
# The rule of a cycle that returns

What every single thing a cycle does keeps, a cycle that returns has kept at its end: the events of
its own, each with the context it is built in, the identifiers it draws, the books it keeps, and the
passes of the runtime's engine on a snapshot of the runtime's store.
-/

namespace TradingPlatform

namespace PlatformRuntime

/-- The types of the events that the runtime builds itself. -/
def ownTypes : List EventType :=
  [.candleReceived, .featureSetBuilt, .marketContextDerived, .providerOpinion, .providerSkipped,
    .decisionMade, .decisionApproved, .decisionRejected, .signalPublished]

/-- The transitions that the runtime builds itself. -/
def bookkeeping : TransitionPayload → Bool
  | .riskUpdated _ | .markToMarket _ => true
  | _ => false

/-- A cycle with the events and the transitions of a pass taken over. -/
def takeOver (p : CycleCtx × PlatformRuntime) (pass : Pass) (uuid : ℕ) :
    CycleCtx × PlatformRuntime :=
  ({ p.1 with executionEvents := p.1.executionEvents ++ pass.events },
    { p.2 with uuid, executionEngine := some pass.engine }.applyTransitions pass.transitions)

/-- The state a cycle takes its decision snapshot in. -/
def marked (p : CycleCtx × PlatformRuntime) : PlatformRuntime :=
  (p.2.maybeResetDailyRisk p.1.eventTime p.1.cycleId).markToMarket p.1

/-- The phases of a cycle that returns, each with the context and the runtime it leaves. -/
structure CycleSteps (rt : PlatformRuntime) (call : CycleCall) (result : CycleResult)
    (rt' : PlatformRuntime) (prepared built collected decided last : CycleCtx × PlatformRuntime) :
    Prop where
  prepare : rt.prepareBar call = .ok prepared
  build :
    let pre := prepared.2.preDecisionEvaluate prepared.1
    let candle := pre.2.emitCandleReceived pre.1
    candle.2.buildFeatures candle.1 call.collaborators =
      .ok ((result.featureSet, result.context), built)
  collect : ((marked built).snapshot built.1.cycleId).2.collectProviderSignals built.1
    result.featureSet result.context call.collaborators.providers = .ok (result.signals, collected)
  decide : collected.2.decide collected.1 result.signals result.context
    ((marked built).snapshot built.1.cycleId).1 = .ok (result.decision, decided)
  execute : decided.2.sameBarExitAndExecute decided.1 result.decision = (.ok last.1, last.2)
  events : result.events = last.1.events ++ last.1.executionEvents
  published : rt' = { last.2 with published := last.2.published ++ result.events }

theorem runCycle_steps {rt rt' : PlatformRuntime} {call : CycleCall} {result : CycleResult}
    (hrun : rt.runCycle call = (.ok result, rt')) : ∃ prepared built collected decided last,
      CycleSteps rt call result rt' prepared built collected decided last := by
  unfold PlatformRuntime.runCycle PlatformRuntime.runToPublish at hrun
  cases hprepare : rt.prepareBar call with
  | error e =>
    simp only [runToDecision, runToSnapshot, hprepare] at hrun
    cases hrun
  | ok prepared =>
  let pre := prepared.2.preDecisionEvaluate prepared.1
  let candle := pre.2.emitCandleReceived pre.1
  have hcandle : prepared.2.preDecisionEvaluate prepared.1 = pre ∧
      pre.2.emitCandleReceived pre.1 = candle := ⟨rfl, rfl⟩
  cases hbuild : candle.2.buildFeatures candle.1 call.collaborators with
  | error e =>
    simp only [runToDecision, runToSnapshot, hprepare, hcandle, hbuild] at hrun
    cases hrun
  | ok features =>
  obtain ⟨⟨featureSet, context⟩, built⟩ := features
  let snapshot := (marked built).snapshot built.1.cycleId
  have htake : built.2.takeSnapshot built.1 featureSet context =
      ({ ctx := built.1, featureSet, context, snapshot := snapshot.1 }, snapshot.2) := rfl
  cases hcollect : snapshot.2.collectProviderSignals built.1 featureSet context
      call.collaborators.providers with
  | error e =>
    simp only [runToDecision, runToSnapshot, hprepare, hcandle, hbuild, htake, hcollect] at hrun
    cases hrun
  | ok opinions =>
  obtain ⟨signals, collected⟩ := opinions
  cases hdecide : collected.2.decide collected.1 signals context snapshot.1 with
  | error e =>
    simp only [runToDecision, runToSnapshot, hprepare, hcandle, hbuild, htake, hcollect,
      hdecide] at hrun
    cases hrun
  | ok made =>
  obtain ⟨decision, decided⟩ := made
  cases hexecute : decided.2.sameBarExitAndExecute decided.1 decision with
  | mk outcome rt₅ =>
  simp only [runToDecision, runToSnapshot, hprepare, hcandle, hbuild, htake, hcollect,
    hdecide, hexecute] at hrun
  cases outcome with
  | error e => cases hrun
  | ok ctx₅ =>
    cases hrun
    exact ⟨prepared, built, collected, decided, (ctx₅, rt₅), hprepare, hbuild, hcollect, hdecide,
      hexecute, rfl, rfl⟩

/-- Everything a cycle does keeps `I`. -/
structure KeptByCycle (I : CycleCtx × PlatformRuntime → Prop) : Prop where
  emit : ∀ {ctx : CycleCtx} {rt : PlatformRuntime} {payload : Payload},
    payload.eventType ∈ ownTypes → I (ctx, rt) → I (rt.emit ctx payload).2
  emitCause : ∀ {ctx : CycleCtx} {rt : PlatformRuntime} {payload : Payload},
    payload.eventType ∈ ownTypes → I (ctx, rt) → I (rt.emitCause ctx payload)
  draw : ∀ {ctx : CycleCtx} {rt : PlatformRuntime} {uuid : ℕ}, rt.uuid ≤ uuid → I (ctx, rt) →
    I (ctx, { rt with uuid })
  day : ∀ {ctx : CycleCtx} {rt : PlatformRuntime} {signalsDay : Option ℤ}, I (ctx, rt) →
    I (ctx, { rt with signalsDay })
  books : ∀ {ctx : CycleCtx} {rt : PlatformRuntime} {payload : TransitionPayload} {eventTime : ℤ}
    {correlationId : CorrelationId}, bookkeeping payload = true → I (ctx, rt) →
    I (ctx, rt.applyNew payload eventTime correlationId)
  evaluate : ∀ {ctx : CycleCtx} {rt : PlatformRuntime} {engine : SimulatedExecutionEngine}
    {snapshot : StateSnapshot} {approvedSide : Option Side} {incrementBars : Bool} {u : ℕ},
    rt.executionEngine = some engine → snapshot.portfolio = rt.stateStore.portfolio →
    rt.uuid ≤ u → I (ctx, rt) →
    let pass := engine.evaluateBar ctx.bar snapshot (executionCtx engine ctx ctx.eventTime)
      approvedSide incrementBars u
    I (takeOver (ctx, rt) pass.1 pass.2)
  execute : ∀ {ctx : CycleCtx} {rt : PlatformRuntime} {engine : SimulatedExecutionEngine}
    {decision : Decision} {snapshot : StateSnapshot} {u u' : ℕ} {pass : Pass},
    rt.executionEngine = some engine → snapshot.portfolio = rt.stateStore.portfolio →
    rt.uuid ≤ u → engine.execute decision snapshot ctx.bar
      (executionCtx engine ctx decision.eventTime) u = (.ok pass, u') → I (ctx, rt) →
    I (takeOver (ctx, rt) pass u')

namespace KeptByCycle

variable {I : CycleCtx × PlatformRuntime → Prop} {rt rt' : PlatformRuntime} {ctx ctx' : CycleCtx}
  {call : CycleCall}

theorem emitIf {payload : Payload} (hI : KeptByCycle I) (hown : payload.eventType ∈ ownTypes)
    (h : I (ctx, rt)) : I (rt.emitIf ctx payload) := by
  unfold PlatformRuntime.emitIf
  split
  · exact hI.emit hown h
  · exact h

theorem emitCandleReceived (hI : KeptByCycle I) (h : I (ctx, rt)) :
    I (rt.emitCandleReceived ctx) := by
  unfold PlatformRuntime.emitCandleReceived
  split
  · exact hI.emitCause (by simp [ownTypes, Payload.eventType]) h
  · exact h

theorem buildFeatures {collaborators : Collaborators} {built : FeatureSet × MarketContext}
    (hI : KeptByCycle I) (hbuild : rt.buildFeatures ctx collaborators = .ok (built, ctx', rt'))
    (h : I (ctx, rt)) : I (ctx', rt') := by
  obtain ⟨⟨featureSet, context⟩, _, hbuild⟩ := Except.bind_eq_ok.mp hbuild
  obtain ⟨_, _, hbuild⟩ := Except.bind_eq_ok.mp hbuild
  obtain ⟨_, hemit⟩ := Prod.mk.inj (Except.ok.inj hbuild)
  rw [← hemit, emitFeatures]
  split
  · have hfeatures : I (rt.emitCause ctx (.featureSetBuilt featureSet.featureSetId
        featureSet.featureVersion featureSet.configHash featureSet.indicators
        featureSet.flags)) := hI.emitCause (by simp [ownTypes, Payload.eventType]) h
    exact hI.emitCause (by simp [ownTypes, Payload.eventType]) hfeatures
  · exact h

theorem collectProviderSignals {featureSet : FeatureSet} {context : MarketContext}
    {providers : List SignalProvider} {signals : List StrategySignal} (hI : KeptByCycle I)
    (hcollect : rt.collectProviderSignals ctx featureSet context providers =
      .ok (signals, ctx', rt')) (h : I (ctx, rt)) : I (ctx', rt') := by
  induction providers generalizing ctx rt signals with
  | nil =>
    cases hcollect
    exact h
  | cons provider rest ih =>
    unfold PlatformRuntime.collectProviderSignals at hcollect
    split at hcollect
    · exact ih hcollect (hI.emitIf (by simp [ownTypes, Payload.eventType]) h)
    · obtain ⟨signal, _, hcollect⟩ := Except.bind_eq_ok.mp hcollect
      obtain ⟨⟨signals', ctx₂, rt₂⟩, hrest, hcollect⟩ := Except.bind_eq_ok.mp hcollect
      cases hcollect
      exact ih hrest (hI.emitIf (by simp [ownTypes, Payload.eventType]) h)

theorem maybeResetDailyRisk {eventTime : ℤ} {cycleId : CorrelationId} (hI : KeptByCycle I)
    (h : I (ctx, rt)) : I (ctx, rt.maybeResetDailyRisk eventTime cycleId) := by
  rcases maybeResetDailyRisk_cases rt eventTime cycleId with heq | heq | heq <;> rw [heq]
  · exact h
  · exact hI.day h
  · exact hI.books rfl (hI.day h)

theorem markToMarket (hI : KeptByCycle I) (h : I (ctx, rt)) : I (ctx, rt.markToMarket ctx') := by
  rcases markToMarket_cases rt ctx' with heq | heq <;> rw [heq]
  · exact h
  · exact hI.books rfl h

theorem outcomePayload_own (decision : Decision) (snapshot : StateSnapshot) :
    (outcomePayload decision snapshot).eventType ∈ ownTypes := by
  unfold outcomePayload
  cases decision.result <;> simp [ownTypes, Payload.eventType]

theorem countApproved {decision : Decision} {snapshot : StateSnapshot} (hI : KeptByCycle I)
    (h : I (ctx, rt)) : I (ctx, rt.countApproved ctx' decision snapshot) := by
  unfold PlatformRuntime.countApproved
  split
  · exact hI.books rfl h
  · exact h

theorem decide {signals : List StrategySignal} {context : MarketContext}
    {snapshot : StateSnapshot} {decision : Decision} (hI : KeptByCycle I)
    (hdecide : rt.decide ctx signals context snapshot = .ok (decision, ctx', rt'))
    (h : I (ctx, rt)) : I (ctx', rt') := by
  let process := rt.decisionEngine.process signals context snapshot (decisionCtx ctx)
  obtain ⟨hle, _⟩ := EngineConfig.process_spec rt.decisionEngine signals context snapshot
    (decisionCtx ctx) rt.uuid
  have hdrawn : I (ctx, (rt.draw process).2) := hI.draw hle h
  obtain ⟨decision', _, hdecide⟩ := Except.bind_eq_ok (x := (rt.draw process).1).mp hdecide
  have hevents : I (if (rt.draw process).2.emitEvents then
      (rt.draw process).2.emitDecision ctx decision' snapshot
      else (ctx, (rt.draw process).2)) := by
    split
    · have hmade : I ((rt.draw process).2.emitCause ctx (.decisionMade decision'.decisionId
          decision'.result.value snapshot.snapshotId decision'.decisionLog)) :=
        hI.emitCause (by simp [ownTypes, Payload.eventType]) hdrawn
      have houtcome := hI.emitCause (outcomePayload_own decision' snapshot) hmade
      simp only [emitDecision]
      split
      · exact hI.emit (by simp [ownTypes, Payload.eventType]) houtcome
      · exact houtcome
    · exact hdrawn
  cases hdecide
  exact hI.countApproved hevents

theorem preDecisionEvaluate (hI : KeptByCycle I) (h : I (ctx, rt)) :
    I (rt.preDecisionEvaluate ctx) := by
  cases hengine : rt.executionEngine with
  | none => rwa [preDecisionEvaluate_none hengine]
  | some engine =>
    let snapshot := (rt.snapshot ctx.cycleId).1
    let pass := engine.evaluateBar ctx.bar snapshot (executionCtx engine ctx ctx.eventTime) none
      true (rt.uuid + 1)
    have hpass : I (takeOver (ctx, rt) pass.1 pass.2) :=
      hI.evaluate hengine rfl (Nat.le_add_right rt.uuid 1) h
    unfold PlatformRuntime.preDecisionEvaluate
    rw [hengine]
    exact hpass

theorem sameBarExit {engine : SimulatedExecutionEngine} {signal : Option FinalSignal}
    (hI : KeptByCycle I) (hengine : rt.executionEngine = some engine) (h : I (ctx, rt)) :
    I (rt.sameBarExit ctx engine signal) := by
  cases hopen : rt.stateStore.portfolio.openPositions with
  | nil =>
    simp only [PlatformRuntime.sameBarExit, hopen]
    exact h
  | cons position rest =>
    cases signal with
    | none =>
      simp only [PlatformRuntime.sameBarExit, hopen]
      exact h
    | some signal =>
      let snapshot := (rt.snapshot ctx.cycleId).1
      let pass := engine.evaluateBar ctx.bar snapshot (executionCtx engine ctx ctx.eventTime)
        (some signal.side) false (rt.uuid + 1)
      have hpass : I (takeOver (ctx, rt) pass.1 pass.2) :=
        hI.evaluate hengine rfl (Nat.le_add_right rt.uuid 1) h
      simp only [PlatformRuntime.sameBarExit, hopen]
      exact hpass

theorem executeDecision {engine : SimulatedExecutionEngine} {decision : Decision}
    (hI : KeptByCycle I) (hengine : rt.executionEngine = some engine)
    (hexecute : rt.executeDecision ctx engine decision = (.ok ctx', rt')) (h : I (ctx, rt)) :
    I (ctx', rt') := by
  let snapshot := rt.snapshot ctx.cycleId
  have hsnapshot : rt.snapshot ctx.cycleId = (snapshot.1, snapshot.2) := rfl
  cases hrun : engine.execute decision snapshot.1 ctx.bar
      (executionCtx engine ctx decision.eventTime) snapshot.2.uuid with
  | mk outcome u' =>
  unfold PlatformRuntime.executeDecision at hexecute
  simp only [hsnapshot, draw_eq snapshot.2 hrun] at hexecute
  cases outcome with
  | error e => cases hexecute
  | ok pass =>
    cases hexecute
    have hpass : I (takeOver (ctx, rt) pass u') :=
      hI.execute hengine rfl (Nat.le_add_right rt.uuid 1) hrun h
    exact hpass

theorem sameBarExitAndExecute {decision : Decision} (hI : KeptByCycle I)
    (hexecute : rt.sameBarExitAndExecute ctx decision = (.ok ctx', rt')) (h : I (ctx, rt)) :
    I (ctx', rt') := by
  cases hengine : rt.executionEngine with
  | none =>
    rw [sameBarExitAndExecute_idle (.inr hengine)] at hexecute
    cases hexecute
    exact h
  | some engine =>
    cases happroved : decision.isApproved with
    | false =>
      rw [sameBarExitAndExecute_idle (.inl happroved)] at hexecute
      cases hexecute
      exact h
    | true =>
      obtain ⟨engine', hengine', heq⟩ := sameBarExitAndExecute_eq ctx happroved hengine
      rw [heq] at hexecute
      exact hI.executeDecision hengine' hexecute (hI.sameBarExit hengine h)

section Steps

variable {result : CycleResult} {prepared built collected decided last : CycleCtx × PlatformRuntime}

theorem toBuilt (hI : KeptByCycle I)
    (hsteps : CycleSteps rt call result rt' prepared built collected decided last)
    (h : I prepared) : I built :=
  hI.buildFeatures hsteps.build (hI.emitCandleReceived (hI.preDecisionEvaluate h))

theorem toLast (hI : KeptByCycle I)
    (hsteps : CycleSteps rt call result rt' prepared built collected decided last)
    (h : I built) : I last := by
  have hmarked : I (built.1, marked built) := hI.markToMarket (hI.maybeResetDailyRisk h)
  have hsnapshot : I (built.1, ((marked built).snapshot built.1.cycleId).2) :=
    hI.draw (Nat.le_add_right _ 1) hmarked
  have hdecided : I decided :=
    hI.decide hsteps.decide (hI.collectProviderSignals hsteps.collect hsnapshot)
  exact hI.sameBarExitAndExecute hsteps.execute hdecided

end Steps

/-- What holds when the bar is prepared holds at the end of a cycle that returns; the runtime then
publishes the events collected, those of the engine last. -/
theorem runCycle {result : CycleResult} (hI : KeptByCycle I)
    (hstart : ∀ ctx rt₁, rt.prepareBar call = .ok (ctx, rt₁) → I (ctx, rt₁))
    (hrun : rt.runCycle call = (.ok result, rt')) : ∃ ctx last, I (ctx, last) ∧
      result.events = ctx.events ++ ctx.executionEvents ∧
      rt' = { last with published := last.published ++ result.events } := by
  obtain ⟨prepared, built, collected, decided, last, hsteps⟩ := runCycle_steps hrun
  have hlast := hI.toLast hsteps (hI.toBuilt hsteps (hstart _ _ hsteps.prepare))
  exact ⟨last.1, last.2, hlast, hsteps.events, hsteps.published⟩

end KeptByCycle

end PlatformRuntime

end TradingPlatform
