import TradingPlatform.Runtime.CycleRule
import TradingPlatform.Runtime.FailedCycles

/-!
# The features that a cycle publishes

A cycle builds its features once, from the frame of its bar, and publishes them in one kind of event
only. What follows the build adds events of other kinds.
-/

namespace TradingPlatform

/-- The payload of the event of a feature set. -/
def FeatureSet.payload (featureSet : FeatureSet) : Payload :=
  .featureSetBuilt featureSet.featureSetId featureSet.featureVersion featureSet.configHash
    featureSet.indicators featureSet.flags

/-- The event is that of the feature set, built on the bar of the cycle. -/
structure EventEnvelope.Presents (ctx : CycleCtx) (featureSet : FeatureSet) (e : EventEnvelope) :
    Prop where
  payload : e.payload = featureSet.payload
  symbol : e.symbol = ctx.symbol
  timeframe : e.timeframe = ctx.timeframe
  eventTime : e.eventTime = ctx.eventTime

theorem EventEnvelope.Presents.congr {ctx ctx' : CycleCtx} {featureSet : FeatureSet}
    {e : EventEnvelope} (h : e.Presents ctx' featureSet)
    (hsame : PlatformRuntime.SameCycle ctx ctx') : e.Presents ctx featureSet where
  payload := h.payload
  symbol := h.symbol.trans hsame.symbol
  timeframe := h.timeframe.trans hsame.timeframe
  eventTime := h.eventTime.trans hsame.eventTime

namespace PlatformRuntime

variable {rt rt' : PlatformRuntime} {ctx ctx' : CycleCtx} {call : CycleCall} {payload : Payload}
  {Q : EventEnvelope → Prop}

/-- `Q` holds of what the cycle has collected of its own. -/
def AllOwn (Q : EventEnvelope → Prop) (p : CycleCtx × PlatformRuntime) : Prop :=
  ∀ e ∈ p.1.events, Q e

/-- What holds of every event of another kind. -/
def OfOthers (Q : EventEnvelope → Prop) : Prop := ∀ e, e.eventType ≠ .featureSetBuilt → Q e

namespace AllOwn

theorem emit (hQ : OfOthers Q) (hpayload : payload.eventType ≠ .featureSetBuilt)
    (h : AllOwn Q (ctx, rt)) : AllOwn Q (rt.emit ctx payload).2 := by
  intro e he
  rcases List.mem_append.mp he with he | he
  · exact h e he
  · rw [List.mem_singleton.mp he]
    exact hQ _ hpayload

theorem emitCause (hQ : OfOthers Q) (hpayload : payload.eventType ≠ .featureSetBuilt)
    (h : AllOwn Q (ctx, rt)) : AllOwn Q (rt.emitCause ctx payload) := emit hQ hpayload h

theorem emitIf (hQ : OfOthers Q) (hpayload : payload.eventType ≠ .featureSetBuilt)
    (h : AllOwn Q (ctx, rt)) : AllOwn Q (rt.emitIf ctx payload) := by
  unfold PlatformRuntime.emitIf
  split
  · exact h.emit hQ hpayload
  · exact h

theorem emitCandleReceived (hQ : OfOthers Q) (h : AllOwn Q (ctx, rt)) :
    AllOwn Q (rt.emitCandleReceived ctx) := by
  unfold PlatformRuntime.emitCandleReceived
  split
  · exact h.emitCause hQ (by simp [Payload.eventType])
  · exact h

theorem collectProviderSignals {featureSet : FeatureSet} {context : MarketContext}
    {providers : List SignalProvider} {signals : List StrategySignal} (hQ : OfOthers Q)
    (hcollect : rt.collectProviderSignals ctx featureSet context providers =
      .ok (signals, ctx', rt')) (h : AllOwn Q (ctx, rt)) : AllOwn Q (ctx', rt') := by
  induction providers generalizing ctx rt signals with
  | nil =>
    cases hcollect
    exact h
  | cons provider rest ih =>
    unfold PlatformRuntime.collectProviderSignals at hcollect
    split at hcollect
    · exact ih hcollect (h.emitIf hQ (by simp [Payload.eventType]))
    · obtain ⟨signal, _, hcollect⟩ := Except.bind_eq_ok.mp hcollect
      obtain ⟨⟨signals', ctx₂, rt₂⟩, hrest, hcollect⟩ := Except.bind_eq_ok.mp hcollect
      cases hcollect
      exact ih hrest (h.emitIf hQ (by simp [Payload.eventType]))

theorem outcomePayload_ne (decision : Decision) (snapshot : StateSnapshot) :
    (outcomePayload decision snapshot).eventType ≠ .featureSetBuilt := by
  unfold outcomePayload
  cases decision.result <;> simp [Payload.eventType]

theorem decide {signals : List StrategySignal} {context : MarketContext}
    {snapshot : StateSnapshot} {decision : Decision} (hQ : OfOthers Q)
    (hdecide : rt.decide ctx signals context snapshot = .ok (decision, ctx', rt'))
    (h : AllOwn Q (ctx, rt)) : AllOwn Q (ctx', rt') := by
  let process := rt.decisionEngine.process signals context snapshot (decisionCtx ctx)
  have hdrawn : AllOwn Q (ctx, (rt.draw process).2) := h
  obtain ⟨decision', _, hdecide⟩ := Except.bind_eq_ok (x := (rt.draw process).1).mp hdecide
  have hevents : AllOwn Q (if (rt.draw process).2.emitEvents then
      (rt.draw process).2.emitDecision ctx decision' snapshot
      else (ctx, (rt.draw process).2)) := by
    split
    · have hmade : AllOwn Q ((rt.draw process).2.emitCause ctx (.decisionMade decision'.decisionId
          decision'.result.value snapshot.snapshotId decision'.decisionLog)) :=
        hdrawn.emitCause hQ (by simp [Payload.eventType])
      have houtcome := hmade.emitCause hQ (outcomePayload_ne decision' snapshot)
      simp only [emitDecision]
      split
      · exact houtcome.emit hQ (by simp [Payload.eventType])
      · exact houtcome
    · exact hdrawn
  cases hdecide
  exact hevents

end AllOwn

/-! ## What the engine adds -/

theorem events_preDecisionEvaluate : (rt.preDecisionEvaluate ctx).1.events = ctx.events := by
  unfold preDecisionEvaluate
  split <;> rfl

theorem events_sameBarExit {engine : SimulatedExecutionEngine} {signal : Option FinalSignal} :
    (rt.sameBarExit ctx engine signal).1.events = ctx.events := by
  unfold sameBarExit
  split <;> rfl

theorem events_executeDecision {engine : SimulatedExecutionEngine} {decision : Decision}
    (h : rt.executeDecision ctx engine decision = (.ok ctx', rt')) : ctx'.events = ctx.events := by
  unfold executeDecision at h
  dsimp only at h
  split at h
  · cases h
  · cases h
    rfl

theorem events_sameBarExitAndExecute {decision : Decision}
    (h : rt.sameBarExitAndExecute ctx decision = (.ok ctx', rt')) :
    ctx'.events = ctx.events := by
  cases hengine : rt.executionEngine with
  | none =>
    rw [sameBarExitAndExecute_idle (.inr hengine)] at h
    cases h
    rfl
  | some engine =>
    cases happroved : decision.isApproved with
    | false =>
      rw [sameBarExitAndExecute_idle (.inl happroved)] at h
      cases h
      rfl
    | true =>
      obtain ⟨engine', _, heq⟩ := sameBarExitAndExecute_eq ctx happroved hengine
      rw [heq] at h
      exact (events_executeDecision h).trans events_sameBarExit

/-- All that the engine has added is about orders and positions. -/
theorem keptByCycle_execution :
    KeptByCycle fun p => ∀ e ∈ p.1.executionEvents, e.eventFamily = .execution where
  emit _ h := h
  emitCause _ h := h
  draw _ h := h
  day h := h
  books _ h := h
  evaluate {ctx} rt engine snapshot approvedSide incrementBars u _ _ _ h := by
    intro pass e he
    rcases List.mem_append.mp he with he | he
    · exact h e he
    · exact (SimulatedExecutionEngine.ofCall_evaluateBar _ _ _ e he).family
  execute _ _ _ hexecute h := by
    intro e he
    rcases List.mem_append.mp he with he | he
    · exact h e he
    · exact (SimulatedExecutionEngine.ofCall_execute hexecute e he).family

/-! ## The event of the features -/

/-- The events of `_build_features`. -/
theorem AllOwn.emitFeatures {featureSet : FeatureSet} {context : MarketContext}
    (hQ : OfOthers Q) (hbuilt : ∀ e : EventEnvelope, e.Presents ctx featureSet → Q e)
    (h : AllOwn Q (ctx, rt)) : AllOwn Q (rt.emitFeatures ctx featureSet context) := by
  unfold PlatformRuntime.emitFeatures
  split
  · have hfeatures : AllOwn Q (rt.emitCause ctx featureSet.payload) := by
      intro e he
      rcases List.mem_append.mp he with he | he
      · exact h e he
      · rw [List.mem_singleton.mp he]
        exact hbuilt _ ⟨rfl, rfl, rfl, rfl⟩
    exact hfeatures.emitCause hQ (by simp [Payload.eventType])
  · exact h

/-- What a cycle has collected of its own stays collected. -/
theorem keptByCycle_exists :
    KeptByCycle fun p => ∃ e ∈ p.1.events, Q e where
  emit _ h :=
    have ⟨e, he, hQ⟩ := h
    ⟨e, List.mem_append_left _ he, hQ⟩
  emitCause _ h :=
    have ⟨e, he, hQ⟩ := h
    ⟨e, List.mem_append_left _ he, hQ⟩
  draw _ h := h
  day h := h
  books _ h := h
  evaluate _ _ _ h := h
  execute _ _ _ _ h := h

theorem exists_emitFeatures {featureSet : FeatureSet} {context : MarketContext}
    (h : rt.emitEvents = true) :
    ∃ e ∈ (rt.emitFeatures ctx featureSet context).1.events, e.Presents ctx featureSet := by
  unfold PlatformRuntime.emitFeatures
  rw [if_pos h]
  exact ⟨_, List.mem_append_left _ (List.mem_append_right _ (List.mem_singleton_self _)),
    rfl, rfl, rfl, rfl⟩

/-- The features of a cycle that returns: they are built from the frame of its bar, every event of
the kind presents them, and where the runtime emits events there is one. -/
structure PresentsFeatures (call : CycleCall) (rt : PlatformRuntime) (result : CycleResult)
    (ctx : CycleCtx) (rt₁ : PlatformRuntime) : Prop where
  prepared : Prepared call rt ctx rt₁
  built : call.collaborators.build ctx.df ctx.symbol ctx.timeframe ctx.processingTime =
    .ok (result.featureSet, result.context)
  presents : ∀ e ∈ result.events, e.eventType = .featureSetBuilt →
    e.Presents ctx result.featureSet
  emitted : rt.emitEvents = true → ∃ e ∈ result.events, e.Presents ctx result.featureSet

theorem buildFeatures_ok {collaborators : Collaborators} {built : FeatureSet × MarketContext}
    (h : rt.buildFeatures ctx collaborators = .ok (built, ctx', rt')) :
    collaborators.build ctx.df ctx.symbol ctx.timeframe ctx.processingTime = .ok built ∧
      (ctx', rt') = rt.emitFeatures ctx built.1 built.2 := by
  obtain ⟨⟨featureSet, context⟩, hbuild, h⟩ := Except.bind_eq_ok.mp h
  obtain ⟨_, _, h⟩ := Except.bind_eq_ok.mp h
  obtain ⟨rfl, hemit⟩ := Prod.mk.inj (Except.ok.inj h)
  exact ⟨hbuild, hemit.symm⟩

section Steps

variable {result : CycleResult} {prepared built collected decided last : CycleCtx × PlatformRuntime}

/-- The frame of the bar is the one the features are built from. -/
theorem CycleSteps.features
    (h : CycleSteps rt call result rt' prepared built collected decided last) :
    call.collaborators.build prepared.1.df prepared.1.symbol prepared.1.timeframe
      prepared.1.processingTime = .ok (result.featureSet, result.context) := by
  let pre := prepared.2.preDecisionEvaluate prepared.1
  let candle := pre.2.emitCandleReceived pre.1
  have hsame : SameCycle prepared.1 candle.1 :=
    sameCycle_preDecisionEvaluate.trans onlyEvents_emitCandleReceived.1
  have hdf : candle.1.df = prepared.1.df := buildFeatures_asked.1
  rw [← hdf, ← hsame.symbol, ← hsame.timeframe, ← hsame.processingTime]
  exact (buildFeatures_ok h.build).1

/-- The runtime's own events of the cycle that are about features present those of the cycle: up to
the build there are none, and after it there are no others. -/
theorem CycleSteps.own_present
    (h : CycleSteps rt call result rt' prepared built collected decided last) :
    ∀ e ∈ last.1.events, e.eventType = .featureSetBuilt →
      e.Presents prepared.1 result.featureSet := by
  let pre := prepared.2.preDecisionEvaluate prepared.1
  let candle := pre.2.emitCandleReceived pre.1
  have hsame : SameCycle prepared.1 candle.1 :=
    sameCycle_preDecisionEvaluate.trans onlyEvents_emitCandleReceived.1
  have hearly : AllOwn (·.eventType ≠ .featureSetBuilt) candle := by
    refine AllOwn.emitCandleReceived (fun _ he => he) fun e he => ?_
    rw [events_preDecisionEvaluate, (prepareBar_collected h.prepare).1] at he
    exact absurd he List.not_mem_nil
  have hothers : OfOthers fun e => e.eventType = .featureSetBuilt →
      e.Presents prepared.1 result.featureSet := fun e he htype => absurd htype he
  have hbuilt : AllOwn (fun e => e.eventType = .featureSetBuilt →
      e.Presents prepared.1 result.featureSet) built := by
    have hemit : built = candle.2.emitFeatures candle.1 result.featureSet result.context :=
      (buildFeatures_ok h.build).2
    rw [hemit]
    exact AllOwn.emitFeatures hothers (fun e he _ => he.congr hsame)
      fun e he htype => absurd htype (hearly e he)
  have hdecided := AllOwn.decide hothers h.decide
    (AllOwn.collectProviderSignals hothers h.collect fun e he => hbuilt e he)
  intro e he
  exact hdecided e (events_sameBarExitAndExecute h.execute ▸ he)

theorem CycleSteps.execution
    (h : CycleSteps rt call result rt' prepared built collected decided last) :
    ∀ e ∈ last.1.executionEvents, e.eventFamily = .execution := by
  have hstart : ∀ e ∈ prepared.1.executionEvents, e.eventFamily = .execution := by
    rw [(prepareBar_collected h.prepare).2.1]
    exact fun e he => absurd he List.not_mem_nil
  exact keptByCycle_execution.toLast h (keptByCycle_execution.toBuilt h hstart)

/-- A runtime that emits events emits one about the features. -/
theorem CycleSteps.emitted
    (h : CycleSteps rt call result rt' prepared built collected decided last)
    (hemits : rt.emitEvents = true) :
    ∃ e ∈ last.1.events, e.Presents prepared.1 result.featureSet := by
  let pre := prepared.2.preDecisionEvaluate prepared.1
  let candle := pre.2.emitCandleReceived pre.1
  have hsame : SameCycle prepared.1 candle.1 :=
    sameCycle_preDecisionEvaluate.trans onlyEvents_emitCandleReceived.1
  have hpre : Collects prepared pre := collects_preDecisionEvaluate
  have hcandle : Collects pre candle := collects_emitCandleReceived
  obtain ⟨_, _, _, hsince⟩ := prepareBar_collected h.prepare
  have hemitting : candle.2.emitEvents = true :=
    (hsince.collects (hpre.trans hcandle)).emitEvents.trans hemits
  have hemit : built = candle.2.emitFeatures candle.1 result.featureSet result.context :=
    (buildFeatures_ok h.build).2
  have hbuilt : ∃ e ∈ built.1.events, e.Presents prepared.1 result.featureSet := by
    obtain ⟨e, he, hpresents⟩ :=
      @exists_emitFeatures candle.2 candle.1 result.featureSet result.context hemitting
    rw [← hemit] at he
    exact ⟨e, he, hpresents.congr hsame⟩
  exact keptByCycle_exists.toLast h hbuilt

end Steps

theorem runCycle_presents {result : CycleResult} (h : rt.runCycle call = (.ok result, rt')) :
    ∃ ctx rt₁, PresentsFeatures call rt result ctx rt₁ := by
  obtain ⟨⟨ctx, rt₁⟩, built, collected, decided, last, hsteps⟩ := runCycle_steps h
  refine ⟨ctx, rt₁, prepareBar_ok hsteps.prepare, hsteps.features, fun e he htype => ?_,
    fun hemits => ?_⟩
  · rw [hsteps.events] at he
    rcases List.mem_append.mp he with he | he
    · exact hsteps.own_present e he htype
    · have hfamily := hsteps.execution e he
      rw [EventEnvelope.eventFamily, htype] at hfamily
      cases hfamily
  · obtain ⟨e, he, hpresents⟩ := hsteps.emitted hemits
    exact ⟨e, hsteps.events ▸ List.mem_append_left _ he, hpresents⟩

end PlatformRuntime

end TradingPlatform
