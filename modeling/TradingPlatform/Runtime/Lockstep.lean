import TradingPlatform.Execution.Lockstep
import TradingPlatform.Runtime.Phases

/-!
# Two runtimes in lockstep

A runtime emits its own events only when it is told to, and draws an identifier for each of them.
Two runtimes that differ in that, with engines in lockstep, take every cycle that is given the same
correlation id in lockstep: they decide the same, apply the same transitions and publish the same
events of the outcome types, or raise the same error.
-/

namespace TradingPlatform

open SimulatedExecutionEngine (scoreOutcomeTypes)

/-! ## The decision engine -/

namespace EngineConfig

variable {ρ : Renaming} {config : EngineConfig} {signals : List StrategySignal}
  {context : MarketContext} {snapshot snapshot' : StateSnapshot} {c : DecisionCtx}

theorem opposingExit_eq {ps ps' : List PositionState} (side : Side)
    (h : List.Forall₂ (SamePosition ρ) ps ps') :
    (ps'.any fun p => side.opposes p.side) = ps.any fun p => side.opposes p.side := by
  induction h with
  | nil => rfl
  | cons hp _ ih =>
    obtain ⟨_⟩ := hp
    rw [List.any_cons, List.any_cons, ih]

theorem checks_eq (config : EngineConfig) (h : SameSnapshot ρ snapshot snapshot')
    (aggregated : AggregatorSuccess) :
    config.risk.checks aggregated snapshot' = config.risk.checks aggregated snapshot := by
  obtain ⟨openPositions⟩ := h
  simp only [RiskConfig.checks, RiskConfig.maxOpenPositionsCheck, RiskConfig.maxExposureCheck,
    RiskConfig.opposingExit, openPositions.length_eq, opposingExit_eq _ openPositions]

/-- Decisions without a signal. -/
theorem sameDecision_decision {decisionId decisionId' : ℕ} {result : DecisionResult}
    {log log' : DecisionLog} :
    SameDecision (decision decisionId c result log) (decision decisionId' c result log') :=
  ⟨rfl, .none, rfl⟩

theorem sameSignal_validate {signal signal' : FinalSignal} (h : SameSignal signal signal') :
    Except.Rel SameSignal signal.validate signal'.validate := by
  obtain ⟨⟩ := h
  unfold FinalSignal.validate
  split
  · exact .error _
  split
  · exact .error _
  · exact .ok ⟨⟩

theorem sameDecision_finish {decisionId decisionId' : ℕ} {marketResult : StageResult}
    {aggregation : AggregationResult} {verdict verdict' : RiskVerdict}
    {signal signal' : FinalSignal} (hpassed : verdict'.passed = verdict.passed)
    (hchecks : verdict'.checks = verdict.checks) (hsignal : SameSignal signal signal') :
    SameDecision
      (config.finish decisionId signals snapshot c marketResult aggregation verdict signal)
      (config.finish decisionId' signals snapshot' c marketResult aggregation verdict'
        signal') := by
  have hreward : signal'.riskReward = signal.riskReward := by
    obtain ⟨⟩ := hsignal
    rfl
  have hfinal : (config.risk.finalizeVerdict verdict' signal' snapshot').passed =
      (config.risk.finalizeVerdict verdict signal snapshot).passed := by
    simp only [RiskConfig.finalizeVerdict, hpassed, hreward]
  have hfailed : (config.risk.finalizeVerdict verdict' signal' snapshot').checks =
      (config.risk.finalizeVerdict verdict signal snapshot).checks := by
    simp only [RiskConfig.finalizeVerdict, hchecks, hreward]
  unfold finish
  dsimp only
  rw [hfinal, hfailed]
  by_cases hpass : (config.risk.finalizeVerdict verdict signal snapshot).passed = true
  · simp only [hpass, not_true, if_false]
    exact ⟨rfl, .some hsignal, rfl⟩
  · simp only [hpass]
    exact sameDecision_decision

/-- On snapshots that differ in ids the decision is the same. -/
theorem lockstep_process (config : EngineConfig) (signals : List StrategySignal)
    (context : MarketContext) (c : DecisionCtx) (h : SameSnapshot ρ snapshot snapshot') :
    Lockstep ρ (fun σ x y => σ = ρ ∧ Except.Rel SameDecision x y)
      (config.process signals context snapshot c) (config.process signals context snapshot' c) := by
  refine .free (fun u => (process_spec ..).1) (fun u => (process_spec ..).1)
    fun u u' => ⟨rfl, ?_⟩
  change Except.Rel _ (config.processStages u signals context snapshot c (u + 1)).1
    (config.processStages u' signals context snapshot' c (u' + 1)).1
  unfold processStages
  split
  · exact .ok sameDecision_decision
  cases config.aggregation.combine signals with
  | error reason => exact .ok sameDecision_decision
  | ok aggregated =>
    have hchecks := config.checks_eq h aggregated
    have hpassed : (config.risk.evaluate aggregated snapshot').passed =
        (config.risk.evaluate aggregated snapshot).passed := by
      simp only [RiskConfig.evaluate, hchecks]
    have hbuilt : Except.Rel SameSignal
        (FinalSignalBuilder.build aggregated signals context snapshot c.decisionTime c.revisionId
          config.risk.volTargetAtrPct config.risk.volTargetCap (u + 1)).1
        (FinalSignalBuilder.build aggregated signals context snapshot' c.decisionTime c.revisionId
          config.risk.volTargetAtrPct config.risk.volTargetCap (u' + 1)).1 :=
      sameSignal_validate ⟨⟩
    dsimp only
    unfold processAggregated
    rw [hpassed]
    by_cases hpass : (config.risk.evaluate aggregated snapshot).passed = true
    · simp only [hpass, not_true, if_false]
      exact hbuilt.map fun _ _ hsignal => sameDecision_finish hpassed hchecks hsignal
    · simp only [hpass]
      rw [show (config.risk.evaluate aggregated snapshot').checks =
        (config.risk.evaluate aggregated snapshot).checks from hchecks]
      exact .ok sameDecision_decision

end EngineConfig

/-! ## Runtimes -/

section Store

variable {ρ : Renaming} {s s' : InMemoryStateStore}

theorem SameStore.snapshot (h : SameStore ρ s s') (correlationId : Option CorrelationId)
    (u u' : ℕ) :
    SameSnapshot ρ (s.snapshot correlationId u).1 (s'.snapshot correlationId u').1 := by
  obtain ⟨openPositions⟩ := h
  exact ⟨openPositions⟩

theorem SameStore.risk_eq (h : SameStore ρ s s') : s'.risk = s.risk := by
  obtain ⟨_⟩ := h
  rfl

theorem SameStore.equity_eq (h : SameStore ρ s s') : s'.portfolio.equity = s.portfolio.equity := by
  obtain ⟨_⟩ := h
  rfl

theorem SameStore.openPositions (h : SameStore ρ s s') :
    List.Forall₂ (SamePosition ρ) s.portfolio.openPositions s'.portfolio.openPositions := by
  obtain ⟨openPositions⟩ := h
  exact openPositions

theorem SameStore.openPositions_eq_nil (h : SameStore ρ s s') :
    s'.portfolio.openPositions = [] ↔ s.portfolio.openPositions = [] := by
  rw [← List.length_eq_zero_iff, ← List.length_eq_zero_iff, h.openPositions.length_eq]

end Store

/-- The runtimes keep the same books. -/
structure SameBooks (ρ : Renaming) (rt rt' : PlatformRuntime) : Prop where
  decisionEngine : rt'.decisionEngine = rt.decisionEngine
  persistFeatures : rt'.persistFeatures = rt.persistFeatures
  stateStore : SameStore ρ rt.stateStore rt'.stateStore
  clock : rt'.clock = rt.clock
  published : SameEvents ρ rt.published rt'.published
  signalsDay : rt'.signalsDay = rt.signalsDay
  uuid : ρ.Below rt.uuid rt'.uuid

structure SameRuntime (ρ : Renaming) (rt rt' : PlatformRuntime) : Prop
    extends SameBooks ρ rt rt' where
  executionEngine : Option.Rel (SameEngine ρ) rt.executionEngine rt'.executionEngine

/-- The contexts are of the same cycle, and the engine's events collected so far agree. -/
inductive SameCtx (ρ : Renaming) (ctx : CycleCtx) : CycleCtx → Prop
  | mk {events executionEvents : List EventEnvelope} {causationId : Option ℕ}
      (own : outcomeEvents ctx.events = []) (own' : outcomeEvents events = [])
      (execution : SameEvents ρ ctx.executionEvents executionEvents) :
      SameCtx ρ ctx { ctx with
        events := events, causationId := causationId, executionEvents := executionEvents }

/-- The cycles of two runtimes are at the same point. -/
structure Abreast (ρ : Renaming) (p p' : CycleCtx × PlatformRuntime) : Prop where
  ctx : SameCtx ρ p.1 p'.1
  runtime : SameRuntime ρ p.2 p'.2

/-- The computations raise the same error, or return results that are related under an extension of
`ρ`. -/
inductive SameRun {α β : Type} (R : Renaming → α × PlatformRuntime → β × PlatformRuntime → Prop)
    (ρ : Renaming) : Except PyError α × PlatformRuntime → Except PyError β × PlatformRuntime → Prop
  | error (e : PyError) (rt rt' : PlatformRuntime) : SameRun R ρ (.error e, rt) (.error e, rt')
  | ok {σ : Renaming} {a : α} {b : β} {rt rt' : PlatformRuntime} (le : ρ ≤ σ)
      (related : R σ (a, rt) (b, rt')) : SameRun R ρ (.ok a, rt) (.ok b, rt')

theorem SameRun.mono {α β : Type} {R : Renaming → α × PlatformRuntime → β × PlatformRuntime → Prop}
    {ρ σ : Renaming} {x : Except PyError α × PlatformRuntime}
    {y : Except PyError β × PlatformRuntime} (h : SameRun R σ x y) (hle : ρ ≤ σ) :
    SameRun R ρ x y := by
  cases h with
  | error e rt rt' => exact .error e rt rt'
  | ok hle' hR => exact .ok (hle.trans hle') hR

namespace SameBooks

variable {ρ σ : Renaming} {rt rt' : PlatformRuntime}

theorem draw {α β : Type} {R : Renaming → α → β → Prop} {m : StateM ℕ α} {m' : StateM ℕ β}
    (h : SameBooks ρ rt rt') (hm : Lockstep ρ R m m') :
    ∃ σ, ρ ≤ σ ∧ R σ (rt.draw m).1 (rt'.draw m').1 ∧ SameBooks σ (rt.draw m).2 (rt'.draw m').2 := by
  obtain ⟨σ, hle, hbelow, hR⟩ := hm _ _ h.uuid
  have hmono : SameBooks σ { rt with uuid := (m rt.uuid).2 } { rt' with uuid := (m' rt'.uuid).2 } :=
    { h with
      stateStore := h.stateStore.mono hle
      published := h.published.mono hle
      uuid := hbelow }
  exact ⟨σ, hle, hR, hmono⟩

theorem applyTransition {t t' : StateTransitionEvent} (h : SameBooks ρ rt rt')
    (ht : SameTransition ρ t t') :
    SameBooks ρ (rt.applyTransition t) (rt'.applyTransition t') :=
  { h with
    stateStore := h.stateStore.apply ht
    uuid := h.uuid.mono (Nat.le_add_right _ 1) (Nat.le_add_right _ 1) }

theorem applyTransitions {ts ts' : List StateTransitionEvent} (h : SameBooks ρ rt rt')
    (hts : List.Forall₂ (SameTransition ρ) ts ts') :
    SameBooks ρ (rt.applyTransitions ts) (rt'.applyTransitions ts') := by
  induction hts generalizing rt rt' with
  | nil => exact h
  | cons ht _ ih => exact ih (h.applyTransition ht)

/-- A pass of the engines whose transitions are applied. -/
theorem pass {pass pass' : Pass} (h : SameBooks ρ rt rt') (hpass : SamePass ρ pass pass') :
    SameRuntime ρ
      ({ rt with executionEngine := some pass.engine }.applyTransitions pass.transitions)
      ({ rt' with executionEngine := some pass'.engine }.applyTransitions pass'.transitions) where
  toSameBooks :=
    have hbooks : SameBooks ρ { rt with executionEngine := some pass.engine }
        { rt' with executionEngine := some pass'.engine } := { h with }
    hbooks.applyTransitions hpass.transitions
  executionEngine := by
    rw [PlatformRuntime.executionEngine_applyTransitions,
      PlatformRuntime.executionEngine_applyTransitions]
    exact .some hpass.engine

end SameBooks

namespace SameRuntime

variable {ρ : Renaming} {rt rt' : PlatformRuntime}

/-- Both runtimes apply a transition that is about no position. -/
theorem applyNew {payload : TransitionPayload} (h : SameRuntime ρ rt rt')
    (hpayload : SameTransitionPayload ρ payload payload) (eventTime : ℤ)
    (correlationId : CorrelationId) :
    SameRuntime ρ (rt.applyNew payload eventTime correlationId)
      (rt'.applyNew payload eventTime correlationId) :=
  { h with
    stateStore := h.stateStore.apply ⟨hpayload⟩
    uuid := h.uuid.mono (Nat.le_add_right _ 2) (Nat.le_add_right _ 2) }

theorem snapshot (h : SameRuntime ρ rt rt') (cycleId : CorrelationId) :
    SameSnapshot ρ (rt.snapshot cycleId).1 (rt'.snapshot cycleId).1 ∧
    SameRuntime ρ (rt.snapshot cycleId).2 (rt'.snapshot cycleId).2 :=
  ⟨h.stateStore.snapshot (some cycleId) rt.uuid rt'.uuid,
    { h with uuid := h.uuid.mono (Nat.le_add_right _ 1) (Nat.le_add_right _ 1) }⟩

theorem maybeResetDailyRisk (h : SameRuntime ρ rt rt') (eventTime : ℤ) (cycleId : CorrelationId) :
    SameRuntime ρ (rt.maybeResetDailyRisk eventTime cycleId)
      (rt'.maybeResetDailyRisk eventTime cycleId) := by
  unfold PlatformRuntime.maybeResetDailyRisk
  rw [h.signalsDay]
  cases rt.signalsDay with
  | none => exact { h with signalsDay := rfl }
  | some day =>
    have hday : SameRuntime ρ { rt with signalsDay := some (date eventTime) }
        { rt' with signalsDay := some (date eventTime) } := { h with signalsDay := rfl }
    dsimp only
    rw [h.stateStore.risk_eq, h.stateStore.equity_eq]
    split_ifs
    · exact h
    · exact hday
    · exact hday.applyNew (.riskUpdated _) eventTime cycleId

theorem markToMarket {ctx ctx' : CycleCtx} (h : SameRuntime ρ rt rt') (hctx : SameCtx ρ ctx ctx') :
    SameRuntime ρ (rt.markToMarket ctx) (rt'.markToMarket ctx') := by
  obtain ⟨_, _, _⟩ := hctx
  unfold PlatformRuntime.markToMarket
  simp only [h.stateStore.openPositions_eq_nil]
  split_ifs
  · exact h
  · exact h.applyNew (.markToMarket _) ctx.eventTime ctx.cycleId

theorem countApproved {ctx ctx' : CycleCtx} {decision decision' : Decision}
    {snapshot snapshot' : StateSnapshot} (h : SameRuntime ρ rt rt') (hctx : SameCtx ρ ctx ctx')
    (hdecision : SameDecision decision decision') (hsnapshot : SameSnapshot ρ snapshot snapshot') :
    SameRuntime ρ (rt.countApproved ctx decision snapshot)
      (rt'.countApproved ctx' decision' snapshot') := by
  obtain ⟨_, _, _⟩ := hctx
  obtain ⟨_⟩ := hsnapshot
  unfold PlatformRuntime.countApproved
  rw [hdecision.isApproved]
  split
  · exact h.applyNew (.riskUpdated _) ctx.eventTime ctx.cycleId
  · exact h

end SameRuntime

/-! ## The phases of a cycle -/

/-- A stretch in which a runtime emits events of its own. -/
inductive OwnEvents (ctx : CycleCtx) (rt : PlatformRuntime) : CycleCtx × PlatformRuntime → Prop
  | mk {events : List EventEnvelope} {causationId : Option ℕ} {uuid : ℕ}
      (silent : outcomeEvents events = outcomeEvents ctx.events) (le : rt.uuid ≤ uuid) :
      OwnEvents ctx rt
        ({ ctx with events := events, causationId := causationId }, { rt with uuid := uuid })

namespace OwnEvents

variable {ρ : Renaming} {ctx ctx' : CycleCtx} {rt rt' : PlatformRuntime}
  {p p' : CycleCtx × PlatformRuntime} {payload : Payload}

theorem refl (ctx : CycleCtx) (rt : PlatformRuntime) : OwnEvents ctx rt (ctx, rt) :=
  ⟨rfl, le_rfl⟩

theorem trans (h : OwnEvents ctx rt p) (h' : OwnEvents p.1 p.2 p') : OwnEvents ctx rt p' := by
  obtain ⟨silent, le⟩ := h
  obtain ⟨silent', le'⟩ := h'
  exact ⟨silent'.trans silent, le.trans le'⟩

theorem emit (h : payload.eventType ∉ scoreOutcomeTypes) :
    OwnEvents ctx rt (rt.emit ctx payload).2 := by
  refine ⟨?_, Nat.le_add_right _ 1⟩
  rw [outcomeEvents_append, outcomeEvents_singleton (by exact h), List.append_nil]

theorem emitCause (h : payload.eventType ∉ scoreOutcomeTypes) :
    OwnEvents ctx rt (rt.emitCause ctx payload) := by
  obtain ⟨silent, le⟩ : OwnEvents ctx rt (rt.emit ctx payload).2 := emit h
  exact ⟨silent, le⟩

theorem emitIf (h : payload.eventType ∉ scoreOutcomeTypes) :
    OwnEvents ctx rt (rt.emitIf ctx payload) := by
  unfold PlatformRuntime.emitIf
  split
  · exact emit h
  · exact refl ctx rt

theorem emitCandleReceived : OwnEvents ctx rt (rt.emitCandleReceived ctx) := by
  unfold PlatformRuntime.emitCandleReceived
  split
  · exact emitCause (by simp [Payload.eventType, scoreOutcomeTypes])
  · exact refl ctx rt

theorem emitFeatures {featureSet : FeatureSet} {context : MarketContext} :
    OwnEvents ctx rt (rt.emitFeatures ctx featureSet context) := by
  have hbuilt : OwnEvents ctx rt (rt.emitCause ctx (.featureSetBuilt featureSet.featureSetId
      featureSet.featureVersion featureSet.configHash featureSet.indicators featureSet.flags)) :=
    emitCause (by simp [Payload.eventType, scoreOutcomeTypes])
  unfold PlatformRuntime.emitFeatures
  split
  · exact hbuilt.trans (emitCause (by simp [Payload.eventType, scoreOutcomeTypes]))
  · exact refl ctx rt

theorem emitDecision {decision : Decision} {snapshot : StateSnapshot} :
    OwnEvents ctx rt (rt.emitDecision ctx decision snapshot) := by
  have hmade : OwnEvents ctx rt (rt.emitCause ctx (.decisionMade decision.decisionId
      decision.result.value snapshot.snapshotId decision.decisionLog)) :=
    emitCause (by simp [Payload.eventType, scoreOutcomeTypes])
  have houtcome : (PlatformRuntime.outcomePayload decision snapshot).eventType ∉
      scoreOutcomeTypes := by
    unfold PlatformRuntime.outcomePayload
    cases decision.result <;> simp [Payload.eventType, scoreOutcomeTypes]
  have hboth := hmade.trans (emitCause houtcome)
  simp only [PlatformRuntime.emitDecision]
  split
  · exact hboth.trans (emit (by simp [Payload.eventType, scoreOutcomeTypes]))
  · exact hboth

end OwnEvents

section Abreast

variable {ρ : Renaming} {ctx ctx' : CycleCtx} {rt rt' : PlatformRuntime}
  {p p' : CycleCtx × PlatformRuntime} {payload : Payload}

theorem Abreast.own (h : Abreast ρ (ctx, rt) (ctx', rt')) (hp : OwnEvents ctx rt p)
    (hp' : OwnEvents ctx' rt' p') : Abreast ρ p p' := by
  obtain ⟨hctx, hrt⟩ := h
  obtain ⟨own, own', execution⟩ := hctx
  obtain ⟨silent, le⟩ := hp
  obtain ⟨silent', le'⟩ := hp'
  exact ⟨⟨silent.trans own, silent'.trans own', execution⟩,
    { hrt with uuid := hrt.uuid.mono le le' }⟩

theorem Abreast.emitIf (h : Abreast ρ (ctx, rt) (ctx', rt'))
    (hpay : payload.eventType ∉ scoreOutcomeTypes) :
    Abreast ρ (rt.emitIf ctx payload) (rt'.emitIf ctx' payload) :=
  h.own (.emitIf hpay) (.emitIf hpay)

end Abreast

namespace PlatformRuntime

variable {ρ : Renaming} {rt rt' : PlatformRuntime} {ctx ctx' : CycleCtx} {call : CycleCall}

/-- With a correlation id of its own the cycle gets the same bar. -/
theorem lockstep_prepareBar (h : SameRuntime ρ rt rt') {s : String}
    (hid : call.correlationId.filter (· ≠ "") = some s) :
    Except.Rel (Abreast ρ) (rt.prepareBar call) (rt'.prepareBar call) := by
  unfold prepareBar cycleId
  dsimp only
  rw [hid, h.clock]
  refine (Except.Rel.refl _).bind fun df _ hdf => ?_
  obtain rfl := hdf
  cases df.getLast? with
  | none => exact .error _
  | some lastRow =>
    exact .ok ⟨⟨rfl, rfl, .of_silent rfl rfl⟩, { h with clock := rfl }⟩

theorem executionCtx_eq {engine engine' : SimulatedExecutionEngine}
    (h : SameEngine ρ engine engine') (hctx : SameCtx ρ ctx ctx') (eventTime : ℤ) :
    executionCtx engine' ctx' eventTime = executionCtx engine ctx eventTime := by
  obtain ⟨_, _, _⟩ := hctx
  unfold executionCtx
  rw [h.mode]

/-- Both runtimes put the bar to their engines and apply what these return. -/
theorem lockstep_evaluateBar {engine engine' : SimulatedExecutionEngine}
    (h : Abreast ρ (ctx, rt) (ctx', rt')) (hengine : SameEngine ρ engine engine')
    (approvedSide : Option Side) (incrementBars : Bool) :
    let (snapshot, rt) := rt.snapshot ctx.cycleId
    let (pass, rt) := rt.draw (engine.evaluateBar ctx.bar snapshot
      (executionCtx engine ctx ctx.eventTime) approvedSide incrementBars)
    let (snapshot', rt') := rt'.snapshot ctx'.cycleId
    let (pass', rt') := rt'.draw (engine'.evaluateBar ctx'.bar snapshot'
      (executionCtx engine' ctx' ctx'.eventTime) approvedSide incrementBars)
    ∃ σ, ρ ≤ σ ∧ Abreast σ
      ({ ctx with executionEvents := ctx.executionEvents ++ pass.events },
        { rt with executionEngine := some pass.engine }.applyTransitions pass.transitions)
      ({ ctx' with executionEvents := ctx'.executionEvents ++ pass'.events },
        { rt' with executionEngine := some pass'.engine }.applyTransitions pass'.transitions) := by
  obtain ⟨hctx, hrt⟩ := h
  dsimp only at hctx hrt ⊢
  rw [executionCtx_eq hengine hctx]
  obtain ⟨own, own', execution⟩ := hctx
  obtain ⟨hsnapshot, hrt⟩ := hrt.snapshot ctx.cycleId
  obtain ⟨σ, hle, hpass, hbooks⟩ := hrt.toSameBooks.draw
    (SimulatedExecutionEngine.lockstep_evaluateBar hengine hsnapshot)
  exact ⟨σ, hle, ⟨own, own', (execution.mono hle).append hpass.events⟩, hbooks.pass hpass⟩

theorem lockstep_preDecisionEvaluate (h : Abreast ρ (ctx, rt) (ctx', rt')) :
    ∃ σ, ρ ≤ σ ∧ Abreast σ (rt.preDecisionEvaluate ctx) (rt'.preDecisionEvaluate ctx') := by
  have hengines := h.runtime.executionEngine
  unfold preDecisionEvaluate
  dsimp only at hengines
  generalize rt.executionEngine = engine at hengines ⊢
  generalize rt'.executionEngine = engine' at hengines ⊢
  cases hengines with
  | none => exact ⟨ρ, le_rfl, h⟩
  | some hengine => exact lockstep_evaluateBar h hengine none true

theorem lockstep_buildFeatures (collaborators : Collaborators)
    (h : Abreast ρ (ctx, rt) (ctx', rt')) :
    Except.Rel (fun x y => x.1 = y.1 ∧ Abreast ρ x.2 y.2) (rt.buildFeatures ctx collaborators)
      (rt'.buildFeatures ctx' collaborators) := by
  have hctx := h.ctx
  dsimp only at hctx
  obtain ⟨own, own', execution⟩ := hctx
  refine (Except.Rel.refl _).bind fun built _ hbuilt => ?_
  obtain rfl := hbuilt
  obtain ⟨featureSet, context⟩ := built
  have hchecked : Except.Rel (· = ·) (rt.checkStored featureSet context collaborators)
      (rt'.checkStored featureSet context collaborators) := by
    unfold checkStored
    rw [h.runtime.persistFeatures]
    exact .refl _
  exact hchecked.bind fun _ _ _ => .ok ⟨rfl, h.own .emitFeatures .emitFeatures⟩

theorem lockstep_collectProviderSignals (featureSet : FeatureSet) (context : MarketContext)
    (providers : List SignalProvider) (h : Abreast ρ (ctx, rt) (ctx', rt')) :
    Except.Rel (fun x y => x.1 = y.1 ∧ Abreast ρ x.2 y.2)
      (rt.collectProviderSignals ctx featureSet context providers)
      (rt'.collectProviderSignals ctx' featureSet context providers) := by
  induction providers generalizing ctx rt ctx' rt' with
  | nil => exact .ok ⟨rfl, h⟩
  | cons provider rest ih =>
    unfold collectProviderSignals
    split
    · exact ih (h.emitIf (by simp [Payload.eventType, scoreOutcomeTypes]))
    · refine (Except.Rel.refl _).bind fun signal _ hsignal => ?_
      obtain rfl := hsignal
      refine (ih (h.emitIf (by simp [Payload.eventType, scoreOutcomeTypes]))).bind ?_
      rintro ⟨signals, p⟩ ⟨_, p'⟩ ⟨rfl, hp⟩
      exact .ok ⟨rfl, hp⟩

theorem abreast_emitDecision (decision decision' : Decision) (snapshot snapshot' : StateSnapshot)
    (h : Abreast ρ (ctx, rt) (ctx', rt')) :
    Abreast ρ (if rt.emitEvents then rt.emitDecision ctx decision snapshot else (ctx, rt))
      (if rt'.emitEvents then rt'.emitDecision ctx' decision' snapshot' else (ctx', rt')) := by
  have hown : ∀ (ctx : CycleCtx) (rt : PlatformRuntime) (decision : Decision)
      (snapshot : StateSnapshot), OwnEvents ctx rt
        (if rt.emitEvents then rt.emitDecision ctx decision snapshot else (ctx, rt)) := by
    intro ctx rt decision snapshot
    split
    · exact .emitDecision
    · exact .refl ctx rt
  exact h.own (hown ctx rt decision snapshot) (hown ctx' rt' decision' snapshot')

/-- The runtimes make the same decision. -/
theorem lockstep_decide (signals : List StrategySignal) (context : MarketContext)
    {snapshot snapshot' : StateSnapshot} (h : Abreast ρ (ctx, rt) (ctx', rt'))
    (hsnapshot : SameSnapshot ρ snapshot snapshot') :
    Except.Rel (fun x y => SameDecision x.1 y.1 ∧ Abreast ρ x.2 y.2)
      (rt.decide ctx signals context snapshot) (rt'.decide ctx' signals context snapshot') := by
  obtain ⟨hctx, hrt⟩ := h
  dsimp only at hctx hrt
  have hsame := hctx
  obtain ⟨own, own', execution⟩ := hctx
  unfold PlatformRuntime.decide
  rw [hrt.decisionEngine]
  obtain ⟨σ, _, ⟨rfl, houtcome⟩, hbooks⟩ := hrt.toSameBooks.draw
    (rt.decisionEngine.lockstep_process signals context (decisionCtx ctx) hsnapshot)
  have hdrawn : SameRuntime σ _ _ := { hbooks with executionEngine := hrt.executionEngine }
  refine Except.Rel.bind houtcome fun decision decision' hdecision => ?_
  have hemitted := abreast_emitDecision decision decision' snapshot snapshot' ⟨hsame, hdrawn⟩
  exact .ok ⟨hdecision, hemitted.ctx,
    hemitted.runtime.countApproved hemitted.ctx hdecision hsnapshot⟩

theorem lockstep_sameBarExit {engine engine' : SimulatedExecutionEngine}
    {signal signal' : Option FinalSignal} (h : Abreast ρ (ctx, rt) (ctx', rt'))
    (hengine : SameEngine ρ engine engine') (hsignal : Option.Rel SameSignal signal signal') :
    ∃ σ, ρ ≤ σ ∧ Abreast σ (rt.sameBarExit ctx engine signal)
      (rt'.sameBarExit ctx' engine' signal') := by
  have hidle : ∃ σ, ρ ≤ σ ∧ Abreast σ (ctx, rt) (ctx', rt') := ⟨ρ, le_rfl, h⟩
  have hpositions := h.runtime.stateStore.openPositions
  unfold sameBarExit
  dsimp only at hpositions
  generalize rt.stateStore.portfolio.openPositions = positions at hpositions ⊢
  generalize rt'.stateStore.portfolio.openPositions = positions' at hpositions ⊢
  cases hpositions with
  | nil => exact hidle
  | cons _ _ =>
    cases hsignal with
    | none => exact hidle
    | @some signal _ hsame =>
      obtain ⟨⟩ := hsame
      exact lockstep_evaluateBar h hengine (some signal.side) false

/-- Both runtimes execute the decision, or raise the same error. -/
theorem lockstep_executeDecision {engine engine' : SimulatedExecutionEngine}
    {decision decision' : Decision} (h : Abreast ρ (ctx, rt) (ctx', rt'))
    (hengine : SameEngine ρ engine engine') (hdecision : SameDecision decision decision') :
    SameRun Abreast ρ (rt.executeDecision ctx engine decision)
      (rt'.executeDecision ctx' engine' decision') := by
  obtain ⟨hctx, hrt⟩ := h
  dsimp only at hctx hrt
  have hexecution := executionCtx_eq hengine hctx decision.eventTime
  obtain ⟨own, own', execution⟩ := hctx
  obtain ⟨hsnapshot, hrt⟩ := hrt.snapshot ctx.cycleId
  obtain ⟨σ, hle, houtcome, hbooks⟩ := hrt.toSameBooks.draw
    (SimulatedExecutionEngine.lockstep_execute ctx.bar (executionCtx engine ctx decision.eventTime)
      hengine hdecision hsnapshot)
  unfold executeDecision
  rw [hdecision.eventTime, hexecution]
  dsimp only
  generalize PlatformRuntime.draw _ (engine.execute _ _ _ _) = drawn at houtcome hbooks ⊢
  generalize PlatformRuntime.draw _ (engine'.execute _ _ _ _) = drawn' at houtcome hbooks ⊢
  obtain ⟨outcome, rt₁⟩ := drawn
  obtain ⟨outcome', rt₁'⟩ := drawn'
  cases houtcome with
  | error e => exact .error e rt₁ rt₁'
  | ok hpass =>
    exact .ok hle ⟨⟨own, own', (execution.mono hle).append hpass.events⟩, hbooks.pass hpass⟩

theorem lockstep_sameBarExitAndExecute {decision decision' : Decision}
    (h : Abreast ρ (ctx, rt) (ctx', rt')) (hdecision : SameDecision decision decision') :
    SameRun Abreast ρ (rt.sameBarExitAndExecute ctx decision)
      (rt'.sameBarExitAndExecute ctx' decision') := by
  have hengines := h.runtime.executionEngine
  dsimp only at hengines
  generalize hrt : rt.executionEngine = engine at hengines
  generalize hrt' : rt'.executionEngine = engine' at hengines
  have happroved' := hdecision.isApproved
  cases happroved : decision.isApproved with
  | false =>
    rw [happroved] at happroved'
    rw [sameBarExitAndExecute_idle (.inl happroved), sameBarExitAndExecute_idle (.inl happroved')]
    exact .ok le_rfl h
  | true =>
    rw [happroved] at happroved'
    cases hengines with
    | none =>
      rw [sameBarExitAndExecute_idle (.inr hrt), sameBarExitAndExecute_idle (.inr hrt')]
      exact .ok le_rfl h
    | some hengine =>
      obtain ⟨σ, hle, hexit⟩ := lockstep_sameBarExit h hengine hdecision.finalSignal
      obtain ⟨after, hafter, hrun⟩ := sameBarExitAndExecute_eq ctx happroved hrt
      obtain ⟨after', hafter', hrun'⟩ := sameBarExitAndExecute_eq ctx' happroved' hrt'
      have hengines := hexit.runtime.executionEngine
      rw [hafter, hafter'] at hengines
      cases hengines with
      | some hengine =>
      rw [hrun, hrun']
      exact (lockstep_executeDecision hexit hengine hdecision).mono hle

/-- What the cycles of two runtimes have when they reach their decision snapshots. -/
structure SameAtSnapshot (ρ : Renaming) (p p' : AtSnapshot × PlatformRuntime) : Prop where
  abreast : Abreast ρ (p.1.ctx, p.2) (p'.1.ctx, p'.2)
  featureSet : p'.1.featureSet = p.1.featureSet
  context : p'.1.context = p.1.context
  snapshot : SameSnapshot ρ p.1.snapshot p'.1.snapshot

structure SameAtDecision (ρ : Renaming) (p p' : AtDecision × PlatformRuntime) : Prop where
  abreast : Abreast ρ (p.1.ctx, p.2) (p'.1.ctx, p'.2)
  decision : SameDecision p.1.decision p'.1.decision

theorem lockstep_takeSnapshot (h : Abreast ρ (ctx, rt) (ctx', rt')) (featureSet : FeatureSet)
    (context : MarketContext) :
    SameAtSnapshot ρ (rt.takeSnapshot ctx featureSet context)
      (rt'.takeSnapshot ctx' featureSet context) := by
  obtain ⟨hctx, hrt⟩ := h
  dsimp only at hctx hrt
  have hsame := hctx
  obtain ⟨_, _, _⟩ := hctx
  obtain ⟨hsnapshot, hrt⟩ :=
    ((hrt.maybeResetDailyRisk ctx.eventTime ctx.cycleId).markToMarket hsame).snapshot ctx.cycleId
  exact ⟨⟨hsame, hrt⟩, rfl, rfl, hsnapshot⟩

theorem lockstep_runToSnapshot (h : SameRuntime ρ rt rt') {s : String}
    (hid : call.correlationId.filter (· ≠ "") = some s) :
    SameRun SameAtSnapshot ρ (rt.runToSnapshot call) (rt'.runToSnapshot call) := by
  have hprepare := lockstep_prepareBar h hid
  unfold runToSnapshot
  generalize rt.prepareBar call = prepared at hprepare ⊢
  generalize rt'.prepareBar call = prepared' at hprepare ⊢
  cases hprepare with
  | error e => exact .error e rt rt'
  | @ok p p' hp =>
    obtain ⟨ctx, rt⟩ := p
    obtain ⟨ctx', rt'⟩ := p'
    obtain ⟨σ, hle, hpre⟩ := lockstep_preDecisionEvaluate hp
    dsimp only
    generalize rt.preDecisionEvaluate ctx = pre at hpre ⊢
    generalize rt'.preDecisionEvaluate ctx' = pre' at hpre ⊢
    obtain ⟨ctx, rt⟩ := pre
    obtain ⟨ctx', rt'⟩ := pre'
    have hcandle : Abreast σ (rt.emitCandleReceived ctx) (rt'.emitCandleReceived ctx') :=
      hpre.own .emitCandleReceived .emitCandleReceived
    dsimp only
    generalize rt.emitCandleReceived ctx = candle at hcandle ⊢
    generalize rt'.emitCandleReceived ctx' = candle' at hcandle ⊢
    obtain ⟨ctx, rt⟩ := candle
    obtain ⟨ctx', rt'⟩ := candle'
    have hbuild := lockstep_buildFeatures call.collaborators hcandle
    dsimp only
    generalize rt.buildFeatures ctx call.collaborators = built at hbuild ⊢
    generalize rt'.buildFeatures ctx' call.collaborators = built' at hbuild ⊢
    cases hbuild with
    | error e => exact .error e rt rt'
    | @ok b b' hb =>
      obtain ⟨⟨featureSet, context⟩, ctx, rt⟩ := b
      obtain ⟨_, ctx', rt'⟩ := b'
      obtain ⟨rfl, hb⟩ := hb
      exact .ok hle (lockstep_takeSnapshot hb featureSet context)

theorem lockstep_runToDecision (h : SameRuntime ρ rt rt') {s : String}
    (hid : call.correlationId.filter (· ≠ "") = some s) :
    SameRun SameAtDecision ρ (rt.runToDecision call) (rt'.runToDecision call) := by
  have hsnapshot := lockstep_runToSnapshot h hid
  unfold runToDecision
  generalize rt.runToSnapshot call = run at hsnapshot ⊢
  generalize rt'.runToSnapshot call = run' at hsnapshot ⊢
  cases hsnapshot with
  | error e rt rt' => exact .error e rt rt'
  | @ok σ a a' rt rt' hle hat =>
    obtain ⟨habreast, hfeatures, hcontext, hsnapshot⟩ := hat
    dsimp only at habreast hfeatures hcontext hsnapshot ⊢
    rw [hfeatures, hcontext]
    have hcollect := lockstep_collectProviderSignals a.featureSet a.context
      call.collaborators.providers habreast
    generalize rt.collectProviderSignals _ _ _ _ = collected at hcollect ⊢
    generalize rt'.collectProviderSignals _ _ _ _ = collected' at hcollect ⊢
    cases hcollect with
    | error e => exact .error e rt rt'
    | @ok c c' hc =>
      obtain ⟨signals, ctx, rt⟩ := c
      obtain ⟨_, ctx', rt'⟩ := c'
      obtain ⟨rfl, hc⟩ := hc
      have hdecide := lockstep_decide signals a.context hc hsnapshot
      dsimp only
      generalize rt.decide _ _ _ _ = decided at hdecide ⊢
      generalize rt'.decide _ _ _ _ = decided' at hdecide ⊢
      cases hdecide with
      | error e => exact .error e rt rt'
      | ok hd => exact .ok hle ⟨hd.2, hd.1⟩

/-- With a correlation id of its own, the cycle of either runtime ends the same. -/
theorem lockstep_runCycle (h : SameRuntime ρ rt rt') {s : String}
    (hid : call.correlationId.filter (· ≠ "") = some s) :
    SameRun (fun σ p p' => SameRuntime σ p.2 p'.2) ρ (rt.runCycle call) (rt'.runCycle call) := by
  have hdecision := lockstep_runToDecision h hid
  unfold runCycle runToPublish
  generalize rt.runToDecision call = run at hdecision ⊢
  generalize rt'.runToDecision call = run' at hdecision ⊢
  cases hdecision with
  | error e rt rt' => exact .error e rt rt'
  | @ok σ a a' rt rt' hle hat =>
    have hexecute := lockstep_sameBarExitAndExecute hat.abreast hat.decision
    dsimp only at hexecute ⊢
    generalize rt.sameBarExitAndExecute _ _ = executed at hexecute ⊢
    generalize rt'.sameBarExitAndExecute _ _ = executed' at hexecute ⊢
    cases hexecute with
    | error e rt rt' => exact .error e rt rt'
    | @ok τ ctx ctx' rt rt' hle' hafter =>
      obtain ⟨hctx, hrt⟩ := hafter
      obtain ⟨own, own', execution⟩ := hctx
      have hown := SameEvents.of_silent (ρ := τ) own own'
      exact .ok (hle.trans hle')
        { hrt with published := hrt.published.append (hown.append execution) }

end PlatformRuntime

end TradingPlatform
