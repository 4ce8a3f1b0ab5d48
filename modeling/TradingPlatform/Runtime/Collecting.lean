import TradingPlatform.Execution.Envelopes
import TradingPlatform.Runtime.Phases

/-!
# What a cycle collects

Between the preparation of its bar and its end a cycle does a few kinds of things to its context and
the runtime, which `Collect` lists: it adds an event of its own, it takes over the events and the
transitions of a pass of the engine, it keeps the books, and it draws identifiers. A cycle that
returns is a sequence of them, with the decision snapshot and the `DECISION_MADE` event that names
it in between, so all that it publishes has its correlation id.
-/

namespace TradingPlatform

/-- The snapshot a `DECISION_MADE` event refers to. -/
def Payload.madeSnapshot? : Payload → Option ℕ
  | .decisionMade _ _ stateSnapshotId _ => some stateSnapshotId
  | _ => none

/-- The snapshots that the `DECISION_MADE` events refer to. -/
def madeSnapshots (events : List EventEnvelope) : List ℕ :=
  events.filterMap (·.payload.madeSnapshot?)

theorem madeSnapshots_append {events events' : List EventEnvelope} :
    madeSnapshots (events ++ events') = madeSnapshots events ++ madeSnapshots events' :=
  List.filterMap_append

/-- No execution event refers to a snapshot. -/
theorem madeSnapshots_ofCall {c : EventCtx} {events : List EventEnvelope} (h : OfCall c events) :
    madeSnapshots events = [] := by
  refine List.filterMap_eq_nil_iff.mpr fun e he => ?_
  have hfamily := (h e he).family
  unfold EventEnvelope.eventFamily EventEnvelope.eventType at hfamily
  cases hpay : e.payload with
  | decisionMade =>
    rw [hpay] at hfamily
    cases hfamily
  | _ => rfl

namespace PlatformRuntime

/-- A pass of the engine in a cycle, with the identifiers it draws. -/
inductive EnginePass (ctx : CycleCtx) (u : ℕ) : Pass → ℕ → Prop
  | evaluated (engine : SimulatedExecutionEngine) (snapshot : StateSnapshot)
      (approvedSide : Option Side) (incrementBars : Bool) :
      EnginePass ctx u
        (engine.evaluateBar ctx.bar snapshot (executionCtx engine ctx ctx.eventTime) approvedSide
          incrementBars u).1
        (engine.evaluateBar ctx.bar snapshot (executionCtx engine ctx ctx.eventTime) approvedSide
          incrementBars u).2
  | executed {engine : SimulatedExecutionEngine} {decision : Decision} {snapshot : StateSnapshot}
      {pass : Pass} {u' : ℕ} (htime : decision.eventTime = ctx.eventTime)
      (h : engine.execute decision snapshot ctx.bar
        (executionCtx engine ctx decision.eventTime) u = (.ok pass, u')) : EnginePass ctx u pass u'

/-- One thing a cycle does between the preparation of its bar and its end. -/
inductive Collect : CycleCtx × PlatformRuntime → CycleCtx × PlatformRuntime → Prop
  | emit {ctx : CycleCtx} {rt : PlatformRuntime} {payload : Payload}
      (hmade : payload.madeSnapshot? = none) (htrade : payload.trade? = none) :
      Collect (ctx, rt) (rt.emit ctx payload).2
  | cause {ctx : CycleCtx} {rt : PlatformRuntime} (causationId : Option ℕ) :
      Collect (ctx, rt) ({ ctx with causationId }, rt)
  | books {ctx : CycleCtx} {rt : PlatformRuntime} {payload : TransitionPayload}
      (htrade : payload.trade? = none) (eventTime : ℤ) (correlationId : CorrelationId) :
      Collect (ctx, rt) (ctx, rt.applyNew payload eventTime correlationId)
  | day {ctx : CycleCtx} {rt : PlatformRuntime} (signalsDay : Option ℤ) :
      Collect (ctx, rt) (ctx, { rt with signalsDay })
  | draw {ctx : CycleCtx} {rt : PlatformRuntime} {uuid : ℕ} (h : rt.uuid ≤ uuid) :
      Collect (ctx, rt) (ctx, { rt with uuid })
  | pass {ctx : CycleCtx} {rt : PlatformRuntime} {u u' : ℕ} {pass : Pass} (hle : rt.uuid ≤ u)
      (h : EnginePass ctx u pass u') :
      Collect (ctx, rt) ({ ctx with executionEvents := ctx.executionEvents ++ pass.events },
        { rt with uuid := u', executionEngine := some pass.engine }.applyTransitions
          pass.transitions)

/-- A stretch of a cycle. -/
abbrev Collects : CycleCtx × PlatformRuntime → CycleCtx × PlatformRuntime → Prop :=
  Relation.ReflTransGen Collect

variable {rt rt' : PlatformRuntime} {ctx ctx' : CycleCtx} {call : CycleCall}
  {p q : CycleCtx × PlatformRuntime}

namespace EnginePass

variable {u u' : ℕ} {pass : Pass}

theorem le_uuid (h : EnginePass ctx u pass u') : u ≤ u' := by
  cases h with
  | evaluated engine snapshot approvedSide incrementBars =>
    cases incrementBars with
    | false =>
      exact (SimulatedExecutionEngine.evaluateBar_exit_spec ctx.bar _ engine snapshot approvedSide
        u).1.le_uuid
    | true =>
      obtain ⟨_, _, _, _, hfills, hexits, _⟩ := SimulatedExecutionEngine.evaluateBar_spec ctx.bar
        (executionCtx engine ctx ctx.eventTime) engine snapshot approvedSide u
      exact hfills.le_uuid.trans hexits.le_uuid
  | executed _ h => exact (SimulatedExecutionEngine.execute_cases h).1

/-- The events of a pass have the correlation id of the cycle. -/
theorem ofCall (h : EnginePass ctx u pass u') :
    ∃ c : EventCtx, c.correlationId = ctx.cycleId ∧ OfCall c pass.events := by
  cases h with
  | evaluated => exact ⟨_, rfl, SimulatedExecutionEngine.ofCall_evaluateBar _ _ _⟩
  | executed _ h => exact ⟨_, rfl, SimulatedExecutionEngine.ofCall_execute h⟩

end EnginePass

/-! ## What a stretch keeps -/

/-- Transitions publish nothing. -/
theorem published_applyTransitions (rt : PlatformRuntime) (ts : List StateTransitionEvent) :
    (rt.applyTransitions ts).published = rt.published ∧
    (rt.applyTransitions ts).emitEvents = rt.emitEvents := by
  induction ts generalizing rt with
  | nil => exact ⟨rfl, rfl⟩
  | cons t ts ih => exact ih (rt.applyTransition t)

/-- What a stretch of a cycle keeps of its context and of the runtime. -/
structure Keeps (p q : CycleCtx × PlatformRuntime) : Prop where
  sameCycle : SameCycle p.1 q.1
  emitEvents : q.2.emitEvents = p.2.emitEvents
  published : q.2.published = p.2.published
  uuid : p.2.uuid ≤ q.2.uuid
  made : madeSnapshots q.1.events = madeSnapshots p.1.events
  events : p.1.events ⊆ q.1.events

theorem Keeps.refl (p : CycleCtx × PlatformRuntime) : Keeps p p :=
  ⟨.refl _, rfl, rfl, le_rfl, rfl, List.Subset.refl _⟩

theorem Keeps.trans {p₁ p₂ p₃ : CycleCtx × PlatformRuntime} (h : Keeps p₁ p₂)
    (h' : Keeps p₂ p₃) : Keeps p₁ p₃ where
  sameCycle := h.sameCycle.trans h'.sameCycle
  emitEvents := h'.emitEvents.trans h.emitEvents
  published := h'.published.trans h.published
  uuid := h.uuid.trans h'.uuid
  made := h'.made.trans h.made
  events := List.Subset.trans h.events h'.events

/-- All that a cycle has collected has its correlation id, and what comes from the engine refers to
no snapshot. -/
structure Stamped (ctx : CycleCtx) : Prop where
  own : ∀ e ∈ ctx.events, e.correlationId = ctx.cycleId
  execution : ∀ e ∈ ctx.executionEvents, e.correlationId = ctx.cycleId
  unmade : madeSnapshots ctx.executionEvents = []

theorem Stamped.emit (h : Stamped ctx) (rt : PlatformRuntime) (payload : Payload) :
    Stamped (rt.emit ctx payload).2.1 := by
  refine ⟨fun e he => ?_, h.execution, h.unmade⟩
  rcases List.mem_append.mp he with he | he
  · exact h.own e he
  · rw [List.mem_singleton.mp he]
    rfl

theorem madeSnapshots_emit {payload : Payload} : madeSnapshots (rt.emit ctx payload).2.1.events =
    madeSnapshots ctx.events ++ payload.madeSnapshot?.toList := by
  rw [show (rt.emit ctx payload).2.1.events = ctx.events ++ [_] from rfl, madeSnapshots_append]
  refine congrArg (madeSnapshots ctx.events ++ ·) ?_
  cases hmade : payload.madeSnapshot? with
  | none => exact List.filterMap_cons_none hmade
  | some id => exact List.filterMap_cons_some hmade

theorem Collect.keeps (h : Collect p q) : Keeps p q := by
  cases h with
  | emit hmade =>
    refine ⟨⟨rfl, rfl, rfl, rfl, rfl, rfl⟩, rfl, rfl, Nat.le_add_right _ 1, ?_,
      List.subset_append_left _ _⟩
    rw [madeSnapshots_emit, hmade]
    exact List.append_nil _
  | cause => exact ⟨⟨rfl, rfl, rfl, rfl, rfl, rfl⟩, rfl, rfl, le_rfl, rfl, List.Subset.refl _⟩
  | books => exact ⟨.refl _, rfl, rfl, Nat.le_add_right _ 2, rfl, List.Subset.refl _⟩
  | day => exact ⟨.refl _, rfl, rfl, le_rfl, rfl, List.Subset.refl _⟩
  | draw h => exact ⟨.refl _, rfl, rfl, h, rfl, List.Subset.refl _⟩
  | @pass ctx rt u u' pass hle h =>
    obtain ⟨hpublished, hemits⟩ := published_applyTransitions
      { rt with uuid := u', executionEngine := some pass.engine } pass.transitions
    exact ⟨⟨rfl, rfl, rfl, rfl, rfl, rfl⟩, hemits, hpublished,
      (applied_of_engine (hle.trans h.le_uuid)).uuid, rfl, List.Subset.refl _⟩

theorem Collect.stamped (h : Collect p q) (hp : Stamped p.1) : Stamped q.1 := by
  cases h with
  | emit => exact hp.emit _ _
  | cause => exact ⟨hp.own, hp.execution, hp.unmade⟩
  | books => exact hp
  | day => exact hp
  | draw => exact hp
  | pass _ h =>
    obtain ⟨c, hc, hofCall⟩ := h.ofCall
    refine ⟨hp.own, fun e he => ?_, ?_⟩
    · rcases List.mem_append.mp he with he | he
      · exact hp.execution e he
      · exact (hofCall e he).correlationId.trans hc
    · rw [madeSnapshots_append, hp.unmade, madeSnapshots_ofCall hofCall]
      rfl

theorem Collects.keeps (h : Collects p q) : Keeps p q := by
  induction h with
  | refl => exact .refl p
  | tail _ h ih => exact ih.trans h.keeps

theorem Collects.stamped (h : Collects p q) (hp : Stamped p.1) : Stamped q.1 := by
  induction h with
  | refl => exact hp
  | tail _ h ih => exact h.stamped ih

/-! ## The stretches of a cycle -/

theorem collects_emitCause {payload : Payload} (hmade : payload.madeSnapshot? = none)
    (htrade : payload.trade? = none) : Collects (ctx, rt) (rt.emitCause ctx payload) :=
  (Relation.ReflTransGen.single (.emit hmade htrade)).tail (.cause _)

theorem collects_emitIf {payload : Payload} (hmade : payload.madeSnapshot? = none)
    (htrade : payload.trade? = none) : Collects (ctx, rt) (rt.emitIf ctx payload) := by
  unfold emitIf
  split
  · exact .single (.emit hmade htrade)
  · exact .refl

theorem collects_emitCandleReceived : Collects (ctx, rt) (rt.emitCandleReceived ctx) := by
  unfold emitCandleReceived
  split
  · exact collects_emitCause rfl rfl
  · exact .refl

theorem collects_emitFeatures {featureSet : FeatureSet} {context : MarketContext} :
    Collects (ctx, rt) (rt.emitFeatures ctx featureSet context) := by
  unfold emitFeatures
  split
  · exact (collects_emitCause rfl rfl).trans (collects_emitCause rfl rfl)
  · exact .refl

theorem collects_buildFeatures {collaborators : Collaborators} {built : FeatureSet × MarketContext}
    (h : rt.buildFeatures ctx collaborators = .ok (built, ctx', rt')) :
    Collects (ctx, rt) (ctx', rt') := by
  obtain ⟨⟨featureSet, context⟩, _, h⟩ := Except.bind_eq_ok.mp h
  obtain ⟨_, _, h⟩ := Except.bind_eq_ok.mp h
  obtain ⟨_, hemit⟩ := Prod.mk.inj (Except.ok.inj h)
  rw [← hemit]
  exact collects_emitFeatures

theorem collects_collectProviderSignals {featureSet : FeatureSet} {context : MarketContext}
    {providers : List SignalProvider} {signals : List StrategySignal}
    (h : rt.collectProviderSignals ctx featureSet context providers = .ok (signals, ctx', rt')) :
    Collects (ctx, rt) (ctx', rt') := by
  induction providers generalizing ctx rt signals with
  | nil =>
    cases h
    exact .refl
  | cons provider rest ih =>
    unfold collectProviderSignals at h
    split at h
    · exact (collects_emitIf rfl rfl).trans (ih h)
    · obtain ⟨signal, _, h⟩ := Except.bind_eq_ok.mp h
      obtain ⟨⟨signals', ctx₂, rt₂⟩, hrest, h⟩ := Except.bind_eq_ok.mp h
      cases h
      exact (collects_emitIf rfl rfl).trans (ih hrest)

theorem collects_maybeResetDailyRisk (eventTime : ℤ) (cycleId : CorrelationId) :
    Collects (ctx, rt) (ctx, rt.maybeResetDailyRisk eventTime cycleId) := by
  have hday : Collects (ctx, rt) (ctx, { rt with signalsDay := some (date eventTime) }) :=
    .single (.day _)
  rcases maybeResetDailyRisk_cases rt eventTime cycleId with h | h | h <;> rw [h]
  · exact hday
  · exact hday.tail (.books rfl _ _)

theorem collects_markToMarket : Collects (ctx, rt) (ctx, rt.markToMarket ctx') := by
  rcases markToMarket_cases rt ctx' with h | h <;> rw [h]
  exact .single (.books rfl _ _)

theorem collects_countApproved {decision : Decision} {snapshot : StateSnapshot} :
    Collects (ctx, rt) (ctx, rt.countApproved ctx' decision snapshot) := by
  unfold countApproved
  split
  · exact .single (.books rfl _ _)
  · exact .refl

theorem collects_preDecisionEvaluate : Collects (ctx, rt) (rt.preDecisionEvaluate ctx) := by
  cases hengine : rt.executionEngine with
  | none =>
    rw [preDecisionEvaluate_none hengine]
  | some engine =>
    have hpass : Collect (ctx, rt) _ := .pass (Nat.le_add_right rt.uuid 1)
      (.evaluated engine (rt.snapshot ctx.cycleId).1 none true)
    unfold preDecisionEvaluate
    rw [hengine]
    exact .single hpass

theorem collects_sameBarExit (engine : SimulatedExecutionEngine) (signal : Option FinalSignal) :
    Collects (ctx, rt) (rt.sameBarExit ctx engine signal) := by
  cases hopen : rt.stateStore.portfolio.openPositions with
  | nil =>
    simp only [sameBarExit, hopen]
    exact .refl
  | cons position rest =>
    cases signal with
    | none =>
      simp only [sameBarExit, hopen]
      exact .refl
    | some signal =>
      have hpass : Collect (ctx, rt) _ := .pass (Nat.le_add_right rt.uuid 1)
        (.evaluated engine (rt.snapshot ctx.cycleId).1 (some signal.side) false)
      simp only [sameBarExit, hopen]
      exact .single hpass

theorem collects_executeDecision {engine : SimulatedExecutionEngine} {decision : Decision}
    (htime : decision.eventTime = ctx.eventTime)
    (h : rt.executeDecision ctx engine decision = (.ok ctx', rt')) :
    Collects (ctx, rt) (ctx', rt') := by
  let snapshot := rt.snapshot ctx.cycleId
  have hsnapshot : rt.snapshot ctx.cycleId = (snapshot.1, snapshot.2) := rfl
  cases hexecute : engine.execute decision snapshot.1 ctx.bar
      (executionCtx engine ctx decision.eventTime) snapshot.2.uuid with
  | mk outcome u' =>
  unfold executeDecision at h
  simp only [hsnapshot, draw_eq snapshot.2 hexecute] at h
  cases outcome with
  | error e => cases h
  | ok pass =>
    cases h
    exact .single (.pass (Nat.le_add_right rt.uuid 1) (.executed htime hexecute))

theorem collects_sameBarExitAndExecute {decision : Decision}
    (htime : decision.eventTime = ctx.eventTime)
    (h : rt.sameBarExitAndExecute ctx decision = (.ok ctx', rt')) :
    Collects (ctx, rt) (ctx', rt') := by
  cases hengine : rt.executionEngine with
  | none =>
    rw [sameBarExitAndExecute_idle (.inr hengine)] at h
    cases h
    exact .refl
  | some engine =>
    cases happroved : decision.isApproved with
    | false =>
      rw [sameBarExitAndExecute_idle (.inl happroved)] at h
      cases h
      exact .refl
    | true =>
      obtain ⟨engine', _, heq⟩ := sameBarExitAndExecute_eq ctx happroved hengine
      rw [heq] at h
      have hexit : Collects (ctx, rt) (rt.sameBarExit ctx engine decision.finalSignal) :=
        collects_sameBarExit engine decision.finalSignal
      have hsame := hexit.keeps.sameCycle
      exact hexit.trans (collects_executeDecision (htime.trans hsame.eventTime.symm) h)

/-! ## What a cycle leaves alone -/

/-- Since `start` the runtime has drawn identifiers, if anything; it has published nothing, and
emits events as before. -/
structure Since (start r : PlatformRuntime) : Prop where
  emitEvents : r.emitEvents = start.emitEvents
  published : r.published = start.published
  uuid : start.uuid ≤ r.uuid

theorem Since.refl (rt : PlatformRuntime) : Since rt rt := ⟨rfl, rfl, le_rfl⟩

section Since

variable {start r r' : PlatformRuntime}

theorem Since.collects (h : Since start r) (hcollects : Collects (ctx, r) (ctx', r')) :
    Since start r' :=
  have hkeeps := hcollects.keeps
  ⟨hkeeps.emitEvents.trans h.emitEvents, hkeeps.published.trans h.published,
    h.uuid.trans hkeeps.uuid⟩

/-- Nothing has been collected or published when the bar is prepared. -/
theorem prepareBar_collected (h : rt.prepareBar call = .ok (ctx, rt')) :
    ctx.events = [] ∧ ctx.executionEvents = [] ∧ ctx.cycleId = (rt.cycleId call).1 ∧
      Since rt rt' := by
  have hcycleId : Since rt (rt.cycleId call).2 := by
    unfold cycleId
    split
    · exact .refl rt
    · exact ⟨rfl, rfl, Nat.le_add_right _ 1⟩
  obtain ⟨df, _, h⟩ := Except.bind_eq_ok.mp h
  cases hlast : df.getLast? with
  | none =>
    rw [hlast] at h
    cases h
  | some lastRow =>
    rw [hlast] at h
    cases h
    exact ⟨rfl, rfl, rfl, hcycleId.emitEvents, hcycleId.published, hcycleId.uuid⟩

theorem Since.executeDecision (h : Since start r) {engine : SimulatedExecutionEngine}
    {decision : Decision} : Since start (r.executeDecision ctx engine decision).2 := by
  let snapshot := r.snapshot ctx.cycleId
  have hsnapshot : r.snapshot ctx.cycleId = (snapshot.1, snapshot.2) := rfl
  have hle : start.uuid ≤ snapshot.2.uuid := h.uuid.trans (Nat.le_add_right _ 1)
  cases hexecute : engine.execute decision snapshot.1 ctx.bar
      (executionCtx engine ctx decision.eventTime) snapshot.2.uuid with
  | mk outcome u' =>
  have hdrawn := hle.trans (SimulatedExecutionEngine.execute_cases hexecute).1
  unfold PlatformRuntime.executeDecision
  simp only [hsnapshot, draw_eq snapshot.2 hexecute]
  cases outcome with
  | error e => exact ⟨h.emitEvents, h.published, hdrawn⟩
  | ok pass =>
    let drawn : PlatformRuntime := { r with uuid := u', executionEngine := some pass.engine }
    obtain ⟨hpublished, hemits⟩ := published_applyTransitions drawn pass.transitions
    exact ⟨hemits.trans h.emitEvents, hpublished.trans h.published,
      hdrawn.trans (applied_applyTransitions drawn pass.transitions).uuid⟩

theorem Since.sameBarExitAndExecute (h : Since start r) (ctx : CycleCtx) (decision : Decision) :
    Since start (r.sameBarExitAndExecute ctx decision).2 := by
  cases hengine : r.executionEngine with
  | none =>
    rw [sameBarExitAndExecute_idle (.inr hengine)]
    exact h
  | some engine =>
    cases happroved : decision.isApproved with
    | false =>
      rw [sameBarExitAndExecute_idle (.inl happroved)]
      exact h
    | true =>
      obtain ⟨engine', _, heq⟩ := sameBarExitAndExecute_eq ctx happroved hengine
      rw [heq]
      have hexit : Collects (ctx, r) (r.sameBarExit ctx engine decision.finalSignal) :=
        collects_sameBarExit engine decision.finalSignal
      exact (h.collects hexit).executeDecision

end Since

/-! ## A whole cycle -/

/-- The `DECISION_MADE` event of `_decide`. -/
def noteDecision (rt : PlatformRuntime) (ctx : CycleCtx) (decision : Decision)
    (snapshot : StateSnapshot) : CycleCtx × PlatformRuntime :=
  if rt.emitEvents then
    rt.emitCause ctx (.decisionMade decision.decisionId decision.result.value snapshot.snapshotId
      decision.decisionLog)
  else (ctx, rt)

theorem outcomePayload_silent (decision : Decision) (snapshot : StateSnapshot) :
    (outcomePayload decision snapshot).madeSnapshot? = none ∧
      (outcomePayload decision snapshot).trade? = none := by
  unfold outcomePayload
  cases decision.result <;> exact ⟨rfl, rfl⟩

/-- After the event that names the snapshot a decision is collected like everything else. -/
theorem collects_decide {signals : List StrategySignal} {context : MarketContext}
    {snapshot : StateSnapshot} {decision : Decision}
    (h : rt.decide ctx signals context snapshot = .ok (decision, ctx', rt')) :
    ∃ rt₁, Collects (ctx, rt) (ctx, rt₁) ∧
      Collects (rt₁.noteDecision ctx decision snapshot) (ctx', rt') := by
  let process := rt.decisionEngine.process signals context snapshot (decisionCtx ctx)
  obtain ⟨hle, _⟩ := EngineConfig.process_spec rt.decisionEngine signals context snapshot
    (decisionCtx ctx) rt.uuid
  have hdraw : Collects (ctx, rt) (ctx, (rt.draw process).2) := .single (.draw hle)
  obtain ⟨decision', _, h⟩ := Except.bind_eq_ok (x := (rt.draw process).1).mp h
  have hevents : Collects ((rt.draw process).2.noteDecision ctx decision' snapshot)
      (if (rt.draw process).2.emitEvents then
        (rt.draw process).2.emitDecision ctx decision' snapshot
      else (ctx, (rt.draw process).2)) := by
    unfold noteDecision
    split
    · obtain ⟨hmade, htrade⟩ := outcomePayload_silent decision' snapshot
      simp only [emitDecision]
      split
      · exact (collects_emitCause hmade htrade).tail (.emit rfl rfl)
      · exact collects_emitCause hmade htrade
    · exact .refl
  cases h
  exact ⟨_, hdraw, hevents.trans collects_countApproved⟩

theorem Since.noteDecision {start : PlatformRuntime} (h : Since start rt) (decision : Decision)
    (snapshot : StateSnapshot) : Since start (rt.noteDecision ctx decision snapshot).2 := by
  unfold PlatformRuntime.noteDecision
  split
  · exact ⟨h.emitEvents, h.published, h.uuid.trans (Nat.le_add_right _ 1)⟩
  · exact h

/-- How a cycle that returns has come to its result: up to the decision snapshot at `taken`, on to
the decision at `decided`, and from the event that notes it to the end. -/
structure CycleTrace (rt : PlatformRuntime) (call : CycleCall) (result : CycleResult)
    (rt' : PlatformRuntime) (ctx : CycleCtx) (rt₁ : PlatformRuntime)
    (taken decided last : CycleCtx × PlatformRuntime) : Prop where
  prepared : Prepared call rt ctx rt₁
  reached : Collects (ctx, rt₁) taken
  candle : rt₁.emitEvents = true → ∃ e ∈ taken.1.events, e.eventType = .candleReceived
  snapshot : result.snapshot = (taken.2.snapshot taken.1.cycleId).1
  judged : Collects (taken.1, (taken.2.snapshot taken.1.cycleId).2) decided
  ended : Collects (decided.2.noteDecision decided.1 result.decision result.snapshot) last
  correlationId : result.correlationId = last.1.cycleId
  events : result.events = last.1.events ++ last.1.executionEvents
  published : rt' = { last.2 with published := last.2.published ++ result.events }

/-- The events collected up to the decision snapshot are still there at the end. -/
theorem CycleTrace.kept {result : CycleResult} {rt₁ : PlatformRuntime}
    {taken decided last : CycleCtx × PlatformRuntime}
    (h : CycleTrace rt call result rt' ctx rt₁ taken decided last) :
    taken.1.events ⊆ last.1.events := by
  have hnoted : decided.1.events ⊆
      (decided.2.noteDecision decided.1 result.decision result.snapshot).1.events := by
    unfold noteDecision
    split
    · exact List.subset_append_left _ _
    · exact List.Subset.refl _
  exact List.Subset.trans h.judged.keeps.events (List.Subset.trans hnoted h.ended.keeps.events)

/-- A cycle raises, and then it has published nothing, or it returns. -/
theorem runCycle_cases (rt : PlatformRuntime) (call : CycleCall) :
    (∃ e rt', rt.runCycle call = (.error e, rt') ∧ Since rt rt') ∨
    ∃ result rt', rt.runCycle call = (.ok result, rt') ∧
      ∃ ctx rt₁ taken decided last, CycleTrace rt call result rt' ctx rt₁ taken decided last := by
  cases hprepare : rt.prepareBar call with
  | error e =>
    refine .inl ⟨e, rt, ?_, .refl rt⟩
    simp only [runCycle, runToPublish, runToDecision, runToSnapshot, hprepare]
  | ok prepared =>
  obtain ⟨ctx, rt₁⟩ := prepared
  obtain ⟨_, _, _, hprepared⟩ := prepareBar_collected hprepare
  let pre := rt₁.preDecisionEvaluate ctx
  let candle := pre.2.emitCandleReceived pre.1
  have hcandleRun : rt₁.preDecisionEvaluate ctx = pre ∧
      pre.2.emitCandleReceived pre.1 = candle := ⟨rfl, rfl⟩
  have hpre : Collects (ctx, rt₁) pre := collects_preDecisionEvaluate
  have hcandle : Collects pre candle := collects_emitCandleReceived
  cases hbuild : candle.2.buildFeatures candle.1 call.collaborators with
  | error e =>
    refine .inl ⟨e, candle.2, ?_, hprepared.collects (hpre.trans hcandle)⟩
    simp only [runCycle, runToPublish, runToDecision, runToSnapshot, hprepare, hcandleRun, hbuild]
  | ok built =>
  obtain ⟨⟨featureSet, context⟩, ctx₂, rt₂⟩ := built
  let marked := (rt₂.maybeResetDailyRisk ctx₂.eventTime ctx₂.cycleId).markToMarket ctx₂
  let snapshot := marked.snapshot ctx₂.cycleId
  have hbuilt : Collects candle (ctx₂, rt₂) := collects_buildFeatures hbuild
  have hreached : Collects (ctx, rt₁) (ctx₂, marked) :=
    (((hpre.trans hcandle).trans hbuilt).trans (collects_maybeResetDailyRisk _ _)).trans
      collects_markToMarket
  have htaken : Collects (ctx, rt₁) (ctx₂, snapshot.2) :=
    hreached.tail (.draw (Nat.le_add_right _ 1))
  have htake : rt₂.takeSnapshot ctx₂ featureSet context =
      ({ ctx := ctx₂, featureSet, context, snapshot := snapshot.1 }, snapshot.2) := rfl
  cases hcollect : snapshot.2.collectProviderSignals ctx₂ featureSet context
      call.collaborators.providers with
  | error e =>
    refine .inl ⟨e, snapshot.2, ?_, hprepared.collects htaken⟩
    simp only [runCycle, runToPublish, runToDecision, runToSnapshot, hprepare, hcandleRun, hbuild, htake,
      hcollect]
  | ok collected =>
  obtain ⟨signals, ctx₃, rt₃⟩ := collected
  have hcollected : Collects (ctx₂, snapshot.2) (ctx₃, rt₃) :=
    collects_collectProviderSignals hcollect
  cases hdecide : rt₃.decide ctx₃ signals context snapshot.1 with
  | error e =>
    refine .inl ⟨e, rt₃, ?_, hprepared.collects (htaken.trans hcollected)⟩
    simp only [runCycle, runToPublish, runToDecision, runToSnapshot, hprepare, hcandleRun, hbuild, htake,
      hcollect, hdecide]
  | ok made =>
  obtain ⟨decision, ctx₄, rt₄⟩ := made
  obtain ⟨rt₆, hprocess, hdecided⟩ := collects_decide hdecide
  obtain ⟨_, _, hsame, htime, _⟩ := decide_ok hdecide
  cases hexecute : rt₄.sameBarExitAndExecute ctx₄ decision with
  | mk outcome rt₅ =>
  cases outcome with
  | error e =>
    have hsince : Since rt rt₅ := by
      have hjudged := hprepared.collects (htaken.trans (hcollected.trans hprocess))
      have hnoted : Since rt (rt₆.noteDecision ctx₃ decision snapshot.1).2 :=
        hjudged.noteDecision decision snapshot.1
      have hend := (hnoted.collects hdecided).sameBarExitAndExecute ctx₄ decision
      rwa [hexecute] at hend
    refine .inl ⟨e, rt₅, ?_, hsince⟩
    simp only [runCycle, runToPublish, runToDecision, runToSnapshot, hprepare, hcandleRun, hbuild, htake,
      hcollect, hdecide, hexecute]
  | ok ctx₅ =>
  refine .inr ⟨_, _, by
    simp only [runCycle, runToPublish, runToDecision, runToSnapshot, hprepare, hcandleRun, hbuild, htake,
      hcollect, hdecide, hexecute]
    rfl, ctx, rt₁, (ctx₂, marked), (ctx₃, rt₆), (ctx₅, rt₅), {
    prepared := prepareBar_ok hprepare
    reached := hreached
    candle := fun hemits => ?_
    snapshot := rfl
    judged := hcollected.trans hprocess
    ended := hdecided.trans
      (collects_sameBarExitAndExecute (htime.trans hsame.eventTime.symm) hexecute)
    correlationId := rfl
    events := rfl
    published := rfl }⟩
  have hemits' : pre.2.emitEvents = true := hpre.keeps.emitEvents.trans hemits
  have hevent : ∃ e ∈ candle.1.events, e.eventType = .candleReceived := by
    rw [← hcandleRun.2, emitCandleReceived, if_pos hemits']
    exact ⟨_, List.mem_append_right _ (List.mem_singleton_self _), rfl⟩
  obtain ⟨e, he, htype⟩ := hevent
  exact ⟨e, hbuilt.keeps.events he, htype⟩

theorem runCycle_trace {result : CycleResult} (h : rt.runCycle call = (.ok result, rt')) :
    ∃ ctx rt₁ taken decided last, CycleTrace rt call result rt' ctx rt₁ taken decided last := by
  rcases runCycle_cases rt call with ⟨e, _, herror, _⟩ | ⟨_, _, hok, htrace⟩
  · rw [herror] at h
    cases h
  · rw [hok] at h
    cases h
    exact htrace

theorem runCycle_raised {e : PyError} (h : rt.runCycle call = (.error e, rt')) : Since rt rt' := by
  rcases runCycle_cases rt call with ⟨_, _, herror, hsince⟩ | ⟨_, _, hok, _⟩
  · rw [herror] at h
    cases h
    exact hsince
  · rw [hok] at h
    cases h

/-! ## What a cycle publishes -/

theorem Stamped.noteDecision (h : Stamped ctx) (decision : Decision) (snapshot : StateSnapshot) :
    Stamped (rt.noteDecision ctx decision snapshot).1 := by
  unfold PlatformRuntime.noteDecision
  split
  · exact ⟨(h.emit rt _).own, h.execution, h.unmade⟩
  · exact h

/-- The event that notes a decision refers to its snapshot. -/
theorem noteDecision_spec (rt : PlatformRuntime) (ctx : CycleCtx) (decision : Decision)
    (snapshot : StateSnapshot) :
    SameCycle ctx (rt.noteDecision ctx decision snapshot).1 ∧
    rt.uuid ≤ (rt.noteDecision ctx decision snapshot).2.uuid ∧
    madeSnapshots (rt.noteDecision ctx decision snapshot).1.events =
      madeSnapshots ctx.events ++ if rt.emitEvents then [snapshot.snapshotId] else [] := by
  unfold noteDecision
  split
  · exact ⟨⟨rfl, rfl, rfl, rfl, rfl, rfl⟩, Nat.le_add_right _ 1, madeSnapshots_emit⟩
  · exact ⟨.refl ctx, le_rfl, (List.append_nil _).symm⟩

/-- A cycle that refers to its own snapshot, or to none, refers to no other. -/
theorem eq_of_mem_madeSnapshots {events : List EventEnvelope} {emitEvents : Bool} {k id : ℕ}
    (h : madeSnapshots events = if emitEvents then [k] else []) (hid : id ∈ madeSnapshots events) :
    id = k := by
  rw [h] at hid
  split at hid
  · exact List.mem_singleton.mp hid
  · cases hid

/-- What a cycle from `rt` to `rt'` publishes: events of its own correlation id, of which one
refers to the decision snapshot, if the runtime emits events. The snapshot is a new one. -/
structure Publishes (rt : PlatformRuntime) (call : CycleCall) (result : CycleResult)
    (rt' : PlatformRuntime) : Prop where
  correlationId : result.correlationId = (rt.cycleId call).1
  stamped : ∀ e ∈ result.events, e.correlationId = result.correlationId
  made : madeSnapshots result.events =
    if rt.emitEvents then [result.snapshot.snapshotId] else []
  fresh : rt.uuid ≤ result.snapshot.snapshotId
  drawn : result.snapshot.snapshotId < rt'.uuid
  emitEvents : rt'.emitEvents = rt.emitEvents
  published : rt'.published = rt.published ++ result.events

theorem runCycle_publishes {result : CycleResult} (h : rt.runCycle call = (.ok result, rt')) :
    Publishes rt call result rt' := by
  obtain ⟨ctx, rt₁, taken, decided, last, trace⟩ := runCycle_trace h
  obtain ⟨hevents, hexecution, hid, hprepared⟩ := prepareBar_collected trace.prepared.prepared
  have hreached := trace.reached.keeps
  have hjudged := trace.judged.keeps
  have hended := trace.ended.keeps
  obtain ⟨hsame, hle, hnoted⟩ := noteDecision_spec decided.2 decided.1 result.decision
    result.snapshot
  have hstart : Stamped ctx := {
    own := by simp [hevents]
    execution := by simp [hexecution]
    unmade := by rw [hexecution]; rfl }
  have hlast : Stamped last.1 := trace.ended.stamped
    ((trace.judged.stamped (trace.reached.stamped hstart)).noteDecision _ _)
  have hcycleId : last.1.cycleId = ctx.cycleId := hended.sameCycle.cycleId.trans
    (hsame.cycleId.trans (hjudged.sameCycle.cycleId.trans hreached.sameCycle.cycleId))
  have hdraw : Collects (ctx, taken.2) (ctx, (taken.2.snapshot taken.1.cycleId).2) :=
    .single (.draw (Nat.le_add_right _ 1))
  have htaken : Since rt (taken.2.snapshot taken.1.cycleId).2 :=
    (hprepared.collects trace.reached).collects hdraw
  have hdecided : Since rt decided.2 := htaken.collects trace.judged
  have hend : Since rt last.2 := (hdecided.noteDecision _ _).collects trace.ended
  have hsnapshot : result.snapshot.snapshotId = taken.2.uuid := by rw [trace.snapshot]; rfl
  refine ⟨?_, fun e he => ?_, ?_, ?_, ?_, ?_, ?_⟩
  · rw [trace.correlationId, hcycleId, hid]
  · rw [trace.events] at he
    rw [trace.correlationId]
    exact (List.mem_append.mp he).elim (hlast.own e) (hlast.execution e)
  · rw [trace.events, madeSnapshots_append, hlast.unmade, List.append_nil, hended.made, hnoted,
      hjudged.made, hreached.made, hevents, hdecided.emitEvents]
    rfl
  · rw [hsnapshot]
    exact (hprepared.collects trace.reached).uuid
  · rw [trace.published, hsnapshot]
    exact hjudged.uuid.trans (hle.trans hended.uuid)
  · rw [trace.published]
    exact hend.emitEvents
  · rw [trace.published]
    exact congrArg (· ++ result.events) hend.published

end PlatformRuntime

end TradingPlatform
