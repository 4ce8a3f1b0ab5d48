import TradingPlatform.Execution.Effects
import TradingPlatform.Lib.Outcome
import TradingPlatform.Lib.Run
import TradingPlatform.Runtime.Platform

/-!
# The phases of a cycle

`run_cycle` is cut at the phases that change the shared state: the pre-decision pass, the daily
reset with the marking, the count of an approved decision, and the execution. Between them the
runtime only builds events and draws identifiers, which `Quiet` says. One lemma for each stretch
lists its outcomes.
-/

namespace TradingPlatform

namespace PlatformRuntime

/-! ## Stretches without effect on the state -/

/-- The runtimes differ in their event bus and in the identifiers drawn at most. -/
structure Quiet (rt rt' : PlatformRuntime) : Prop where
  decisionEngine : rt'.decisionEngine = rt.decisionEngine
  mode : rt'.mode = rt.mode
  persistFeatures : rt'.persistFeatures = rt.persistFeatures
  emitEvents : rt'.emitEvents = rt.emitEvents
  stateStore : rt'.stateStore = rt.stateStore
  executionEngine : rt'.executionEngine = rt.executionEngine
  clock : rt'.clock = rt.clock
  signalsDay : rt'.signalsDay = rt.signalsDay
  applied : rt'.applied = rt.applied
  uuid : rt.uuid ≤ rt'.uuid

variable {rt rt₁ rt₂ rt₃ rt' : PlatformRuntime} {ctx ctx' : CycleCtx} {call : CycleCall}

theorem Quiet.refl (rt : PlatformRuntime) : Quiet rt rt :=
  ⟨rfl, rfl, rfl, rfl, rfl, rfl, rfl, rfl, rfl, le_rfl⟩

theorem Quiet.trans (h : Quiet rt₁ rt₂) (h' : Quiet rt₂ rt₃) : Quiet rt₁ rt₃ where
  decisionEngine := h'.decisionEngine.trans h.decisionEngine
  mode := h'.mode.trans h.mode
  persistFeatures := h'.persistFeatures.trans h.persistFeatures
  emitEvents := h'.emitEvents.trans h.emitEvents
  stateStore := h'.stateStore.trans h.stateStore
  executionEngine := h'.executionEngine.trans h.executionEngine
  clock := h'.clock.trans h.clock
  signalsDay := h'.signalsDay.trans h.signalsDay
  applied := h'.applied.trans h.applied
  uuid := h.uuid.trans h'.uuid

theorem Quiet.pendingEntries (h : Quiet rt rt') : rt'.pendingEntries = rt.pendingEntries := by
  unfold PlatformRuntime.pendingEntries
  rw [h.executionEngine]

/-- Nothing is queued before the first cycle. -/
theorem pendingEntries_start (setup : RuntimeSetup) : setup.start.pendingEntries = [] := by
  unfold PlatformRuntime.pendingEntries RuntimeSetup.start
  cases setup.execution <;> rfl

theorem draw_eq (rt : PlatformRuntime) {α : Type} {m : StateM ℕ α} {a : α} {u' : ℕ}
    (h : m rt.uuid = (a, u')) : rt.draw m = (a, { rt with uuid := u' }) := by
  unfold draw
  rw [show m.run rt.uuid = (a, u') from h]

theorem quiet_draw {α : Type} {m : StateM ℕ α} (h : rt.uuid ≤ (m rt.uuid).2) :
    Quiet rt (rt.draw m).2 :=
  ⟨rfl, rfl, rfl, rfl, rfl, rfl, rfl, rfl, rfl, h⟩

theorem quiet_published {events : List EventEnvelope} :
    Quiet rt { rt with published := events } :=
  ⟨rfl, rfl, rfl, rfl, rfl, rfl, rfl, rfl, rfl, le_rfl⟩

/-- The contexts are of the same cycle; they may differ in the events collected so far. -/
structure SameCycle (ctx ctx' : CycleCtx) : Prop where
  cycleId : ctx'.cycleId = ctx.cycleId
  symbol : ctx'.symbol = ctx.symbol
  timeframe : ctx'.timeframe = ctx.timeframe
  bar : ctx'.bar = ctx.bar
  eventTime : ctx'.eventTime = ctx.eventTime
  processingTime : ctx'.processingTime = ctx.processingTime

theorem SameCycle.refl (ctx : CycleCtx) : SameCycle ctx ctx := ⟨rfl, rfl, rfl, rfl, rfl, rfl⟩

theorem SameCycle.trans {ctx₁ ctx₂ ctx₃ : CycleCtx} (h : SameCycle ctx₁ ctx₂)
    (h' : SameCycle ctx₂ ctx₃) : SameCycle ctx₁ ctx₃ :=
  ⟨h'.1.trans h.1, h'.2.trans h.2, h'.3.trans h.3, h'.4.trans h.4, h'.5.trans h.5, h'.6.trans h.6⟩

/-- A stretch that only collects events. -/
def OnlyEvents (before after : CycleCtx × PlatformRuntime) : Prop :=
  SameCycle before.1 after.1 ∧ Quiet before.2 after.2

theorem OnlyEvents.refl (p : CycleCtx × PlatformRuntime) : OnlyEvents p p := ⟨.refl _, .refl _⟩

theorem OnlyEvents.trans {p₁ p₂ p₃ : CycleCtx × PlatformRuntime} (h : OnlyEvents p₁ p₂)
    (h' : OnlyEvents p₂ p₃) : OnlyEvents p₁ p₃ := ⟨h.1.trans h'.1, h.2.trans h'.2⟩

theorem onlyEvents_emit {payload : Payload} : OnlyEvents (ctx, rt) (rt.emit ctx payload).2 :=
  ⟨⟨rfl, rfl, rfl, rfl, rfl, rfl⟩, quiet_draw
    (m := buildEnvelope (rt.eventCtx ctx) payload ctx.causationId) (Nat.le_add_right _ 1)⟩

theorem onlyEvents_emitCause {payload : Payload} :
    OnlyEvents (ctx, rt) (rt.emitCause ctx payload) :=
  have hemit : OnlyEvents (ctx, rt) (rt.emit ctx payload).2 := onlyEvents_emit
  ⟨⟨rfl, rfl, rfl, rfl, rfl, rfl⟩, hemit.2⟩

theorem onlyEvents_emitIf {payload : Payload} : OnlyEvents (ctx, rt) (rt.emitIf ctx payload) := by
  unfold emitIf
  split
  · exact onlyEvents_emit
  · exact .refl _

theorem onlyEvents_emitCandleReceived : OnlyEvents (ctx, rt) (rt.emitCandleReceived ctx) := by
  unfold emitCandleReceived
  split
  · exact onlyEvents_emitCause
  · exact .refl _

theorem onlyEvents_emitFeatures {featureSet : FeatureSet} {context : MarketContext} :
    OnlyEvents (ctx, rt) (rt.emitFeatures ctx featureSet context) := by
  let built := rt.emitCause ctx (.featureSetBuilt featureSet.featureSetId
    featureSet.featureVersion featureSet.configHash featureSet.indicators featureSet.flags)
  have hbuilt : OnlyEvents (ctx, rt) built := onlyEvents_emitCause
  have hderived : OnlyEvents built (built.2.emitCause built.1 (.marketContextDerived context)) :=
    onlyEvents_emitCause
  unfold emitFeatures
  split
  · exact hbuilt.trans hderived
  · exact .refl _

theorem onlyEvents_buildFeatures {collaborators : Collaborators}
    {built : FeatureSet × MarketContext}
    (h : rt.buildFeatures ctx collaborators = .ok (built, ctx', rt')) :
    OnlyEvents (ctx, rt) (ctx', rt') := by
  obtain ⟨⟨featureSet, context⟩, _, h⟩ := Except.bind_eq_ok.mp h
  obtain ⟨_, _, h⟩ := Except.bind_eq_ok.mp h
  obtain ⟨_, hemit⟩ := Prod.mk.inj (Except.ok.inj h)
  rw [← hemit]
  exact onlyEvents_emitFeatures

theorem onlyEvents_collectProviderSignals {featureSet : FeatureSet} {context : MarketContext}
    {providers : List SignalProvider} {signals : List StrategySignal}
    (h : rt.collectProviderSignals ctx featureSet context providers = .ok (signals, ctx', rt')) :
    OnlyEvents (ctx, rt) (ctx', rt') := by
  induction providers generalizing ctx rt signals with
  | nil =>
    cases h
    exact .refl _
  | cons provider rest ih =>
    unfold collectProviderSignals at h
    split at h
    · exact onlyEvents_emitIf.trans (ih h)
    · obtain ⟨signal, _, h⟩ := Except.bind_eq_ok.mp h
      obtain ⟨⟨signals', ctx₂, rt₂⟩, hrest, h⟩ := Except.bind_eq_ok.mp h
      cases h
      exact onlyEvents_emitIf.trans (ih hrest)

theorem onlyEvents_emitDecision {decision : Decision} {snapshot : StateSnapshot} :
    OnlyEvents (ctx, rt) (rt.emitDecision ctx decision snapshot) := by
  let made := rt.emitCause ctx
    (.decisionMade decision.decisionId decision.result.value snapshot.snapshotId
      decision.decisionLog)
  let outcome := made.2.emitCause made.1 (outcomePayload decision snapshot)
  have hmade : OnlyEvents (ctx, rt) made := onlyEvents_emitCause
  have houtcome : OnlyEvents made outcome := onlyEvents_emitCause
  simp only [emitDecision]
  split
  · exact (hmade.trans houtcome).trans onlyEvents_emit
  · exact hmade.trans houtcome

/-! ## Applying transitions -/

/-- Transitions with the store each of them leaves. -/
abbrev Trail := List (StateTransitionEvent × InMemoryStateStore)

/-- The trail of applying transitions in order. -/
def trailFrom : InMemoryStateStore → List StateTransitionEvent → Trail
  | _, [] => []
  | s, t :: ts => (t, s.apply t) :: trailFrom (s.apply t) ts

/-- The transitions applied so far, with the store each of them has left. -/
def trail (rt : PlatformRuntime) : Trail :=
  rt.applied.map fun e => (e.1, ⟨e.2.portfolio, e.2.risk⟩)

theorem trailFrom_append {s : InMemoryStateStore} {ts ts' : List StateTransitionEvent} :
    trailFrom s (ts ++ ts') =
      trailFrom s ts ++ trailFrom (Run.exec InMemoryStateStore.apply s ts) ts' := by
  induction ts generalizing s with
  | nil => rfl
  | cons t ts ih => simp only [List.cons_append, trailFrom, ih, Run.exec_cons]

/-- Of the shared state only the store changes, by the transitions `ts`. -/
structure Applied (ts : List StateTransitionEvent) (rt rt' : PlatformRuntime) : Prop where
  decisionEngine : rt'.decisionEngine = rt.decisionEngine
  stateStore : rt'.stateStore = Run.exec InMemoryStateStore.apply rt.stateStore ts
  trail : rt'.trail = rt.trail ++ trailFrom rt.stateStore ts
  clock : rt'.clock = rt.clock
  uuid : rt.uuid ≤ rt'.uuid

theorem Quiet.applied_nil (h : Quiet rt rt') : Applied [] rt rt' where
  decisionEngine := h.decisionEngine
  stateStore := h.stateStore
  trail := by rw [PlatformRuntime.trail, h.applied]; exact (List.append_nil _).symm
  clock := h.clock
  uuid := h.uuid

theorem Applied.trans {ts ts' : List StateTransitionEvent} (h : Applied ts rt₁ rt₂)
    (h' : Applied ts' rt₂ rt₃) : Applied (ts ++ ts') rt₁ rt₃ where
  decisionEngine := h'.decisionEngine.trans h.decisionEngine
  stateStore := by rw [h'.stateStore, h.stateStore, Run.exec_append]
  trail := by rw [h'.trail, h.trail, h.stateStore, trailFrom_append, List.append_assoc]
  clock := h'.clock.trans h.clock
  uuid := h.uuid.trans h'.uuid

/-- What every transition keeps of the store and the trail, all of them keep. -/
theorem Applied.trail_rule {P : InMemoryStateStore → Trail → Prop} {ts : List StateTransitionEvent}
    (h : Applied ts rt rt')
    (hstep : ∀ t ∈ ts, ∀ s hist, P s hist → P (s.apply t) (hist ++ [(t, s.apply t)]))
    (hP : P rt.stateStore rt.trail) : P rt'.stateStore rt'.trail := by
  rw [h.stateStore, h.trail]
  generalize rt.stateStore = s at hP
  generalize rt.trail = hist at hP
  clear h
  induction ts generalizing s hist with
  | nil => simpa [trailFrom] using hP
  | cons t ts ih =>
    have hhead := hstep t List.mem_cons_self s hist hP
    have htail := ih (fun t' ht' => hstep t' (List.mem_cons_of_mem _ ht')) _ _ hhead
    rwa [List.append_assoc] at htail

theorem applied_applyTransition {t : StateTransitionEvent} :
    Applied [t] rt (rt.applyTransition t) where
  decisionEngine := rfl
  stateStore := rfl
  trail := List.map_append
  clock := rfl
  uuid := Nat.le_add_right _ 1

theorem applied_applyTransitions (rt : PlatformRuntime) (ts : List StateTransitionEvent) :
    Applied ts rt (rt.applyTransitions ts) := by
  induction ts generalizing rt with
  | nil => exact (Quiet.refl rt).applied_nil
  | cons t ts ih => exact applied_applyTransition.trans (ih (rt.applyTransition t))

theorem applied_of_engine {ts : List StateTransitionEvent} {engine : SimulatedExecutionEngine}
    {u : ℕ} (h : rt.uuid ≤ u) : Applied ts rt
      ({ rt with uuid := u, executionEngine := some engine }.applyTransitions ts) := by
  have happlied := applied_applyTransitions
    { rt with uuid := u, executionEngine := some engine } ts
  exact ⟨happlied.decisionEngine, happlied.stateStore, happlied.trail, happlied.clock,
    h.trans happlied.uuid⟩

@[simp] theorem executionEngine_applyTransitions {ts : List StateTransitionEvent} :
    (rt.applyTransitions ts).executionEngine = rt.executionEngine := by
  induction ts generalizing rt with
  | nil => rfl
  | cons t ts ih => exact @ih (rt.applyTransition t)

@[simp] theorem signalsDay_applyTransitions {ts : List StateTransitionEvent} :
    (rt.applyTransitions ts).signalsDay = rt.signalsDay := by
  induction ts generalizing rt with
  | nil => rfl
  | cons t ts ih => exact @ih (rt.applyTransition t)

theorem applied_applyNew (rt : PlatformRuntime) (payload : TransitionPayload) (eventTime : ℤ)
    (correlationId : CorrelationId) :
    Applied [⟨rt.uuid, payload, eventTime, correlationId⟩] rt
      (rt.applyNew payload eventTime correlationId) where
  decisionEngine := rfl
  stateStore := rfl
  trail := List.map_append
  clock := rfl
  uuid := Nat.le_add_right _ 2

/-! ## The bar of a cycle -/

/-- A prepared bar is the last row of the frame the provider has returned for the time of the
clock; the clock moves to its timestamp. -/
structure Prepared (call : CycleCall) (rt : PlatformRuntime) (ctx : CycleCtx)
    (rt' : PlatformRuntime) : Prop where
  prepared : rt.prepareBar call = .ok (ctx, rt')
  symbol : ctx.symbol = call.symbol
  timeframe : ctx.timeframe = call.timeframe
  latest : call.collaborators.getLatest call.symbol call.timeframe
    (some (rt.clock.nowEventTime call.collaborators.now)) = .ok ctx.df
  last : ctx.df.getLast? = some ⟨ctx.eventTime, ctx.bar⟩
  clock : rt'.clock = rt.clock.setEventTime ctx.eventTime
  quiet : Quiet rt { rt' with clock := rt.clock }

theorem quiet_cycleId (rt : PlatformRuntime) (call : CycleCall) : Quiet rt (rt.cycleId call).2 := by
  unfold cycleId
  split
  · exact .refl _
  · exact quiet_draw (m := uuid4) (Nat.le_add_right _ 1)

theorem prepareBar_ok (h : rt.prepareBar call = .ok (ctx, rt')) : Prepared call rt ctx rt' := by
  have hquiet : Quiet rt (rt.cycleId call).2 := quiet_cycleId rt call
  have hprepared := h
  obtain ⟨df, hlatest, h⟩ := Except.bind_eq_ok.mp h
  cases hlast : df.getLast? with
  | none =>
    rw [hlast] at h
    cases h
  | some lastRow =>
    rw [hlast] at h
    cases h
    exact {
      prepared := hprepared
      symbol := rfl
      timeframe := rfl
      latest := by rw [← hquiet.clock]; exact hlatest
      last := hlast
      clock := congrArg (Clock.setEventTime lastRow.timestamp) hquiet.clock
      quiet := { hquiet with clock := rfl } }

/-! ## The pre-decision pass -/

/-- The transitions of a pre-decision pass on the bar of `ctx`: the queued entries of its symbol are
filled, and some of the positions open before are closed. -/
structure PreDecisionPass (ctx : CycleCtx) (engine : SimulatedExecutionEngine)
    (s : InMemoryStateStore) (u : ℕ) (opens closes : List StateTransitionEvent)
    (engine' : SimulatedExecutionEngine) (u' : ℕ) : Prop where
  opened : ∃ u₁, SimulatedExecutionEngine.Fills engine.fillModel ctx.bar
      (executionCtx engine ctx ctx.eventTime) u
      (engine.pendingEntries.filter (·.symbol = ctx.symbol)) opens u₁ ∧
    SimulatedExecutionEngine.Exits engine.fillModel (executionCtx engine ctx ctx.eventTime) u₁
      s.portfolio.openPositions closes u'
  queue : SimulatedExecutionEngine.SameQueue
    { engine with pendingEntries := engine.pendingEntries.filter (·.symbol ≠ ctx.symbol) } engine'

theorem preDecisionEvaluate_none (h : rt.executionEngine = none) :
    rt.preDecisionEvaluate ctx = (ctx, rt) := by
  unfold preDecisionEvaluate
  rw [h]

theorem preDecisionEvaluate_some (ctx : CycleCtx) {engine : SimulatedExecutionEngine}
    (h : rt.executionEngine = some engine) : ∃ opens closes engine' u',
    PreDecisionPass ctx engine rt.stateStore (rt.uuid + 1) opens closes engine' u' ∧
    SameCycle ctx (rt.preDecisionEvaluate ctx).1 ∧
    (rt.preDecisionEvaluate ctx).2 =
      { rt with uuid := u', executionEngine := some engine' }.applyTransitions
        (opens ++ closes) := by
  let snap : StateSnapshot × PlatformRuntime := rt.snapshot ctx.cycleId
  obtain ⟨opens, closes, u₁, htransitions, hfills, hexits, hqueue⟩ :=
    SimulatedExecutionEngine.evaluateBar_spec ctx.bar
      (executionCtx engine ctx ctx.eventTime) engine snap.1 none (rt.uuid + 1)
  refine ⟨opens, closes, _, _, ⟨⟨u₁, hfills, hexits⟩, hqueue⟩, ?_, ?_⟩
  · unfold preDecisionEvaluate
    rw [h]
    exact ⟨rfl, rfl, rfl, rfl, rfl, rfl⟩
  · rw [← htransitions]
    unfold preDecisionEvaluate
    rw [h]
    rfl

/-- The pre-decision pass applies what `evaluate_bar` returns for a snapshot of the store. -/
theorem preDecisionEvaluate_eq {engine : SimulatedExecutionEngine}
    (h : rt.executionEngine = some engine) : (rt.preDecisionEvaluate ctx).2 =
      let pass := engine.evaluateBar ctx.bar (rt.snapshot ctx.cycleId).1
        (executionCtx engine ctx ctx.eventTime) none true (rt.uuid + 1)
      { rt with uuid := pass.2, executionEngine := some pass.1.engine }.applyTransitions
        pass.1.transitions := by
  unfold preDecisionEvaluate
  rw [h]
  rfl

theorem sameCycle_preDecisionEvaluate : SameCycle ctx (rt.preDecisionEvaluate ctx).1 := by
  cases h : rt.executionEngine with
  | none =>
    rw [preDecisionEvaluate_none h]
    exact .refl ctx
  | some engine =>
    obtain ⟨_, _, _, _, _, hsame, _⟩ := preDecisionEvaluate_some ctx h
    exact hsame

/-! ## The daily reset and the marking -/

theorem maybeResetDailyRisk_of_none {eventTime : ℤ} {cycleId : CorrelationId}
    (h : rt.signalsDay = none) :
    rt.maybeResetDailyRisk eventTime cycleId = { rt with signalsDay := some (date eventTime) } := by
  unfold maybeResetDailyRisk
  rw [h]

theorem maybeResetDailyRisk_of_same {eventTime : ℤ} {cycleId : CorrelationId}
    (h : rt.signalsDay = some (date eventTime)) :
    rt.maybeResetDailyRisk eventTime cycleId = rt := by
  unfold maybeResetDailyRisk
  rw [h]
  exact if_pos rfl

/-- The risk state has the values of a reset already. -/
def IsReset (s : InMemoryStateStore) : Prop :=
  s.risk.signalsToday = 0 ∧ s.risk.dailyPnl = 0 ∧ s.risk.dailyDrawdownPct = 0 ∧
    s.risk.dailyStartEquity = s.portfolio.equity

/-- On a new date the risk state is reset, unless it has the values of a reset already. -/
theorem maybeResetDailyRisk_of_new {eventTime : ℤ} (cycleId : CorrelationId) {day : ℤ}
    (h : rt.signalsDay = some day) (hday : date eventTime ≠ day) :
    (IsReset rt.stateStore ∧ rt.maybeResetDailyRisk eventTime cycleId =
      { rt with signalsDay := some (date eventTime) }) ∨
    rt.maybeResetDailyRisk eventTime cycleId =
      { rt with signalsDay := some (date eventTime) }.applyNew
        (.riskUpdated (dailyReset rt.stateStore.portfolio.equity)) eventTime cycleId := by
  unfold maybeResetDailyRisk
  rw [h]
  simp only [hday, if_false]
  split
  · next hreset => exact .inl ⟨hreset, rfl⟩
  · exact .inr rfl

theorem maybeResetDailyRisk_cases (rt : PlatformRuntime) (eventTime : ℤ)
    (cycleId : CorrelationId) :
    rt.maybeResetDailyRisk eventTime cycleId = rt ∨
    rt.maybeResetDailyRisk eventTime cycleId = { rt with signalsDay := some (date eventTime) } ∨
    rt.maybeResetDailyRisk eventTime cycleId =
      { rt with signalsDay := some (date eventTime) }.applyNew
        (.riskUpdated (dailyReset rt.stateStore.portfolio.equity)) eventTime cycleId := by
  cases h : rt.signalsDay with
  | none => exact .inr (.inl (maybeResetDailyRisk_of_none h))
  | some day =>
    by_cases hday : date eventTime = day
    · exact .inl (maybeResetDailyRisk_of_same (hday ▸ h))
    · rcases maybeResetDailyRisk_of_new cycleId h hday with ⟨_, hkeep⟩ | hreset
      · exact .inr (.inl hkeep)
      · exact .inr (.inr hreset)

theorem signalsDay_maybeResetDailyRisk (rt : PlatformRuntime) (eventTime : ℤ)
    (cycleId : CorrelationId) :
    (rt.maybeResetDailyRisk eventTime cycleId).signalsDay = some (date eventTime) := by
  cases h : rt.signalsDay with
  | none => rw [maybeResetDailyRisk_of_none h]
  | some day =>
    by_cases hday : date eventTime = day
    · rw [maybeResetDailyRisk_of_same (hday ▸ h), h, hday]
    · rcases maybeResetDailyRisk_of_new cycleId h hday with ⟨_, hkeep⟩ | hnew
      · rw [hkeep]
      · rw [hnew]
        rfl

theorem markToMarket_congr (h : SameCycle ctx ctx') :
    rt.markToMarket ctx' = rt.markToMarket ctx := by
  unfold markToMarket
  rw [h.symbol, h.bar, h.eventTime, h.cycleId]

/-- Marking applies one transition, or none when no position is open. -/
theorem markToMarket_cases (rt : PlatformRuntime) (ctx : CycleCtx) : rt.markToMarket ctx = rt ∨
    rt.markToMarket ctx =
      rt.applyNew (.markToMarket [(ctx.symbol, ctx.bar.close)]) ctx.eventTime ctx.cycleId := by
  unfold markToMarket
  split
  · exact .inl rfl
  · exact .inr rfl

/-! ## Up to the decision snapshot -/

/-- How a cycle gets to its decision snapshot, and where it may raise on the way. -/
theorem runToSnapshot_cases (rt : PlatformRuntime) (call : CycleCall) :
    (∃ e, rt.prepareBar call = .error e ∧ rt.runToSnapshot call = (.error e, rt)) ∨
    ∃ ctx rt₁, Prepared call rt ctx rt₁ ∧
      ((∃ e rt', rt.runToSnapshot call = (.error e, rt') ∧
        Quiet (rt₁.preDecisionEvaluate ctx).2 rt') ∨
      ∃ a rt₂ rt', rt.runToSnapshot call = (.ok a, rt') ∧
        Quiet (rt₁.preDecisionEvaluate ctx).2 rt₂ ∧
        Quiet ((rt₂.maybeResetDailyRisk ctx.eventTime ctx.cycleId).markToMarket ctx) rt' ∧
        SameCycle ctx a.ctx ∧ a.snapshot.portfolio = rt'.stateStore.portfolio ∧
        a.snapshot.risk = rt'.stateStore.risk) := by
  cases hprepare : rt.prepareBar call with
  | error e => exact .inl ⟨e, rfl, by simp only [runToSnapshot, hprepare]⟩
  | ok prepared =>
    obtain ⟨ctx, rt₁⟩ := prepared
    refine .inr ⟨ctx, rt₁, prepareBar_ok hprepare, ?_⟩
    let pre := rt₁.preDecisionEvaluate ctx
    let candle := pre.2.emitCandleReceived pre.1
    have hpre : SameCycle ctx pre.1 := sameCycle_preDecisionEvaluate
    have hcandle : OnlyEvents pre candle := onlyEvents_emitCandleReceived
    have hcandleRun : rt₁.preDecisionEvaluate ctx = pre ∧ pre.2.emitCandleReceived pre.1 = candle :=
      ⟨rfl, rfl⟩
    cases hbuild : candle.2.buildFeatures candle.1 call.collaborators with
    | error e =>
      refine .inl ⟨e, candle.2, ?_, hcandle.2⟩
      simp only [runToSnapshot, hprepare, hcandleRun, hbuild]
    | ok built =>
      obtain ⟨⟨featureSet, context⟩, ctx', rt₂⟩ := built
      have hbuilt : OnlyEvents candle (ctx', rt₂) := onlyEvents_buildFeatures hbuild
      have hsame : SameCycle ctx ctx' := (hpre.trans hcandle.1).trans hbuilt.1
      let marked := (rt₂.maybeResetDailyRisk ctx'.eventTime ctx'.cycleId).markToMarket ctx'
      have hmarked : marked =
          (rt₂.maybeResetDailyRisk ctx.eventTime ctx.cycleId).markToMarket ctx := by
        rw [← hsame.eventTime, ← hsame.cycleId]
        exact markToMarket_congr hsame
      have hrun : rt.runToSnapshot call =
          (.ok (rt₂.takeSnapshot ctx' featureSet context).1,
            (rt₂.takeSnapshot ctx' featureSet context).2) := by
        simp only [runToSnapshot, hprepare, hcandleRun, hbuild]
      refine .inr ⟨_, rt₂, _, hrun, hcandle.2.trans hbuilt.2, ?_, hsame, rfl, rfl⟩
      rw [← hmarked]
      exact quiet_draw (m := marked.stateStore.snapshot (some ctx'.cycleId)) (Nat.le_add_right _ 1)

/-! ## The decision -/

theorem countApproved_congr {decision : Decision} {snapshot : StateSnapshot}
    (h : SameCycle ctx ctx') :
    rt.countApproved ctx' decision snapshot = rt.countApproved ctx decision snapshot := by
  unfold countApproved
  rw [h.eventTime, h.cycleId]

theorem decide_ok {signals : List StrategySignal} {context : MarketContext}
    {snapshot : StateSnapshot} {decision : Decision}
    (h : rt.decide ctx signals context snapshot = .ok (decision, ctx', rt')) :
    ∃ rt₁, Quiet rt rt₁ ∧ SameCycle ctx ctx' ∧ decision.eventTime = ctx.eventTime ∧
      (∃ c u, (rt.decisionEngine.process signals context snapshot c u).1 = .ok decision) ∧
      rt' = rt₁.countApproved ctx decision snapshot := by
  let process := rt.decisionEngine.process signals context snapshot (decisionCtx ctx)
  obtain ⟨hle, htime⟩ := EngineConfig.process_spec rt.decisionEngine signals context snapshot
    (decisionCtx ctx) rt.uuid
  have hdraw : Quiet rt (rt.draw process).2 := quiet_draw hle
  obtain ⟨decision', hprocess, h⟩ := Except.bind_eq_ok (x := (rt.draw process).1).mp h
  have hevents : OnlyEvents (ctx, (rt.draw process).2)
      (if (rt.draw process).2.emitEvents then
        (rt.draw process).2.emitDecision ctx decision' snapshot
      else (ctx, (rt.draw process).2)) := by
    split
    · exact onlyEvents_emitDecision
    · exact .refl _
  cases h
  refine ⟨_, hdraw.trans hevents.2, hevents.1, htime _ hprocess, ⟨_, _, hprocess⟩, ?_⟩
  exact countApproved_congr hevents.1

theorem runToDecision_of_error {e : PyError} (h : rt.runToSnapshot call = (.error e, rt')) :
    rt.runToDecision call = (.error e, rt') := by
  simp only [runToDecision, h]

/-- How a cycle that has its decision snapshot gets to its decision, or raises on the way. -/
theorem runToDecision_of_ok {a : AtSnapshot} (h : rt.runToSnapshot call = (.ok a, rt₁)) :
    (∃ e rt', rt.runToDecision call = (.error e, rt') ∧ Quiet rt₁ rt') ∨
    ∃ d rt₂, rt.runToDecision call = (.ok d, rt₂.countApproved a.ctx d.decision a.snapshot) ∧
      Quiet rt₁ rt₂ ∧ d.snapshot = a.snapshot ∧ SameCycle a.ctx d.ctx ∧
      d.decision.eventTime = a.ctx.eventTime ∧
      ∃ c u, (rt₁.decisionEngine.process d.signals a.context a.snapshot c u).1 =
        .ok d.decision := by
  cases hcollect : rt₁.collectProviderSignals a.ctx a.featureSet a.context
      call.collaborators.providers with
  | error e => exact .inl ⟨e, rt₁, by simp only [runToDecision, h, hcollect], .refl rt₁⟩
  | ok collected =>
    obtain ⟨signals, ctx₂, rt₂⟩ := collected
    have hcollected : OnlyEvents (a.ctx, rt₁) (ctx₂, rt₂) :=
      onlyEvents_collectProviderSignals hcollect
    cases hdecide : rt₂.decide ctx₂ signals a.context a.snapshot with
    | error e =>
      exact .inl ⟨e, rt₂, by simp only [runToDecision, h, hcollect, hdecide], hcollected.2⟩
    | ok decided =>
      obtain ⟨decision, ctx₃, rt₃⟩ := decided
      obtain ⟨rt₄, hquiet, hsame, htime, ⟨c, u, hprocess⟩, hcount⟩ := decide_ok hdecide
      rw [countApproved_congr hcollected.1] at hcount
      refine .inr ⟨{ a with ctx := ctx₃, signals, decision }, rt₄, ?_, hcollected.2.trans hquiet,
        rfl, hcollected.1.trans hsame, htime.trans hcollected.1.eventTime, c, u, ?_⟩
      · simp only [runToDecision, h, hcollect, hdecide, hcount]
      · rwa [← hcollected.2.decisionEngine]

/-! ## The execution -/

/-- What `_same_bar_exit_and_execute` does for an approved decision. The same-bar exits of the open
positions take the runtime to `exited`; `execute` then runs on the state they leave. -/
structure ExecutionPass (ctx : CycleCtx) (decision : Decision) (engine : SimulatedExecutionEngine)
    (rt : PlatformRuntime) (exits : List StateTransitionEvent) (engine' : SimulatedExecutionEngine)
    (exited rt' : PlatformRuntime) : Prop where
  exits : ∃ u u', rt.uuid ≤ u ∧ SimulatedExecutionEngine.Exits engine.fillModel
      (executionCtx engine ctx ctx.eventTime) u rt.stateStore.portfolio.openPositions exits u' ∧
    exited = { rt with uuid := u', executionEngine := some engine' }.applyTransitions exits
  queue : SimulatedExecutionEngine.SameQueue engine engine'
  execution : Quiet exited rt' ∨ ∃ snapshot u u' pass, exited.uuid ≤ u ∧
    snapshot.portfolio = exited.stateStore.portfolio ∧ snapshot.risk = exited.stateStore.risk ∧
    engine'.execute decision snapshot ctx.bar
      (executionCtx engine' ctx decision.eventTime) u = (.ok pass, u') ∧
    rt' = { exited with uuid := u', executionEngine := some pass.engine }.applyTransitions
      pass.transitions

theorem sameBarExitAndExecute_idle {decision : Decision}
    (h : decision.isApproved = false ∨ rt.executionEngine = none) :
    rt.sameBarExitAndExecute ctx decision = (.ok ctx, rt) := by
  unfold sameBarExitAndExecute
  rcases h with h | h
  · rw [h]
  · rw [h]
    split
    · next hnone => cases hnone
    · rfl

theorem sameBarExit_spec (ctx : CycleCtx) {engine : SimulatedExecutionEngine}
    (signal : Option FinalSignal) (h : rt.executionEngine = some engine) :
    ∃ exits engine' u u', rt.uuid ≤ u ∧
      SimulatedExecutionEngine.Exits engine.fillModel (executionCtx engine ctx ctx.eventTime) u
        rt.stateStore.portfolio.openPositions exits u' ∧
      SimulatedExecutionEngine.SameQueue engine engine' ∧
      SameCycle ctx (rt.sameBarExit ctx engine signal).1 ∧
      (rt.sameBarExit ctx engine signal).2 =
        { rt with uuid := u', executionEngine := some engine' }.applyTransitions exits := by
  have hidle : rt = { rt with uuid := rt.uuid, executionEngine := some engine } := by rw [← h]
  cases hopen : rt.stateStore.portfolio.openPositions with
  | nil =>
    refine ⟨[], engine, rt.uuid, rt.uuid, le_rfl, .nil, .refl engine, ?_, ?_⟩
    · simp only [sameBarExit, hopen]
      exact .refl ctx
    · simp only [sameBarExit, hopen]
      exact hidle
  | cons position rest =>
    cases signal with
    | none =>
      refine ⟨[], engine, rt.uuid, rt.uuid, le_rfl, .all_kept _ _ _, .refl engine, ?_, ?_⟩
      · simp only [sameBarExit, hopen]
        exact .refl ctx
      · simp only [sameBarExit, hopen]
        exact hidle
    | some signal =>
      obtain ⟨hexits, hqueue⟩ := SimulatedExecutionEngine.evaluateBar_exit_spec ctx.bar
        (executionCtx engine ctx ctx.eventTime) engine (rt.snapshot ctx.cycleId).1
        (some signal.side) (rt.uuid + 1)
      rw [← hopen]
      refine ⟨_, _, rt.uuid + 1, _, Nat.le_add_right _ 1, hexits, hqueue, ?_, ?_⟩
      · simp only [sameBarExit, hopen]
        exact ⟨rfl, rfl, rfl, rfl, rfl, rfl⟩
      · simp only [sameBarExit, hopen]
        rfl

/-- With a position open, a signal has `evaluate_bar` look for positions it opposes. -/
theorem sameBarExit_eq (ctx : CycleCtx) (engine : SimulatedExecutionEngine) (signal : FinalSignal)
    (h : rt.stateStore.portfolio.openPositions ≠ []) :
    (rt.sameBarExit ctx engine (some signal)).2 =
      let pass := engine.evaluateBar ctx.bar (rt.snapshot ctx.cycleId).1
        (executionCtx engine ctx ctx.eventTime) (some signal.side) false (rt.uuid + 1)
      { rt with uuid := pass.2, executionEngine := some pass.1.engine }.applyTransitions
        pass.1.transitions := by
  cases hopen : rt.stateStore.portfolio.openPositions with
  | nil => exact absurd hopen h
  | cons position rest =>
    simp only [sameBarExit, hopen]
    rfl

theorem sameBarExit_idle (ctx : CycleCtx) (engine : SimulatedExecutionEngine)
    (signal : Option FinalSignal)
    (h : signal = none ∨ rt.stateStore.portfolio.openPositions = []) :
    (rt.sameBarExit ctx engine signal).2 = rt := by
  rcases h with rfl | h
  · unfold sameBarExit
    cases rt.stateStore.portfolio.openPositions <;> rfl
  · simp only [sameBarExit, h]

variable (rt ctx) in
/-- What an execution does: nothing at all, or one pass of the engine on the current books. -/
theorem executeDecision_spec (engine : SimulatedExecutionEngine) (decision : Decision) :
    Quiet rt (rt.executeDecision ctx engine decision).2 ∨
    ∃ snapshot u u' pass, rt.uuid ≤ u ∧ snapshot.portfolio = rt.stateStore.portfolio ∧
      snapshot.risk = rt.stateStore.risk ∧
      engine.execute decision snapshot ctx.bar (executionCtx engine ctx decision.eventTime) u =
        (.ok pass, u') ∧
      (rt.executeDecision ctx engine decision).2 =
        { rt with uuid := u', executionEngine := some pass.engine }.applyTransitions
          pass.transitions := by
  let snapshot := rt.snapshot ctx.cycleId
  cases hrun : engine.execute decision snapshot.1 ctx.bar
      (executionCtx engine ctx decision.eventTime) snapshot.2.uuid with
  | mk outcome u' =>
  have hle : rt.uuid ≤ snapshot.2.uuid := Nat.le_add_right _ 1
  have hdraw := draw_eq snapshot.2 hrun
  have hsnapshot : rt.snapshot ctx.cycleId = (snapshot.1, snapshot.2) := rfl
  cases outcome with
  | error e =>
    left
    unfold executeDecision
    simp only [hsnapshot, hdraw]
    exact ⟨rfl, rfl, rfl, rfl, rfl, rfl, rfl, rfl, rfl,
      hle.trans (SimulatedExecutionEngine.execute_cases hrun).1⟩
  | ok pass =>
    refine .inr ⟨snapshot.1, snapshot.2.uuid, u', pass, hle, rfl, rfl, hrun, ?_⟩
    unfold executeDecision
    simp only [hsnapshot, hdraw]
    rfl

/-- An approved decision is executed on what the same-bar exit leaves. -/
theorem sameBarExitAndExecute_eq (ctx : CycleCtx) {decision : Decision}
    {engine : SimulatedExecutionEngine} (happroved : decision.isApproved = true)
    (hengine : rt.executionEngine = some engine) : ∃ engine',
    (rt.sameBarExit ctx engine decision.finalSignal).2.executionEngine = some engine' ∧
    rt.sameBarExitAndExecute ctx decision =
      (rt.sameBarExit ctx engine decision.finalSignal).2.executeDecision
        (rt.sameBarExit ctx engine decision.finalSignal).1 engine' decision := by
  obtain ⟨exits, engine', u, u', _, _, _, _, hexited⟩ :=
    sameBarExit_spec ctx decision.finalSignal hengine
  let exit := rt.sameBarExit ctx engine decision.finalSignal
  have hengine' : exit.2.executionEngine = some engine' := by
    rw [hexited, executionEngine_applyTransitions]
  refine ⟨engine', hengine', ?_⟩
  unfold sameBarExitAndExecute
  rw [happroved, hengine]
  change exit.2.executeDecision exit.1 (exit.2.executionEngine.getD engine) decision = _
  rw [hengine', Option.getD_some]

theorem sameBarExitAndExecute_some (ctx : CycleCtx) {decision : Decision}
    {engine : SimulatedExecutionEngine}
    (happroved : decision.isApproved = true) (hengine : rt.executionEngine = some engine) :
    ∃ exits engine' exited, ExecutionPass ctx decision engine rt exits engine' exited
      (rt.sameBarExitAndExecute ctx decision).2 := by
  obtain ⟨exits, engine', u, u', hle, hexits, hqueue, hsame, hexited⟩ :=
    sameBarExit_spec ctx decision.finalSignal hengine
  let exit := rt.sameBarExit ctx engine decision.finalSignal
  have hengine' : exit.2.executionEngine = some engine' := by
    rw [hexited, executionEngine_applyTransitions]
  have hrun : rt.sameBarExitAndExecute ctx decision =
      exit.2.executeDecision exit.1 engine' decision := by
    unfold sameBarExitAndExecute
    rw [happroved, hengine]
    change exit.2.executeDecision exit.1 (exit.2.executionEngine.getD engine) decision = _
    rw [hengine', Option.getD_some]
  have hctx : executionCtx engine' exit.1 decision.eventTime =
      executionCtx engine' ctx decision.eventTime := by
    unfold executionCtx
    rw [hsame.processingTime, hsame.cycleId, hsame.symbol, hsame.timeframe]
  refine ⟨exits, engine', exit.2, ⟨u, u', hle, hexits, hexited⟩, hqueue, ?_⟩
  rw [hrun, ← hctx, ← hsame.bar]
  exact executeDecision_spec ..

/-- Without an approved decision and an engine nothing happens. -/
theorem sameBarExitAndExecute_cases (rt : PlatformRuntime) (ctx : CycleCtx)
    (decision : Decision) :
    rt.sameBarExitAndExecute ctx decision = (.ok ctx, rt) ∨
    ∃ engine exits engine' exited, rt.executionEngine = some engine ∧
      ExecutionPass ctx decision engine rt exits engine' exited
        (rt.sameBarExitAndExecute ctx decision).2 := by
  cases hengine : rt.executionEngine with
  | none => exact .inl (sameBarExitAndExecute_idle (.inr hengine))
  | some engine =>
    cases happroved : decision.isApproved with
    | false => exact .inl (sameBarExitAndExecute_idle (.inl happroved))
    | true =>
      obtain ⟨exits, engine', exited, hpass⟩ :=
        sameBarExitAndExecute_some ctx happroved hengine
      exact .inr ⟨engine, exits, engine', exited, rfl, hpass⟩

theorem step_of_error {e : PyError} (h : rt.runToDecision call = (.error e, rt')) :
    rt.step call = rt' := by
  simp only [step, runCycle, runToPublish, h]

/-- A cycle that has made its decision ends with the execution of the decision. -/
theorem step_of_ok {d : AtDecision} (h : rt.runToDecision call = (.ok d, rt₁)) :
    Quiet (rt₁.sameBarExitAndExecute d.ctx d.decision).2 (rt.step call) := by
  cases hexecute : rt₁.sameBarExitAndExecute d.ctx d.decision with
  | mk outcome rt₂ =>
  cases outcome with
  | error e =>
    simp only [step, runCycle, runToPublish, h, hexecute]
    exact .refl rt₂
  | ok ctx =>
    simp only [step, runCycle, runToPublish, h, hexecute]
    exact quiet_published

/-! ## The transitions of the two passes -/

/-- The transitions of a pre-decision pass. -/
theorem preDecisionEvaluate_applied (rt : PlatformRuntime) (ctx : CycleCtx) : ∃ opens closes,
    Applied (opens ++ closes) rt (rt.preDecisionEvaluate ctx).2 ∧
    opens.length = (rt.pendingEntries.filter (·.symbol = ctx.symbol)).length ∧
    (∀ t ∈ opens, t.IsOpening ∧ t.eventTime = ctx.eventTime) ∧
    (∀ t ∈ closes, t.IsClosing ∧ t.eventTime = ctx.eventTime) ∧
    (rt.preDecisionEvaluate ctx).2.signalsDay = rt.signalsDay ∧
    (rt.stateStore.portfolio.openPositions = [] → closes = []) := by
  cases h : rt.executionEngine with
  | none =>
    rw [preDecisionEvaluate_none h]
    refine ⟨[], [], (Quiet.refl rt).applied_nil, ?_, ?_, ?_, rfl, fun _ => rfl⟩
    · simp [pendingEntries, h]
    · exact fun t ht => absurd ht List.not_mem_nil
    · exact fun t ht => absurd ht List.not_mem_nil
  | some engine =>
    obtain ⟨opens, closes, engine', u', hpass, _, hrt⟩ := preDecisionEvaluate_some ctx h
    obtain ⟨⟨u₁, hfills, hexits⟩, _⟩ := hpass
    obtain ⟨hlen, hopens⟩ := hfills.isOpening
    rw [hrt]
    refine ⟨opens, closes, ?_, ?_, hopens, hexits.isClosing, signalsDay_applyTransitions, ?_⟩
    · exact applied_of_engine
        ((Nat.le_add_right _ 1).trans (hfills.le_uuid.trans hexits.le_uuid))
    · rw [hlen]
      simp only [pendingEntries, h]
    · intro hnil
      rw [hnil] at hexits
      cases hexits
      rfl

/-- The transitions of a pre-decision pass are trades at the time of the bar. -/
theorem preDecisionEvaluate_trades (rt : PlatformRuntime) (ctx : CycleCtx) : ∃ ts,
    Applied ts rt (rt.preDecisionEvaluate ctx).2 ∧
    (∀ t ∈ ts, t.IsTrade ∧ t.eventTime = ctx.eventTime) ∧
    (rt.preDecisionEvaluate ctx).2.signalsDay = rt.signalsDay ∧
    (rt.pendingEntries = [] → rt.stateStore.portfolio.openPositions = [] → ts = []) := by
  obtain ⟨opens, closes, happlied, hlen, hopens, hcloses, hday, hnil⟩ :=
    preDecisionEvaluate_applied rt ctx
  refine ⟨opens ++ closes, happlied, fun t ht => ?_, hday, fun hpending hflat => ?_⟩
  · rcases List.mem_append.mp ht with ht | ht
    · exact ⟨.inl (hopens t ht).1, (hopens t ht).2⟩
    · exact ⟨.inr (hcloses t ht).1, (hcloses t ht).2⟩
  · rw [hpending] at hlen
    rw [hnil hflat, List.length_eq_zero_iff.mp hlen, List.nil_append]

/-- The pre-decision pass drains the entries of the symbol. -/
theorem pendingEntries_preDecisionEvaluate : (rt.preDecisionEvaluate ctx).2.pendingEntries =
    rt.pendingEntries.filter (·.symbol ≠ ctx.symbol) := by
  cases h : rt.executionEngine with
  | none =>
    rw [preDecisionEvaluate_none h]
    simp [pendingEntries, h]
  | some engine =>
    obtain ⟨opens, closes, engine', u', hpass, _, hrt⟩ := preDecisionEvaluate_some ctx h
    rw [hrt]
    simp only [pendingEntries, executionEngine_applyTransitions, h]
    exact hpass.queue.pendingEntries

/-- The transitions of an execution: exits, and at most one entry, made below the position limit. -/
theorem sameBarExitAndExecute_applied (rt : PlatformRuntime) (ctx : CycleCtx)
    (decision : Decision) : ∃ exits entry,
    Applied (exits ++ entry) rt (rt.sameBarExitAndExecute ctx decision).2 ∧
    (∀ t ∈ exits, t.IsClosing ∧ t.eventTime = ctx.eventTime) ∧
    (entry = [] ∨ ∃ t, entry = [t] ∧ t.IsOpening ∧ t.eventTime = decision.eventTime ∧
      let s := Run.exec InMemoryStateStore.apply rt.stateStore exits
      (s.portfolio.openPositions.length : ℤ) < s.risk.limits.maxOpenPositions) ∧
    (rt.sameBarExitAndExecute ctx decision).2.signalsDay = rt.signalsDay := by
  rcases sameBarExitAndExecute_cases rt ctx decision with hidle |
    ⟨engine, exits, engine', exited, _, ⟨u, u', hle, hclosed, hexited⟩, _, hexecution⟩
  · rw [hidle]
    exact ⟨[], [], (Quiet.refl rt).applied_nil, fun t ht => absurd ht List.not_mem_nil, .inl rfl,
      rfl⟩
  · have hexits : Applied exits rt exited := by
      rw [hexited]
      exact applied_of_engine (hle.trans hclosed.le_uuid)
    have hday : exited.signalsDay = rt.signalsDay := by
      rw [hexited, signalsDay_applyTransitions]
    rcases hexecution with hquiet | ⟨snapshot, v, v', pass, hlev, hportfolio, hrisk, hrun, hrt⟩
    · exact ⟨exits, [], hexits.trans hquiet.applied_nil, hclosed.isClosing, .inl rfl,
        hquiet.signalsDay.trans hday⟩
    · obtain ⟨hlerun, hentry⟩ := SimulatedExecutionEngine.execute_transitions hrun
      refine ⟨exits, pass.transitions, ?_, hclosed.isClosing, ?_, ?_⟩
      · rw [hrt]
        exact hexits.trans (applied_of_engine (hlev.trans hlerun))
      · rcases hentry with hnone | ⟨hlimit, _, _, _, _, _, _, _, _, _, hone, _⟩
        · exact .inl hnone
        · refine .inr ⟨_, hone, ?_, rfl, ?_⟩
          · obtain ⟨fill, _, _, hpay⟩ := SimulatedExecutionEngine.openPosition_payload ..
            exact ⟨_, fill, _, hpay⟩
          · rwa [hportfolio, hrisk, hexits.stateStore] at hlimit
      · rw [hrt, signalsDay_applyTransitions]
        exact hday

/-- The transitions of an execution are trades at the time of the bar. -/
theorem sameBarExitAndExecute_trades (rt : PlatformRuntime) (ctx : CycleCtx) {decision : Decision}
    (htime : decision.eventTime = ctx.eventTime) : ∃ ts,
    Applied ts rt (rt.sameBarExitAndExecute ctx decision).2 ∧
    (∀ t ∈ ts, t.IsTrade ∧ t.eventTime = ctx.eventTime) ∧
    (rt.sameBarExitAndExecute ctx decision).2.signalsDay = rt.signalsDay := by
  obtain ⟨exits, entry, happlied, hexits, hentry, hday⟩ :=
    sameBarExitAndExecute_applied rt ctx decision
  refine ⟨exits ++ entry, happlied, fun t ht => ?_, hday⟩
  rcases List.mem_append.mp ht with ht | ht
  · exact ⟨.inr (hexits t ht).1, (hexits t ht).2⟩
  · rcases hentry with rfl | ⟨t', rfl, hopening, hdecided, _⟩
    · cases ht
    · obtain rfl := List.mem_singleton.mp ht
      exact ⟨.inl hopening, hdecided.trans htime⟩

/-- Between the passes the runtime only keeps its books. -/
def Books (rt rt' : PlatformRuntime) : Prop :=
  ∃ ts, Applied ts rt rt' ∧ ∀ t ∈ ts, t.IsBookkeeping

theorem Books.of_applied_nil (h : Applied [] rt rt') : Books rt rt' :=
  ⟨[], h, fun _ ht => absurd ht List.not_mem_nil⟩

theorem books_maybeResetDailyRisk (rt : PlatformRuntime) (eventTime : ℤ)
    (cycleId : CorrelationId) : Books rt (rt.maybeResetDailyRisk eventTime cycleId) := by
  have hday : Applied [] rt { rt with signalsDay := some (date eventTime) } :=
    ⟨rfl, rfl, (List.append_nil _).symm, rfl, le_rfl⟩
  rcases maybeResetDailyRisk_cases rt eventTime cycleId with h | h | h <;> rw [h]
  · exact .of_applied_nil (Quiet.refl rt).applied_nil
  · exact .of_applied_nil hday
  · refine ⟨_, hday.trans (applied_applyNew ..), fun t ht => ?_⟩
    rw [List.nil_append, List.mem_singleton] at ht
    exact .inl ⟨_, congrArg StateTransitionEvent.payload ht, rfl, rfl, rfl⟩

theorem books_markToMarket (rt : PlatformRuntime) (ctx : CycleCtx) :
    Books rt (rt.markToMarket ctx) := by
  rcases markToMarket_cases rt ctx with h | h <;> rw [h]
  · exact .of_applied_nil (Quiet.refl rt).applied_nil
  · refine ⟨_, applied_applyNew .., fun t ht => ?_⟩
    exact .inr ⟨_, congrArg StateTransitionEvent.payload (List.mem_singleton.mp ht)⟩

theorem books_countApproved (rt : PlatformRuntime) (ctx : CycleCtx) (decision : Decision)
    (snapshot : StateSnapshot) : Books rt (rt.countApproved ctx decision snapshot) := by
  unfold countApproved
  split
  · refine ⟨_, applied_applyNew .., fun t ht => ?_⟩
    exact .inl ⟨_, congrArg StateTransitionEvent.payload (List.mem_singleton.mp ht), rfl, rfl, rfl⟩
  · exact .of_applied_nil (Quiet.refl rt).applied_nil

/-! ## The engine over the phases that only keep the books -/

theorem executionEngine_maybeResetDailyRisk {eventTime : ℤ} {cycleId : CorrelationId} :
    (rt.maybeResetDailyRisk eventTime cycleId).executionEngine = rt.executionEngine := by
  rcases maybeResetDailyRisk_cases rt eventTime cycleId with h | h | h <;> rw [h]
  rfl

theorem executionEngine_markToMarket :
    (rt.markToMarket ctx).executionEngine = rt.executionEngine := by
  rcases markToMarket_cases rt ctx with h | h <;> rw [h]
  rfl

theorem executionEngine_countApproved {decision : Decision} {snapshot : StateSnapshot} :
    (rt.countApproved ctx decision snapshot).executionEngine = rt.executionEngine := by
  unfold countApproved
  split <;> rfl

/-! ## The rule of a cycle -/

/-- What holds at the decision snapshot of a cycle and is kept up to the execution, which turns it
into `J`, gives `J` after the cycle. -/
theorem step_rule_of_snapshot {I J : PlatformRuntime → Prop} {a : AtSnapshot}
    (hsnap : rt.runToSnapshot call = (.ok a, rt'))
    (quiet : ∀ r r', Quiet r r' → I r → I r') (quiet' : ∀ r r', Quiet r r' → J r → J r')
    (count : ∀ decision r, I r → I (r.countApproved a.ctx decision a.snapshot))
    (stop : ∀ r, I r → J r)
    (execute : ∀ ctx decision r, SameCycle a.ctx ctx → decision.eventTime = a.ctx.eventTime →
      I r → J (r.sameBarExitAndExecute ctx decision).2) (h : I rt') : J (rt.step call) := by
  rcases runToDecision_of_ok hsnap with ⟨e, rt₁, hdec, hquiet⟩ |
    ⟨d, rt₁, hdec, hquiet, _, hsame, htime, _⟩
  · rw [step_of_error hdec]
    exact stop _ (quiet _ _ hquiet h)
  · have hcount := count d.decision _ (quiet _ _ hquiet h)
    exact quiet' _ _ (step_of_ok hdec) (execute d.ctx d.decision _ hsame htime hcount)

/-- What the pre-decision pass of a cycle establishes and every phase up to the execution keeps,
and the execution turns into `J`, gives `J` after the cycle; a cycle that gets no bar leaves the
runtime as it is. -/
theorem step_rule_post {I J : CycleCtx → PlatformRuntime → Prop} (rt : PlatformRuntime)
    (call : CycleCall) (quiet : ∀ ctx r r', Quiet r r' → I ctx r → I ctx r')
    (quiet' : ∀ ctx r r', Quiet r r' → J ctx r → J ctx r')
    (pre : ∀ ctx rt₁, Prepared call rt ctx rt₁ → I ctx (rt₁.preDecisionEvaluate ctx).2)
    (reset : ∀ ctx r, I ctx r → I ctx (r.maybeResetDailyRisk ctx.eventTime ctx.cycleId))
    (mark : ∀ ctx r, I ctx r → I ctx (r.markToMarket ctx))
    (count : ∀ ctx ctx' decision snapshot r, SameCycle ctx ctx' → I ctx r →
      I ctx (r.countApproved ctx' decision snapshot)) (stop : ∀ ctx r, I ctx r → J ctx r)
    (execute : ∀ ctx ctx' decision r, SameCycle ctx ctx' → decision.eventTime = ctx.eventTime →
      I ctx r → J ctx (r.sameBarExitAndExecute ctx' decision).2) :
    (∃ e, rt.prepareBar call = .error e ∧ rt.step call = rt) ∨
      ∃ ctx rt₁, Prepared call rt ctx rt₁ ∧ J ctx (rt.step call) := by
  rcases runToSnapshot_cases rt call with ⟨e, hprep, hsnap⟩ | ⟨ctx, rt₁, hprep, hsnap⟩
  · exact .inl ⟨e, hprep, step_of_error (runToDecision_of_error hsnap)⟩
  · refine .inr ⟨ctx, rt₁, hprep, ?_⟩
    have hpre := pre ctx rt₁ hprep
    rcases hsnap with ⟨e, rt', hsnap, hquiet⟩ | ⟨a, rt₂, rt₃, hsnap, hquiet₂, hquiet₃, hsame, _⟩
    · rw [step_of_error (runToDecision_of_error hsnap)]
      exact stop ctx _ (quiet ctx _ _ hquiet hpre)
    · refine step_rule_of_snapshot hsnap (quiet ctx) (quiet' ctx) (fun decision r => ?_) (stop ctx)
        (fun ctx' decision r hsame' htime => ?_) ?_
      · exact count ctx a.ctx decision a.snapshot r hsame
      · exact execute ctx ctx' decision r (hsame.trans hsame') (htime.trans hsame.eventTime)
      · exact quiet ctx _ _ hquiet₃ (mark ctx _ (reset ctx _ (quiet ctx _ _ hquiet₂ hpre)))

/-- What the pre-decision pass of a cycle establishes and every later phase keeps holds after the
cycle. -/
theorem step_rule {I : CycleCtx → PlatformRuntime → Prop} (rt : PlatformRuntime) (call : CycleCall)
    (quiet : ∀ ctx r r', Quiet r r' → I ctx r → I ctx r')
    (pre : ∀ ctx rt₁, Prepared call rt ctx rt₁ → I ctx (rt₁.preDecisionEvaluate ctx).2)
    (reset : ∀ ctx r, I ctx r → I ctx (r.maybeResetDailyRisk ctx.eventTime ctx.cycleId))
    (mark : ∀ ctx r, I ctx r → I ctx (r.markToMarket ctx))
    (count : ∀ ctx ctx' decision snapshot r, SameCycle ctx ctx' → I ctx r →
      I ctx (r.countApproved ctx' decision snapshot))
    (execute : ∀ ctx ctx' decision r, SameCycle ctx ctx' → decision.eventTime = ctx.eventTime →
      I ctx r → I ctx (r.sameBarExitAndExecute ctx' decision).2) :
    (∃ e, rt.prepareBar call = .error e ∧ rt.step call = rt) ∨
      ∃ ctx rt₁, Prepared call rt ctx rt₁ ∧ I ctx (rt.step call) :=
  step_rule_post rt call quiet quiet pre reset mark count (fun _ _ => id) execute

end PlatformRuntime

/-! ## The bars of a run -/

/-- A runtime with a record of the bars its cycles have run on: symbol and timestamp, the newest
first. -/
structure WatchedRuntime where
  runtime : PlatformRuntime
  bars : List (String × ℤ) := []

namespace WatchedRuntime

open PlatformRuntime

/-- Run a cycle and record its bar, if it gets one. -/
def step (w : WatchedRuntime) (call : CycleCall) : WatchedRuntime where
  runtime := w.runtime.step call
  bars := match w.runtime.prepareBar call with
    | .ok (ctx, _) => (ctx.symbol, ctx.eventTime) :: w.bars
    | .error _ => w.bars

variable {w : WatchedRuntime} {call : CycleCall} {ctx : CycleCtx} {rt₁ : PlatformRuntime}

theorem bars_step_of_error {e : PyError} (h : w.runtime.prepareBar call = .error e) :
    (w.step call).bars = w.bars := by simp only [WatchedRuntime.step, h]

theorem bars_step (h : Prepared call w.runtime ctx rt₁) :
    (w.step call).bars = (ctx.symbol, ctx.eventTime) :: w.bars := by
  simp only [WatchedRuntime.step, h.prepared]

end WatchedRuntime

end TradingPlatform
