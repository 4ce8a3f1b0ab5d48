import TradingPlatform.Runtime.Collecting
import TradingPlatform.Runtime.Coupling

/-!
# The events of a cycle report its transitions

A cycle that returns publishes the events it has collected. The runtime's own events report no
trade, those of the engine report exactly the trades that the cycle has applied, and all of them are
of the time of the cycle's bar.
-/

namespace TradingPlatform

namespace PlatformRuntime

variable {start rt rt' : PlatformRuntime} {ctx ctx' : CycleCtx} {call : CycleCall} {t : ℤ}
  {seen : List EventEnvelope} {p q : CycleCtx × PlatformRuntime}

/-- A cycle under way since `start`, on a bar of time `t`: its own events report no trade and have
the events `seen` among them, and the engine's events report what the cycle has applied. -/
structure Recording (start : PlatformRuntime) (t : ℤ) (seen : List EventEnvelope)
    (p : CycleCtx × PlatformRuntime) : Prop where
  eventTime : p.1.eventTime = t
  emitEvents : p.2.emitEvents = start.emitEvents
  published : p.2.published = start.published
  own : ∀ e ∈ p.1.events, e.payload.trade? = none ∧ e.eventTime = t
  kept : ∀ e ∈ seen, e ∈ p.1.events
  execution : ∃ ts, p.2.transitions = start.transitions ++ ts ∧
    Reports t p.1.executionEvents ts

namespace Recording

/-- A draw of identifiers, and whatever else leaves the events and the transitions as they are. -/
theorem congr (h : Recording start t seen (ctx, rt)) (hemit : rt'.emitEvents = rt.emitEvents)
    (hpublished : rt'.published = rt.published) (happlied : rt'.applied = rt.applied) :
    Recording start t seen (ctx, rt') := by
  obtain ⟨htime, hflag, hpub, hown, hkept, ts, hts, hreports⟩ := h
  refine ⟨htime, hemit.trans hflag, hpublished.trans hpub, hown, hkept, ts, ?_, hreports⟩
  rw [← hts]
  exact congrArg (List.map Prod.fst) happlied

theorem emit (h : Recording start t seen (ctx, rt)) {payload : Payload}
    (hpay : payload.trade? = none) : Recording start t seen (rt.emit ctx payload).2 := by
  obtain ⟨htime, hflag, hpub, hown, hkept, hexecution⟩ := h
  refine ⟨htime, hflag, hpub, fun e he => ?_, fun e he => ?_, hexecution⟩
  · rcases List.mem_append.mp he with he | he
    · exact hown e he
    · rw [List.mem_singleton.mp he]
      exact ⟨hpay, htime⟩
  · exact List.mem_append_left _ (hkept e he)

theorem emitCause (h : Recording start t seen (ctx, rt)) {payload : Payload}
    (hpay : payload.trade? = none) : Recording start t seen (rt.emitCause ctx payload) := by
  obtain ⟨htime, hflag, hpub, hown, hkept, hexecution⟩ := h.emit hpay
  exact ⟨htime, hflag, hpub, hown, hkept, hexecution⟩

theorem noteDecision (h : Recording start t seen (ctx, rt)) (decision : Decision)
    (snapshot : StateSnapshot) :
    Recording start t seen (rt.noteDecision ctx decision snapshot) := by
  unfold PlatformRuntime.noteDecision
  split
  · exact h.emitCause rfl
  · exact h

/-- The books are kept without an event. -/
theorem applyNew (h : Recording start t seen (ctx, rt)) {payload : TransitionPayload}
    (hpay : payload.trade? = none) {eventTime : ℤ} {correlationId : CorrelationId} :
    Recording start t seen (ctx, rt.applyNew payload eventTime correlationId) := by
  obtain ⟨htime, hflag, hpub, hown, hkept, ts, hts, hreports⟩ := h
  refine ⟨htime, hflag, hpub, hown, hkept,
    ts ++ [⟨rt.uuid, payload, eventTime, correlationId⟩], ?_, ?_, hreports.times⟩
  · rw [← List.append_assoc, ← hts]
    exact (applied_applyNew rt payload eventTime correlationId).transitions
  · rw [madeTrades_append, hreports.trades]
    simp [madeTrades, hpay]

/-- A pass of the engine whose transitions are applied. -/
theorem pass (h : Recording start t seen (ctx, rt)) {u : ℕ} {pass : Pass}
    (hpass : pass.Reported ctx.eventTime) :
    Recording start t seen ({ ctx with executionEvents := ctx.executionEvents ++ pass.events },
      { rt with uuid := u, executionEngine := some pass.engine }.applyTransitions
        pass.transitions) := by
  obtain ⟨htime, hflag, hpub, hown, hkept, ts, hts, hreports⟩ := h
  obtain ⟨hpublished, hemits⟩ := published_applyTransitions
    { rt with uuid := u, executionEngine := some pass.engine } pass.transitions
  have happlied := applied_applyTransitions
    { rt with uuid := u, executionEngine := some pass.engine } pass.transitions
  refine ⟨htime, hemits.trans hflag, hpublished.trans hpub, hown, hkept, ts ++ pass.transitions,
    ?_, hreports.append ?_⟩
  · rw [← List.append_assoc, ← hts]
    exact happlied.transitions
  · rwa [show ctx.eventTime = t from htime] at hpass

theorem prepareBar (hprepare : rt.prepareBar call = .ok (ctx, rt')) :
    Recording rt ctx.eventTime [] (ctx, rt') := by
  have hcycleId : (rt.cycleId call).2.emitEvents = rt.emitEvents ∧
      (rt.cycleId call).2.published = rt.published ∧
      (rt.cycleId call).2.applied = rt.applied := by
    unfold PlatformRuntime.cycleId
    split <;> exact ⟨rfl, rfl, rfl⟩
  obtain ⟨hemit, hpublished, happlied⟩ := hcycleId
  obtain ⟨df, _, hprepare⟩ := Except.bind_eq_ok.mp hprepare
  cases hlast : df.getLast? with
  | none =>
    rw [hlast] at hprepare
    cases hprepare
  | some lastRow =>
    rw [hlast] at hprepare
    cases hprepare
    refine ⟨rfl, hemit, hpublished, fun e he => absurd he List.not_mem_nil,
      fun e he => absurd he List.not_mem_nil, [], ?_, .nil⟩
    rw [List.append_nil]
    exact congrArg (List.map Prod.fst) happlied

end Recording

theorem EnginePass.reported {u u' : ℕ} {pass : Pass} (h : EnginePass ctx u pass u') :
    pass.Reported ctx.eventTime := by
  cases h with
  | evaluated engine =>
    exact SimulatedExecutionEngine.evaluateBar_reported ctx.bar _
      (executionCtx engine ctx ctx.eventTime) _ _ engine u
  | @executed _ decision _ _ _ htime h =>
    have hreported : pass.Reported decision.eventTime := SimulatedExecutionEngine.execute_reported h
    exact htime ▸ hreported

theorem Collect.recording (h : Collect p q) (hp : Recording start t seen p) :
    Recording start t seen q := by
  cases h with
  | emit _ htrade => exact hp.emit htrade
  | cause => exact ⟨hp.eventTime, hp.emitEvents, hp.published, hp.own, hp.kept, hp.execution⟩
  | books htrade => exact hp.applyNew htrade
  | day => exact hp.congr rfl rfl rfl
  | draw => exact hp.congr rfl rfl rfl
  | pass _ h => exact hp.pass h.reported

theorem Collects.recording (h : Collects p q) (hp : Recording start t seen p) :
    Recording start t seen q := by
  induction h with
  | refl => exact hp
  | tail _ h ih => exact h.recording ih

/-- A cycle that returns publishes events that report the transitions it has applied; if the
runtime emits events, the candle of the bar is one of them. -/
theorem runCycle_reports {result : CycleResult} (h : rt.runCycle call = (.ok result, rt')) :
    ∃ ctx rt₁ ts, Prepared call rt ctx rt₁ ∧ rt'.transitions = rt.transitions ++ ts ∧
      Reports ctx.eventTime result.events ts ∧
      rt'.published = rt.published ++ result.events ∧ rt'.emitEvents = rt.emitEvents ∧
      (rt.emitEvents = true → ∃ e ∈ result.events, e.eventType = .candleReceived) := by
  obtain ⟨ctx, rt₁, taken, decided, last, trace⟩ := runCycle_trace h
  have hstart := Recording.prepareBar trace.prepared.prepared
  have htaken := trace.reached.recording hstart
  have hjudged := trace.judged.recording (htaken.congr rfl rfl rfl)
  have hnoted := hjudged.noteDecision result.decision result.snapshot
  obtain ⟨_, hflag, hpublished, hown, _, ts, hts, hreports⟩ := trace.ended.recording hnoted
  rw [trace.published, trace.events]
  refine ⟨ctx, rt₁, ts, trace.prepared, hts, hreports.silent_append hown,
    congrArg (· ++ _) hpublished, hflag, fun hemits => ?_⟩
  obtain ⟨e, he, htype⟩ := trace.candle (hstart.emitEvents.trans hemits)
  exact ⟨e, List.mem_append_left _ (trace.kept he), htype⟩

end PlatformRuntime

end TradingPlatform
