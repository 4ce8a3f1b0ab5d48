import TradingPlatform.Runtime.OrderFlow

/-!
# The rule of the passes

What a reader takes from the events of the engine, and nothing from those of the runtime itself, is
a log of what the engine has done. A law of that log and of the book of the engine that every pass
of the engine keeps, and the bookkeeping in between, holds of the events published by every run of
cycles that return and of liquidations.
-/

namespace TradingPlatform

namespace PlatformRuntime

variable {α : Type} {read : EventEnvelope → Option α} {P : List α → Book → Prop}

/-- Every pass keeps `P`, with what is read from its events added to the log. -/
structure KeptByPasses (read : EventEnvelope → Option α) (P : List α → Book → Prop) : Prop where
  own : ∀ e, e.eventType ∈ ownTypes → read e = none
  draw : ∀ {log : List α} {b : Book} {u : ℕ}, b.uuid ≤ u → P log b → P log { b with uuid := u }
  books : ∀ {log : List α} {b : Book} {t : StateTransitionEvent}, bookkeeping t.payload = true →
    P log b → P log { b with stateStore := b.stateStore.apply t }
  evaluate : ∀ {log : List α} {b : Book} {bar : Bar} {c : EventCtx} {snapshot : StateSnapshot}
    {approvedSide : Option Side} {incrementBars : Bool},
    snapshot.portfolio = b.stateStore.portfolio → P log b →
    let pass := b.engine.evaluateBar bar snapshot c approvedSide incrementBars b.uuid
    P (log ++ pass.1.events.filterMap read) (b.after pass)
  execute : ∀ {log : List α} {b : Book} {bar : Bar} {c : EventCtx} {snapshot : StateSnapshot}
    {decision : Decision} {pass : Pass} {u : ℕ},
    b.engine.execute decision snapshot bar c b.uuid = (.ok pass, u) → P log b →
    P (log ++ pass.events.filterMap read) (b.after (pass, u))
  closeAll : ∀ {log : List α} {b : Book} {exitPrice : ℚ} {c : EventCtx}, P log b →
    let pass := SimulatedExecutionEngine.closeAll exitPrice c b.engine
      b.stateStore.portfolio.openPositions b.uuid
    P (log ++ pass.1.events.filterMap read) (b.after pass)

/-- The log and the book of the engine are as `P` says; without an engine there is no log. -/
structure Logging (P : List α → Book → Prop) (log : List α) (rt : PlatformRuntime) : Prop where
  book : ∀ engine, rt.executionEngine = some engine → P log ⟨engine, rt.stateStore, rt.uuid⟩
  silent : rt.executionEngine = none → log = []

variable {log : List α} {rt rt' : PlatformRuntime} {ctx : CycleCtx} {call : CycleCall}
  {engine : SimulatedExecutionEngine} {u : ℕ}

namespace Logging

theorem draw (hP : KeptByPasses read P) (h : Logging P log rt) (hle : rt.uuid ≤ u) :
    Logging P log { rt with uuid := u } :=
  ⟨fun engine hengine => hP.draw hle (h.book engine hengine), h.silent⟩

/-- A pass of the engine, with its transitions applied. -/
theorem pass (hP : KeptByPasses read P) {pass : Pass × ℕ}
    (h : P log (Book.after ⟨engine, rt.stateStore, u⟩ pass)) :
    Logging P log ({ rt with uuid := pass.2, executionEngine := some pass.1.engine
      }.applyTransitions pass.1.transitions) := by
  have happlied := applied_applyTransitions
    { rt with uuid := pass.2, executionEngine := some pass.1.engine } pass.1.transitions
  constructor
  · intro engine' hengine'
    rw [executionEngine_applyTransitions] at hengine'
    obtain rfl := Option.some.inj hengine'
    rw [happlied.stateStore]
    exact hP.draw happlied.uuid h
  · intro hnone
    rw [executionEngine_applyTransitions] at hnone
    cases hnone

end Logging

/-- In a cycle: the events published before it and those of the engine in it. -/
structure PassLog (read : EventEnvelope → Option α) (P : List α → Book → Prop)
    (p : CycleCtx × PlatformRuntime) : Prop where
  own : p.1.events.filterMap read = []
  logging : Logging P ((p.2.published ++ p.1.executionEvents).filterMap read) p.2

namespace PassLog

theorem emit (hP : KeptByPasses read P) {payload : Payload} (h : PassLog read P (ctx, rt))
    (hown : payload.eventType ∈ ownTypes) : PassLog read P (rt.emit ctx payload).2 where
  own := by
    have hnone : read (rt.emit ctx payload).1 = none := hP.own _ hown
    change (ctx.events ++ [(rt.emit ctx payload).1]).filterMap read = []
    rw [List.filterMap_append, h.own, List.filterMap_cons_none hnone]
    rfl
  logging := h.logging.draw hP (Nat.le_add_right _ 1)

theorem takeOver (hP : KeptByPasses read P) {pass : Pass × ℕ} (h : PassLog read P (ctx, rt))
    (hpass : P ((rt.published ++ ctx.executionEvents).filterMap read ++
      pass.1.events.filterMap read) (Book.after ⟨engine, rt.stateStore, u⟩ pass)) :
    PassLog read P (takeOver (ctx, rt) pass.1 pass.2) where
  own := h.own
  logging := by
    have hpublished := (published_applyTransitions
      { rt with uuid := pass.2, executionEngine := some pass.1.engine } pass.1.transitions).1
    simp only [PlatformRuntime.takeOver, hpublished]
    rw [← List.append_assoc, List.filterMap_append]
    exact .pass hP hpass

theorem kept (hP : KeptByPasses read P) : KeptByCycle (PassLog read P) where
  emit hown h := h.emit hP hown
  emitCause hown h := ⟨(h.emit hP hown).own, (h.emit hP hown).logging⟩
  draw hle h := ⟨h.own, h.logging.draw hP hle⟩
  day h := ⟨h.own, ⟨h.logging.book, h.logging.silent⟩⟩
  books hbooks h := by
    refine ⟨h.own, fun engine hengine => ?_, h.logging.silent⟩
    exact hP.draw (Nat.le_add_right _ 2) (hP.books hbooks (h.logging.book engine hengine))
  evaluate {ctx rt engine} _ _ _ u hengine hsnap hle h := by
    intro pass
    have hbook : P _ ⟨engine, rt.stateStore, u⟩ := hP.draw hle (h.logging.book engine hengine)
    exact h.takeOver hP (hP.evaluate hsnap hbook)
  execute {ctx rt engine} _ _ u u' pass hengine _ hle hrun h := by
    have hbook : P _ ⟨engine, rt.stateStore, u⟩ := hP.draw hle (h.logging.book engine hengine)
    exact @takeOver _ _ _ rt ctx engine u hP (pass, u') h (hP.execute hrun hbook)

theorem prepared (hprepare : rt.prepareBar call = .ok (ctx, rt'))
    (hP : KeptByPasses read P) (h : Logging P (rt.published.filterMap read) rt) :
    PassLog read P (ctx, rt') := by
  obtain ⟨hevents, hexecution, -, hsince⟩ := prepareBar_collected hprepare
  have hquiet := (prepareBar_ok hprepare).quiet
  refine ⟨hevents ▸ rfl, ?_⟩
  rw [hexecution, List.append_nil, hsince.published]
  have hengine : rt'.executionEngine = rt.executionEngine := hquiet.executionEngine
  have hstore : rt'.stateStore = rt.stateStore := hquiet.stateStore
  refine ⟨fun engine hsome => ?_, fun hnone => h.silent (hengine ▸ hnone)⟩
  rw [hstore]
  exact hP.draw hsince.uuid (h.book engine (hengine ▸ hsome))

end PassLog

namespace Logging

/-- A cycle that returns publishes what its passes have added. -/
theorem runCycle (hP : KeptByPasses read P) {result : CycleResult}
    (h : Logging P (rt.published.filterMap read) rt)
    (hrun : rt.runCycle call = (.ok result, rt')) :
    Logging P (rt'.published.filterMap read) rt' := by
  obtain ⟨ctx, last, hlast, hevents, rfl⟩ :=
    (PassLog.kept hP).runCycle (fun ctx rt₁ hprepare => .prepared hprepare hP h) hrun
  have hlog : (last.published ++ result.events).filterMap read =
      (last.published ++ ctx.executionEvents).filterMap read := by
    rw [hevents, List.filterMap_append, List.filterMap_append, List.filterMap_append, hlast.own,
      List.nil_append]
  change Logging P ((last.published ++ result.events).filterMap read) _
  rw [hlog]
  exact ⟨hlast.logging.book, hlast.logging.silent⟩

theorem liquidate (hP : KeptByPasses read P) (h : Logging P (rt.published.filterMap read) rt)
    {call : LiquidationCall} (hrun : rt.liquidateOpenPositions call = .ok rt') :
    Logging P (rt'.published.filterMap read) rt' := by
  rcases liquidateOpenPositions_ok hrun with ⟨rfl, -⟩ | ⟨engine, bar, c, hengine, -, -, -, rfl⟩
  · exact h
  · let pass := SimulatedExecutionEngine.closeAll bar.close c engine
      rt.stateStore.portfolio.openPositions (rt.uuid + 1)
    let after := { rt with uuid := pass.2, executionEngine := some pass.1.engine
      }.applyTransitions pass.1.transitions
    have hbook : P _ ⟨engine, rt.stateStore, rt.uuid + 1⟩ :=
      hP.draw (Nat.le_add_right rt.uuid 1) (h.book engine hengine)
    have hpublished : after.published = rt.published := (published_applyTransitions
      { rt with uuid := pass.2, executionEngine := some pass.1.engine } pass.1.transitions).1
    have hafter : Logging P (rt.published.filterMap read ++ pass.1.events.filterMap read) after :=
      .pass hP (hP.closeAll hbook)
    change Logging P ((after.published ++ pass.1.events).filterMap read) _
    rw [hpublished, List.filterMap_append]
    exact ⟨hafter.book, hafter.silent⟩

theorem operate (hP : KeptByPasses read P) {op : RuntimeOp}
    (h : Logging P (rt.published.filterMap read) rt) (hreturns : rt.Returns op) :
    Logging P ((rt.operate op).published.filterMap read) (rt.operate op) := by
  cases op with
  | cycle call =>
    obtain ⟨result, rt', hrun⟩ := hreturns
    have hstep : rt.operate (.cycle call) = rt' := congrArg Prod.snd hrun
    rw [hstep]
    exact h.runCycle hP hrun
  | liquidate call =>
    simp only [PlatformRuntime.operate]
    split
    · next hrun => exact h.liquidate hP hrun
    · exact h

end Logging

/-- The events published by a run of cycles that return and of liquidations are as `P` says. -/
theorem logging_of_passes (hP : KeptByPasses read P) {setup : RuntimeSetup} {ops : List RuntimeOp}
    (hstart : ∀ engine, setup.start.executionEngine = some engine →
      P [] ⟨engine, setup.start.stateStore, 0⟩)
    (hreturns : Run.Along operate Returns setup.start ops) :
    Logging P ((setup.after ops).published.filterMap read) (setup.after ops) :=
  hreturns.exec_inv (I := fun rt => Logging P (rt.published.filterMap read) rt)
    (fun _ _ h hop => h.operate hP hop) ⟨hstart, fun _ => rfl⟩

end PlatformRuntime

end TradingPlatform
