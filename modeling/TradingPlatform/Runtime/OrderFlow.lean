import TradingPlatform.Db.Orders
import TradingPlatform.Runtime.CycleRule
import TradingPlatform.Validation.Cash

/-!
# The orders and the fills of a run

Over cycles that return, and over liquidations, the events published so far are a reconciled log of
orders: what the engine's queue and its map say of the orders of the present agrees with it. A cycle
publishes what the engine has done at its end, so the law holds of the events published before it
together with those of the engine in it.
-/

namespace TradingPlatform

open OrderLog InMemoryStateStore

namespace PlatformRuntime

variable {rt rt' : PlatformRuntime} {ctx : CycleCtx} {call : CycleCall}
  {log : List (Entry OrderId ℕ ℕ ℚ)}

/-- The log is reconciled, and the engine and the store stand where it says. -/
structure Reconciles (log : List (Entry OrderId ℕ ℕ ℚ)) (rt : PlatformRuntime) : Prop where
  reconciled : Reconciled log
  book : ∀ engine, rt.executionEngine = some engine →
    Book.Reconciles log engine.pendingEntries ⟨engine, rt.stateStore, rt.uuid⟩

theorem Reconciles.congr (h : Reconciles log rt)
    (hengine : rt'.executionEngine = rt.executionEngine)
    (hpositions : rt'.stateStore.portfolio.openPositions.map (fun p => (p.positionId, p.quantity)) =
      rt.stateStore.portfolio.openPositions.map fun p => (p.positionId, p.quantity))
    (hle : rt.uuid ≤ rt'.uuid) : Reconciles log rt' where
  reconciled := h.reconciled
  book engine hsome := (h.book engine (hengine ▸ hsome)).congr rfl rfl hpositions hle

/-- Bookkeeping opens and closes nothing, and changes no quantity. -/
theorem openPositions_apply_bookkeeping {s : InMemoryStateStore} {t : StateTransitionEvent}
    (h : bookkeeping t.payload = true) :
    (s.apply t).portfolio.openPositions.map (fun p => (p.positionId, p.quantity)) =
      s.portfolio.openPositions.map fun p => (p.positionId, p.quantity) := by
  cases hpayload : t.payload with
  | riskUpdated updates =>
    rw [apply_riskUpdated hpayload]
    rfl
  | markToMarket prices =>
    rw [apply_markToMarket hpayload]
    change (s.portfolio.openPositions.map (revalue prices)).map _ = _
    rw [List.map_map]
    refine List.map_congr_left fun p hp => ?_
    simp only [Function.comp_apply, revalue]
    split <;> rfl
  | _ =>
    rw [hpayload] at h
    cases h

/-- A pass of the engine, with its transitions applied. -/
theorem Reconciles.pass {engine : SimulatedExecutionEngine} {pass : Pass × ℕ} {u : ℕ}
    (hpass : Book.Reconciles log pass.1.engine.pendingEntries
      (Book.after ⟨engine, rt.stateStore, u⟩ pass)) :
    Reconciles log ({ rt with uuid := pass.2, executionEngine := some pass.1.engine
      }.applyTransitions pass.1.transitions) where
  reconciled := hpass.reconciled
  book engine' hengine' := by
    have happlied := applied_applyTransitions
      { rt with uuid := pass.2, executionEngine := some pass.1.engine } pass.1.transitions
    rw [executionEngine_applyTransitions] at hengine'
    obtain rfl := Option.some.inj hengine'
    exact hpass.congr rfl rfl (by rw [happlied.stateStore]; rfl) happlied.uuid

/-- The events of the runtime's own say nothing of orders. -/
theorem logged?_own {e : EventEnvelope} (h : e.eventType ∈ ownTypes) : e.logged? = none := by
  unfold EventEnvelope.logged?
  unfold EventEnvelope.eventType at h
  cases hpayload : e.payload with
  | orderSubmitted order decisionId => simp [hpayload, Payload.eventType, ownTypes] at h
  | fillReceived fill fillModelId exit => simp [hpayload, Payload.eventType, ownTypes] at h
  | positionOpened positionId fillId position => simp [hpayload, Payload.eventType, ownTypes] at h
  | positionClosed closed => simp [hpayload, Payload.eventType, ownTypes] at h
  | _ => rfl

/-- In a cycle: the events published before it and those of the engine in it. -/
structure Flows (p : CycleCtx × PlatformRuntime) : Prop where
  own : orderLog p.1.events = []
  flow : Reconciles (orderLog (p.2.published ++ p.1.executionEvents)) p.2

theorem Flows.emit {payload : Payload} (h : Flows (ctx, rt)) (hown : payload.eventType ∈ ownTypes) :
    Flows (rt.emit ctx payload).2 where
  own := by
    have hnone : (rt.emit ctx payload).1.logged? = none := logged?_own hown
    change orderLog (ctx.events ++ [(rt.emit ctx payload).1]) = []
    rw [orderLog_append, h.own, orderLog_eq_nil (List.forall_mem_singleton.mpr hnone)]
    rfl
  flow := h.flow.congr rfl rfl (Nat.le_add_right _ 1)

theorem Flows.takeOver {pass : Pass × ℕ} {engine : SimulatedExecutionEngine} {u : ℕ}
    (h : Flows (ctx, rt))
    (hpass : Book.Reconciles (orderLog (rt.published ++ ctx.executionEvents) ++
        orderLog pass.1.events) pass.1.engine.pendingEntries
      (Book.after ⟨engine, rt.stateStore, u⟩ pass)) :
    Flows (takeOver (ctx, rt) pass.1 pass.2) where
  own := h.own
  flow := by
    have hpublished := (published_applyTransitions
      { rt with uuid := pass.2, executionEngine := some pass.1.engine } pass.1.transitions).1
    simp only [PlatformRuntime.takeOver, hpublished]
    rw [← List.append_assoc, orderLog_append]
    exact .pass hpass

theorem flows_kept : KeptByCycle Flows where
  emit hown h := h.emit hown
  emitCause hown h := ⟨(h.emit hown).own, (h.emit hown).flow⟩
  draw hle h := ⟨h.own, h.flow.congr rfl rfl hle⟩
  day h := ⟨h.own, h.flow.congr rfl rfl le_rfl⟩
  books hbooks h :=
    ⟨h.own, h.flow.congr rfl (openPositions_apply_bookkeeping hbooks) (Nat.le_add_right _ 2)⟩
  evaluate {ctx rt engine} _ _ _ u hengine hsnap hle h := by
    intro pass
    have hbook : Book.Reconciles _ _ ⟨engine, rt.stateStore, u⟩ :=
      (h.flow.book engine hengine).draw hle
    exact h.takeOver (hbook.evaluateBar hsnap (rfl : _ = pass))
  execute {ctx rt engine} _ _ u u' pass hengine _ hle hrun h := by
    have hbook : Book.Reconciles _ _ ⟨engine, rt.stateStore, u⟩ :=
      (h.flow.book engine hengine).draw hle
    exact @Flows.takeOver rt ctx (pass, u') engine u h (hbook.execute le_rfl hrun)

theorem Flows.prepared (hprepare : rt.prepareBar call = .ok (ctx, rt'))
    (h : Reconciles (orderLog rt.published) rt) : Flows (ctx, rt') := by
  obtain ⟨hevents, hexecution, _, hsince⟩ := prepareBar_collected hprepare
  have hquiet := (prepareBar_ok hprepare).quiet
  refine ⟨hevents ▸ rfl, ?_⟩
  rw [hexecution, List.append_nil, hsince.published]
  refine h.congr hquiet.executionEngine ?_ hsince.uuid
  have hstore : rt'.stateStore = rt.stateStore := hquiet.stateStore
  rw [hstore]

/-- A cycle that returns. -/
theorem Reconciles.runCycle {result : CycleResult} (h : Reconciles (orderLog rt.published) rt)
    (hrun : rt.runCycle call = (.ok result, rt')) :
    Reconciles (orderLog rt'.published) rt' := by
  obtain ⟨ctx, last, hflows, hevents, rfl⟩ :=
    flows_kept.runCycle (fun ctx rt₁ hprepare => .prepared hprepare h) hrun
  have hlog : orderLog (last.published ++ result.events) =
      orderLog (last.published ++ ctx.executionEvents) := by
    rw [hevents, orderLog_append, orderLog_append, orderLog_append, hflows.own, List.nil_append]
  change Reconciles (orderLog (last.published ++ result.events)) _
  rw [hlog]
  exact hflows.flow.congr rfl rfl le_rfl

theorem Reconciles.liquidate (h : Reconciles (orderLog rt.published) rt) {call : LiquidationCall}
    (hrun : rt.liquidateOpenPositions call = .ok rt') :
    Reconciles (orderLog rt'.published) rt' := by
  rcases liquidateOpenPositions_ok hrun with ⟨rfl, _⟩ | ⟨engine, bar, c, hengine, _, _, _, rfl⟩
  · exact h
  · let pass := SimulatedExecutionEngine.closeAll bar.close c engine
      rt.stateStore.portfolio.openPositions (rt.uuid + 1)
    let after := { rt with uuid := pass.2, executionEngine := some pass.1.engine
      }.applyTransitions pass.1.transitions
    have hdrawn := (h.book engine hengine).draw (Nat.le_add_right rt.uuid 1)
    have hqueue : SimulatedExecutionEngine.SameQueue engine pass.1.engine :=
      (SimulatedExecutionEngine.closeAll_closes ..).1
    have hpass : Book.Reconciles (orderLog rt.published ++ orderLog pass.1.events)
        pass.1.engine.pendingEntries
        (Book.after ⟨engine, rt.stateStore, rt.uuid + 1⟩ pass) := by
      rw [hqueue.pendingEntries]
      exact hdrawn.closeAll _ hdrawn.nodup fun p hp => hp
    have hpublished : after.published = rt.published := (published_applyTransitions
      { rt with uuid := pass.2, executionEngine := some pass.1.engine } pass.1.transitions).1
    have hafter : Reconciles (orderLog rt.published ++ orderLog pass.1.events) after :=
      .pass hpass
    change Reconciles (orderLog (after.published ++ pass.1.events)) _
    rw [hpublished, orderLog_append]
    exact hafter.congr rfl rfl le_rfl

/-! ## Runs -/

/-- A cycle of the run does not raise. -/
def Returns (rt : PlatformRuntime) : RuntimeOp → Prop
  | .cycle call => ∃ result rt', rt.runCycle call = (.ok result, rt')
  | .liquidate _ => True

theorem returns_cycle (h : (rt.runCycle call).1.toOption.isSome = true) :
    rt.Returns (.cycle call) := by
  cases hrun : rt.runCycle call with
  | mk outcome rt' =>
    rw [hrun] at h
    cases outcome with
    | error e => cases h
    | ok result => exact ⟨result, rt', hrun⟩

theorem Reconciles.operate {op : RuntimeOp} (h : Reconciles (orderLog rt.published) rt)
    (hreturns : rt.Returns op) :
    Reconciles (orderLog (rt.operate op).published) (rt.operate op) := by
  cases op with
  | cycle call =>
    obtain ⟨result, rt', hrun⟩ := hreturns
    have hstep : rt.operate (.cycle call) = rt' := congrArg Prod.snd hrun
    rw [hstep]
    exact h.runCycle hrun
  | liquidate call =>
    simp only [PlatformRuntime.operate]
    split
    · next hrun => exact h.liquidate hrun
    · exact h

theorem Reconciles.start {setup : RuntimeSetup}
    (hemits : ∀ e ∈ setup.execution, e.emitEvents = true) :
    Reconciles (orderLog setup.start.published) setup.start where
  reconciled := .nil
  book engine hengine := by
    obtain ⟨e, he, rfl⟩ := Option.map_eq_some_iff.mp hengine
    exact .start (hemits e he) rfl 0

end PlatformRuntime

/-! ## The law of the events -/

/-- The event is a fill of the order on the way in, or out. -/
def EventEnvelope.fills (orderId : OrderId) (exit : Bool) (e : EventEnvelope) : Bool :=
  match e.payload with
  | .fillReceived fill _ exit' => decide (fill.orderId = orderId) && decide (exit' = exit)
  | _ => false

/-- The position that the event opens or closes by the fill. -/
def EventEnvelope.position? (fillId : ℕ) (e : EventEnvelope) : Option ℕ :=
  match e.payload with
  | .positionOpened positionId entryFillId _ =>
    if entryFillId = fillId then some positionId else none
  | .positionClosed closed => if closed.fillId = fillId then some closed.positionId else none
  | _ => none

/-- Every fill names an order submitted before it. An order has one entry fill and one exit fill at
most. Before an exit fill there is the entry fill of its order, of the same quantity and of the same
position: of each of the two fills one event says which position it has opened or closed. -/
structure OrdersReconcile (events : List EventEnvelope) : Prop where
  submitted : ∀ before e fill fillModelId exit, before ++ [e] <+: events →
    e.payload = .fillReceived fill fillModelId exit → ∃ e' ∈ before, ∃ order decisionId,
      e'.payload = .orderSubmitted order decisionId ∧ order.orderId = fill.orderId
  once : ∀ orderId exit, events.countP (·.fills orderId exit) ≤ 1
  exits : ∀ before e fill fillModelId, before ++ [e] <+: events →
    e.payload = .fillReceived fill fillModelId true → ∃ e' ∈ before, ∃ entry fillModelId',
      e'.payload = .fillReceived entry fillModelId' false ∧ entry.orderId = fill.orderId ∧
      entry.quantity = fill.quantity ∧ ∃ positionId,
        events.filterMap (·.position? entry.fillId) = [positionId] ∧
        events.filterMap (·.position? fill.fillId) = [positionId]

section

variable {events : List EventEnvelope} {e : EventEnvelope}

theorem exists_orderSubmitted {orderId : OrderId} (h : .submitted orderId ∈ orderLog events) :
    ∃ e ∈ events, ∃ order decisionId,
      e.payload = .orderSubmitted order decisionId ∧ order.orderId = orderId := by
  obtain ⟨e, he, hentry⟩ := List.mem_filterMap.mp h
  unfold EventEnvelope.logged? at hentry
  cases hpayload : e.payload with
  | orderSubmitted order decisionId =>
    rw [hpayload] at hentry
    cases hentry
    exact ⟨e, he, order, decisionId, hpayload, rfl⟩
  | _ =>
    rw [hpayload] at hentry
    cases hentry

theorem exists_fillReceived {orderId : OrderId} {fillId : ℕ} {quantity : ℚ} {exit : Bool}
    (h : .filled orderId fillId quantity exit ∈ orderLog events) :
    ∃ e ∈ events, ∃ fill fillModelId, e.payload = .fillReceived fill fillModelId exit ∧
      fill.orderId = orderId ∧ fill.fillId = fillId ∧ fill.quantity = quantity := by
  obtain ⟨e, he, hentry⟩ := List.mem_filterMap.mp h
  unfold EventEnvelope.logged? at hentry
  cases hpayload : e.payload with
  | fillReceived fill fillModelId exit' =>
    rw [hpayload] at hentry
    cases hentry
    exact ⟨e, he, fill, fillModelId, hpayload, rfl, rfl, rfl⟩
  | _ =>
    rw [hpayload] at hentry
    cases hentry

theorem logged?_fillReceived {fill : Fill} {fillModelId : String} {exit : Bool}
    (h : e.payload = .fillReceived fill fillModelId exit) :
    e.logged? = some (.filled fill.orderId fill.fillId fill.quantity exit) := by
  rw [EventEnvelope.logged?, h]

theorem countP_fills (orderId : OrderId) (exit : Bool) :
    events.countP (·.fills orderId exit) = (orderLog events).countP (·.fills orderId exit) := by
  rw [orderLog, List.countP_filterMap]
  refine congrFun (congrArg List.countP (funext fun e => ?_)) events
  unfold EventEnvelope.fills EventEnvelope.logged?
  cases e.payload <;> rfl

theorem filterMap_position? (fillId : ℕ) :
    events.filterMap (·.position? fillId) = (orderLog events).filterMap (·.position? fillId) := by
  rw [orderLog, List.filterMap_filterMap]
  refine congrFun (congrArg List.filterMap (funext fun e => ?_)) events
  unfold EventEnvelope.position? EventEnvelope.logged?
  cases e.payload <;> rfl

/-- A reconciled log is one of events that reconcile. -/
theorem ordersReconcile (h : Reconciled (orderLog events)) : OrdersReconcile events := by
  have hfollows := h.justified.of_filterMap
  constructor
  · intro before e fill fillModelId exit hprefix hpayload
    exact exists_orderSubmitted (hfollows before e hprefix _ (logged?_fillReceived hpayload)).1
  · intro orderId exit
    rw [countP_fills]
    exact countP_fills_le_one h.justified orderId exit
  · intro before e fill fillModelId hprefix hpayload
    obtain ⟨_, _, _, hentry⟩ := hfollows before e hprefix _ (logged?_fillReceived hpayload)
    obtain ⟨entryId, hfilled⟩ := hentry rfl
    obtain ⟨e', he', entry, fillModelId', hpayload', horder, rfl, hquantity⟩ :=
      exists_fillReceived hfilled
    refine ⟨e', he', entry, fillModelId', hpayload', horder, hquantity, ?_⟩
    have hbefore : before ⊆ events := fun d hd => hprefix.subset (List.mem_append_left _ hd)
    have hlast : e ∈ events := hprefix.subset (List.mem_append_right _ (List.mem_singleton_self e))
    have hin : .filled entry.orderId entry.fillId entry.quantity false ∈ orderLog events :=
      List.mem_filterMap.mpr ⟨e', hbefore he', logged?_fillReceived hpayload'⟩
    have hout : .filled entry.orderId fill.fillId fill.quantity true ∈ orderLog events := by
      rw [horder]
      exact List.mem_filterMap.mpr ⟨e, hlast, logged?_fillReceived hpayload⟩
    rw [filterMap_position?, filterMap_position?]
    exact h.position_eq hin hout

end

/-- The orders and the fills of a run without a raising cycle, whose engine emits its events,
reconcile among the events published, and in the tables that these are written to. -/
theorem orders_reconcile {setup : RuntimeSetup} {ops : List PlatformRuntime.RuntimeOp}
    (hemits : ∀ e ∈ setup.execution, e.emitEvents = true)
    (hreturns : Run.Along PlatformRuntime.operate PlatformRuntime.Returns setup.start ops) :
    OrdersReconcile (setup.after ops).published ∧
    ∀ now : EventEnvelope → ℤ, ∃ tables,
      OrderTables.persistAll {} now (setup.after ops).published = .ok tables ∧
      tables.Shows (orderLog (setup.after ops).published) ∧ tables.Reconcile := by
  have hrun : PlatformRuntime.Reconciles (orderLog (setup.after ops).published) (setup.after ops) :=
    hreturns.exec_inv (I := fun rt => rt.Reconciles (orderLog rt.published))
      (fun _ _ h hop => h.operate hop) (.start hemits)
  refine ⟨ordersReconcile hrun.reconciled, fun now => ?_⟩
  obtain ⟨tables, hok, hshows⟩ :=
    OrderTables.persistAll_shows now hrun.reconciled.justified.of_filterMap
  exact ⟨tables, hok, hshows, hshows.reconcile hrun.reconciled.justified⟩

/-- A runtime that queues its entries and publishes every event. -/
def RuntimeSetup.soloQueueing : RuntimeSetup :=
  { RuntimeSetup.solo .nextOpen with emitEvents := true }

/-- Two bars with a buying provider, and the end of the run. -/
def boughtAndLiquidated : List PlatformRuntime.RuntimeOp := [
  .cycle (.flat "BTC/USDT" 0 100 .buy), .cycle (.flat "BTC/USDT" 3600000000 101 .buy),
  .liquidate {
    symbol := "BTC/USDT"
    timeframe := "1h"
    correlationId := .given "end"
    lastBarTime := 3600000000
    getLatest := fun _ _ _ => .ok [.flat 3600000000 101] }]

/-- The order of the first bar is filled on the second and left in the liquidation; the order of the
second bar is still queued. -/
theorem orders_reconcile_soloQueueing :
    orderLog (RuntimeSetup.soloQueueing.after boughtAndLiquidated).published = [
      .submitted (.ord 17), .filled (.ord 17) 22 10 false, .booked 24 22 false,
      .submitted (.ord 46), .filled (.ord 17) 50 10 true, .booked 24 50 true] ∧
    OrdersReconcile (RuntimeSetup.soloQueueing.after boughtAndLiquidated).published := by
  refine ⟨by decide +kernel, (orders_reconcile ?_ ?_).1⟩
  · intro e he
    cases he
    rfl
  · refine ⟨PlatformRuntime.returns_cycle ?_, PlatformRuntime.returns_cycle ?_, trivial, trivial⟩
    · decide +kernel
    · decide +kernel

end TradingPlatform
