import TradingPlatform.Execution.Coupling
import TradingPlatform.Lib.OrderLog

/-!
# The orders and the fills of the engine

The events of the engine, read as a log of orders. The id of an order goes from its submission into
the queue or straight to its entry fill, from there into the engine's map under the position the
fill has opened, and from the map to the exit fill. `Book.Reconciles` says where each order stands
in this, and every entry point of an engine that emits its events extends a reconciled log to a
reconciled log.
-/

namespace TradingPlatform

open OrderLog

/-- What an event says of an order, a fill or a position. -/
def EventEnvelope.logged? (e : EventEnvelope) : Option (Entry OrderId ℕ ℕ ℚ) :=
  match e.payload with
  | .orderSubmitted order _ => some (.submitted order.orderId)
  | .fillReceived fill _ exit => some (.filled fill.orderId fill.fillId fill.quantity exit)
  | .positionOpened positionId entryFillId _ => some (.booked positionId entryFillId false)
  | .positionClosed closed => some (.booked closed.positionId closed.fillId true)
  | _ => none

/-- The log of orders among events. -/
def orderLog (events : List EventEnvelope) : List (Entry OrderId ℕ ℕ ℚ) :=
  events.filterMap (·.logged?)

section

variable {events events' : List EventEnvelope} {e : EventEnvelope}

@[simp] theorem orderLog_nil : orderLog [] = [] := rfl

@[simp] theorem orderLog_append :
    orderLog (events ++ events') = orderLog events ++ orderLog events' := List.filterMap_append

theorem orderLog_singleton {entry : Entry OrderId ℕ ℕ ℚ} (h : e.logged? = some entry) :
    orderLog [e] = [entry] := by
  rw [orderLog, List.filterMap_cons_some h, List.filterMap_nil]

theorem orderLog_eq_nil (h : ∀ e ∈ events, e.logged? = none) : orderLog events = [] :=
  List.filterMap_eq_nil_iff.mpr h

end

/-- Every identifier an entry names has been drawn. -/
def DrawnBefore (u : ℕ) : Entry OrderId ℕ ℕ ℚ → Prop
  | .submitted (.ord v) => v < u
  | .submitted (.ofPosition _) => True
  | .filled _ fillId _ _ => fillId < u
  | .booked positionId fillId _ => positionId < u ∧ fillId < u

theorem DrawnBefore.mono {u u' : ℕ} {entry : Entry OrderId ℕ ℕ ℚ} (h : DrawnBefore u entry)
    (hle : u ≤ u') : DrawnBefore u' entry := by
  cases entry with
  | submitted orderId =>
    cases orderId with
    | ord v => exact lt_of_lt_of_le h hle
    | ofPosition id => trivial
  | filled orderId fillId quantity exit => exact lt_of_lt_of_le h hle
  | booked positionId fillId exit => exact ⟨h.1.trans_le hle, h.2.trans_le hle⟩

namespace SimulatedExecutionEngine

variable {engine : SimulatedExecutionEngine} {c : EventCtx} {u : ℕ}

theorem emitting_eq {payload : Payload} {cause : Option ℕ} (h : engine.emitEvents = true) :
    engine.emitting (buildEnvelope c payload cause) u =
      (some (buildEnvelope c payload cause u).1, u + 1) := by
  unfold emitting
  rw [h]
  rfl

theorem filterEvents_eq {events : List EventEnvelope} (h : engine.emitEvents = true) :
    engine.filterEvents events = events := by
  unfold filterEvents
  rw [if_pos h]

theorem orderLog_openPosition {order : Order} {quantity : ℚ} {side : Side}
    {positionSide : PositionSide} {stopLoss takeProfit : ℚ} {bar : Bar} {cause : Option ℕ}
    {next : Bool} (h : engine.emitEvents = true) :
    orderLog (engine.openPosition order quantity side positionSide stopLoss takeProfit bar c cause
      next u).1.events = [.filled order.orderId u quantity false,
        .booked (engine.openedId u) u false] := by
  unfold openedId openPosition emitting
  rw [h]
  rfl

theorem orderLog_closePosition {position : PositionState} {exitPrice : ℚ} {exitReason : ExitReason}
    (h : engine.emitEvents = true) :
    orderLog (engine.closePosition position exitPrice exitReason c u).1.events =
      [.filled (engine.positionOrders.getD position.positionId (.ofPosition position.positionId)) u
        position.quantity true, .booked position.positionId u true] := by
  unfold closePosition emitting
  rw [h]
  rfl

theorem lt_closePosition_uuid {position : PositionState} {exitPrice : ℚ} {exitReason : ExitReason} :
    u < (engine.closePosition position exitPrice exitReason c u).2 := by
  unfold closePosition emitting
  cases engine.emitEvents
  · exact Nat.lt_add_of_pos_right (n := u) (k := 3) (by omega)
  · exact Nat.lt_add_of_pos_right (n := u) (k := 4) (by omega)

section Orders

variable {decision : Decision} {signal : FinalSignal} {intent : OrderIntent}
  {intentEvent : Option EventEnvelope} {bar : Bar}

variable (decision signal intent intentEvent bar c u) in
/-- What an order that is queued leaves in the log. -/
theorem submitOrder_queued_log (hemits : engine.emitEvents = true)
    (hfill : engine.fillModel.fillAt = .nextOpen) :
    let pass := engine.submitOrder decision signal intent bar c intentEvent u
    ∃ pending : PendingEntry, pending.order.orderId = .ord u ∧ pass.1.transitions = [] ∧
      pass.1.engine = { engine with pendingEntries := engine.pendingEntries ++ [pending] } ∧
      orderLog pass.1.events = orderLog intentEvent.toList ++ [.submitted (.ord u)] ∧
      pass.2 = u + 3 := by
  unfold submitOrder
  simp only [hfill, if_true]
  refine ⟨_, rfl, rfl, rfl, ?_, ?_⟩
  · unfold emitting
    rw [hemits]
    change orderLog (engine.filterEvents _) = _
    rw [filterEvents_eq hemits, orderLog_append, orderLog_append, List.append_assoc]
    rfl
  · unfold emitting
    rw [hemits]
    rfl

variable (decision signal intent intentEvent bar c u) in
/-- What an order that is filled at once leaves in the log. -/
theorem submitOrder_filled_log (hemits : engine.emitEvents = true)
    (hfill : engine.fillModel.fillAt ≠ .nextOpen) :
    let pass := engine.submitOrder decision signal intent bar c intentEvent u
    ∃ (order : Order) (cause : Option ℕ), order.orderId = .ord u ∧
      let filled := engine.openPosition order intent.quantity signal.side (entrySide signal.side)
        signal.stopLoss signal.takeProfit bar c cause false (u + 3)
      pass.1.transitions = [filled.1.transition] ∧ pass.1.engine = filled.1.engine ∧
      pass.2 = filled.2 ∧ orderLog pass.1.events =
        orderLog intentEvent.toList ++ [.submitted (.ord u)] ++ orderLog filled.1.events := by
  unfold submitOrder
  simp only [hfill, if_false]
  unfold emitting
  rw [hemits]
  refine ⟨_, _, rfl, rfl, rfl, rfl, ?_⟩
  change orderLog (engine.filterEvents _) = _
  rw [filterEvents_eq hemits, orderLog_append, orderLog_append, orderLog_append,
    List.append_assoc (orderLog intentEvent.toList)]
  rfl

end Orders

end SimulatedExecutionEngine

namespace Book

open InMemoryStateStore SimulatedExecutionEngine

/-- The log is reconciled, the orders of the entries wait in it, and every open position is held in
it on the order that the engine's map has for it, with its own quantity. -/
structure Reconciles (log : List (Entry OrderId ℕ ℕ ℚ)) (entries : List PendingEntry) (b : Book) :
    Prop where
  emits : b.engine.emitEvents = true
  reconciled : Reconciled log
  drawn : ∀ entry ∈ log, DrawnBefore b.uuid entry
  waiting : ∀ e ∈ entries, Waiting log e.order.orderId
  distinct : (entries.map (·.order.orderId)).Nodup
  held : ∀ p ∈ b.stateStore.portfolio.openPositions, ∃ orderId,
    b.engine.positionOrders.get? p.positionId = some orderId ∧
      Held log p.positionId orderId p.quantity
  nodup : b.stateStore.openIds.Nodup

namespace Reconciles

variable {log : List (Entry OrderId ℕ ℕ ℚ)} {entries entries' : List PendingEntry} {b b' : Book}
  {c : EventCtx} {bar : Bar}

theorem start {engine : SimulatedExecutionEngine} (hemits : engine.emitEvents = true)
    {s : InMemoryStateStore} (hs : s.portfolio.openPositions = []) (u : ℕ) :
    Reconciles [] [] ⟨engine, s, u⟩ where
  emits := hemits
  reconciled := .nil
  drawn _ h := absurd h List.not_mem_nil
  waiting _ h := absurd h List.not_mem_nil
  distinct := List.nodup_nil
  held p hp := by
    rw [hs] at hp
    cases hp
  nodup := by
    rw [openIds, hs]
    exact List.nodup_nil

/-- What is neither the log nor an order may change. -/
theorem congr (h : Reconciles log entries b) (hemits : b'.engine.emitEvents = b.engine.emitEvents)
    (horders : b'.engine.positionOrders = b.engine.positionOrders)
    (hpositions : b'.stateStore.portfolio.openPositions.map (fun p => (p.positionId, p.quantity)) =
      b.stateStore.portfolio.openPositions.map fun p => (p.positionId, p.quantity))
    (hle : b.uuid ≤ b'.uuid) : Reconciles log entries b' where
  emits := hemits.trans h.emits
  reconciled := h.reconciled
  drawn entry hentry := (h.drawn entry hentry).mono hle
  waiting := h.waiting
  distinct := h.distinct
  held p' hp' := by
    have hmem := List.mem_map_of_mem (f := fun p => (p.positionId, p.quantity)) hp'
    rw [hpositions] at hmem
    obtain ⟨p, hp, heq⟩ := List.mem_map.mp hmem
    obtain ⟨hid, hquantity⟩ := Prod.mk.inj heq
    rw [horders, ← hid, ← hquantity]
    exact h.held p hp
  nodup := by
    have hids : b'.stateStore.openIds = b.stateStore.openIds := by
      have := congrArg (List.map Prod.fst) hpositions
      rwa [List.map_map, List.map_map] at this
    rw [hids]
    exact h.nodup

theorem draw (h : Reconciles log entries b) {u : ℕ} (hle : b.uuid ≤ u) :
    Reconciles log entries { b with uuid := u } := h.congr rfl rfl rfl hle

theorem countBar (h : Reconciles log entries b) {p : PositionState} {incrementBars : Bool} :
    Reconciles log entries { b with engine := b.engine.countBar p incrementBars } := by
  cases incrementBars with
  | false => exact h.congr rfl rfl rfl le_rfl
  | true => exact h.congr rfl rfl rfl le_rfl

theorem sublist (h : Reconciles log entries b) (hsub : entries'.Sublist entries) :
    Reconciles log entries' b :=
  { h with
    waiting := fun e he => h.waiting e (hsub.subset he)
    distinct := h.distinct.sublist (hsub.map _) }

/-! ## Identifiers -/

/-- An identifier that has not been drawn names no fill. -/
theorem unused (h : Reconciles log entries b) {u : ℕ} (hle : b.uuid ≤ u) : Unused log u where
  filled _ _ _ hentry := absurd (h.drawn _ hentry) (not_lt.mpr hle)
  booked _ _ hentry := absurd (h.drawn _ hentry).2 (not_lt.mpr hle)

theorem not_submitted (h : Reconciles log entries b) {u : ℕ} (hle : b.uuid ≤ u) :
    .submitted (.ord u) ∉ log :=
  fun hentry => absurd (h.drawn _ hentry) (not_lt.mpr hle)

theorem not_booked (h : Reconciles log entries b) {u : ℕ} (hle : b.uuid ≤ u) (fillId : ℕ)
    (exit : Bool) : .booked u fillId exit ∉ log :=
  fun hentry => absurd (h.drawn _ hentry).1 (not_lt.mpr hle)

theorem lt_uuid (h : Reconciles log entries b) {p : PositionState}
    (hp : p ∈ b.stateStore.portfolio.openPositions) : p.positionId < b.uuid := by
  obtain ⟨orderId, _, hheld⟩ := h.held p hp
  obtain ⟨fillId, _, hbooked⟩ := hheld.entered
  exact (h.drawn _ hbooked).1

/-! ## The steps of an order -/

/-- An order under a new identifier waits, and no other entry has it. -/
theorem submit (h : Reconciles log entries b) {u : ℕ} (hle : b.uuid ≤ u) :
    Reconciles (log ++ [.submitted (.ord u)]) entries { b with uuid := u + 1 } ∧
      Waiting (log ++ [.submitted (.ord u)]) (.ord u) ∧
      ∀ e ∈ entries, e.order.orderId ≠ .ord u := by
  have hnew := h.not_submitted hle
  refine ⟨?_, h.reconciled.waiting_submit hnew, ?_⟩
  · have hdrawn := h.draw (hle.trans (Nat.le_succ u))
    refine { hdrawn with
      reconciled := h.reconciled.submit hnew, drawn := ?_, waiting := ?_, held := ?_ }
    · intro entry hentry
      rcases List.mem_append.mp hentry with hentry | hentry
      · exact hdrawn.drawn entry hentry
      · rw [List.mem_singleton.mp hentry]
        exact Nat.lt_succ_self u
    · exact fun e he => (h.waiting e he).submit
    · intro p hp
      obtain ⟨orderId, horder, hheld⟩ := h.held p hp
      exact ⟨orderId, horder, hheld.submit⟩
  · intro e he heq
    have hsubmitted := (h.waiting e he).submitted
    rw [heq] at hsubmitted
    exact hnew hsubmitted

/-- A waiting order is queued. -/
theorem queue (h : Reconciles log entries b) {pending : PendingEntry}
    (hwaiting : Waiting log pending.order.orderId)
    (hother : ∀ e ∈ entries, e.order.orderId ≠ pending.order.orderId) :
    Reconciles log (entries ++ [pending]) b :=
  { h with
    waiting := fun e he => by
      rcases List.mem_append.mp he with he | he
      · exact h.waiting e he
      · rwa [List.mem_singleton.mp he]
    distinct := by
      rw [List.map_append, List.map_singleton, ← List.concat_eq_append]
      refine h.distinct.concat fun hmem => ?_
      obtain ⟨e, he, heq⟩ := List.mem_map.mp hmem
      exact hother e he heq }

section Fills

variable {order : Order} {quantity : ℚ} {side : Side} {positionSide : PositionSide}
  {stopLoss takeProfit : ℚ} {cause : Option ℕ} {next : Bool} {p : PositionState} {exitPrice : ℚ}
  {exitReason : ExitReason} {filled : Filled × ℕ}

/-- A fill and its booking, which name identifiers drawn just now. -/
theorem drawn_append (h : Reconciles log entries b) {orderId : OrderId} {positionId fillId u : ℕ}
    {exit : Bool} (hle : b.uuid ≤ u) (hfill : fillId < u) (hposition : positionId < u) :
    ∀ entry ∈ log ++ [.filled orderId fillId quantity exit, .booked positionId fillId exit],
      DrawnBefore u entry := by
  intro entry hentry
  rcases List.mem_append.mp hentry with hentry | hentry
  · exact (h.drawn entry hentry).mono hle
  · rcases List.mem_cons.mp hentry with rfl | hentry
    · exact hfill
    · rw [List.mem_singleton.mp hentry]
      exact ⟨hposition, hfill⟩

/-- A waiting order that is in no entry is filled. -/
theorem «open» (h : Reconciles log entries b) (hwaiting : Waiting log order.orderId)
    (hother : ∀ e ∈ entries, e.order.orderId ≠ order.orderId)
    (hfilled : b.engine.openPosition order quantity side positionSide stopLoss takeProfit bar c
      cause next b.uuid = filled) :
    Reconciles (log ++ orderLog filled.1.events) entries
      ⟨filled.1.engine, b.stateStore.apply filled.1.transition, filled.2⟩ := by
  have hlog : orderLog filled.1.events = [.filled order.orderId b.uuid quantity false,
      .booked (b.engine.openedId b.uuid) b.uuid false] := by
    subst hfilled
    exact orderLog_openPosition h.emits
  have hlt : b.engine.openedId b.uuid < filled.2 := by
    subst hfilled
    exact openedId_lt
  have hle : b.uuid ≤ b.engine.openedId b.uuid := le_openedId
  have horders : filled.1.engine.positionOrders =
      b.engine.positionOrders.set (b.engine.openedId b.uuid) order.orderId := by
    subst hfilled
    exact positionOrders_openPosition
  obtain ⟨fill, _, _, hpay⟩ := openPosition_payload b.engine order quantity side positionSide
    stopLoss takeProfit bar c cause next b.uuid
  rw [hfilled] at hpay
  have hfresh : b.engine.openedId b.uuid ∉ b.stateStore.openIds := by
    intro hid
    obtain ⟨p, hp, hpid⟩ := List.mem_map.mp hid
    exact absurd (h.lt_uuid hp) (not_lt.mpr (hpid ▸ hle))
  rw [hlog]
  constructor
  · have hqueue : SameQueue b.engine filled.1.engine := hfilled ▸ sameQueue_openPosition
    exact hqueue.emitEvents.trans h.emits
  · exact h.reconciled.enter hwaiting (h.unused le_rfl) fun fillId => h.not_booked hle fillId false
  · exact h.drawn_append (hle.trans hlt.le) (hle.trans_lt hlt) hlt
  · exact fun e he => (h.waiting e he).enter (hother e he)
  · exact h.distinct
  · intro p hp
    change ∃ orderId, filled.1.engine.positionOrders.get? _ = _ ∧ _
    rw [horders]
    rw [apply_positionOpened hpay] at hp
    rcases List.mem_append.mp hp with hp | hp
    · obtain ⟨orderId, horder, hheld⟩ := h.held p hp
      have hne : b.engine.openedId b.uuid ≠ p.positionId := fun heq =>
        hfresh (heq ▸ List.mem_map_of_mem hp)
      exact ⟨orderId, (Dict.get?_set_of_ne hne).trans horder, hheld.enter⟩
    · rw [List.mem_singleton.mp hp]
      exact ⟨order.orderId, Dict.get?_set_self, h.reconciled.held_enter hwaiting⟩
  · rw [apply_positionOpened hpay, openIds_applyPositionOpened, ← List.concat_eq_append]
    exact h.nodup.concat hfresh

/-- An open position is closed on its order. -/
theorem close (h : Reconciles log entries b) (isOpen : p ∈ b.stateStore.portfolio.openPositions)
    (hfilled : b.engine.closePosition p exitPrice exitReason c b.uuid = filled) :
    Reconciles (log ++ orderLog filled.1.events) entries
      ⟨filled.1.engine, b.stateStore.apply filled.1.transition, filled.2⟩ := by
  obtain ⟨orderId, horder, hheld⟩ := h.held p isOpen
  have hlog : orderLog filled.1.events = [.filled orderId b.uuid p.quantity true,
      .booked p.positionId b.uuid true] := by
    have hgetD :
        b.engine.positionOrders.getD p.positionId (.ofPosition p.positionId) = orderId := by
      rw [Dict.getD, horder]
      rfl
    rw [← hgetD, ← hfilled]
    exact orderLog_closePosition h.emits
  have hlt : b.uuid < filled.2 := hfilled ▸ lt_closePosition_uuid
  have horders : filled.1.engine.positionOrders = b.engine.positionOrders.erase p.positionId := by
    subst hfilled
    rfl
  obtain ⟨fill, _, _, hpay⟩ :=
    closePosition_payload b.engine c b.uuid p exitPrice exitReason
  rw [hfilled] at hpay
  rw [hlog]
  constructor
  · have hqueue : SameQueue b.engine filled.1.engine := hfilled ▸ sameQueue_closePosition
    exact hqueue.emitEvents.trans h.emits
  · exact h.reconciled.leave hheld (h.unused le_rfl)
  · exact h.drawn_append hlt.le hlt ((h.lt_uuid isOpen).trans hlt)
  · exact fun e he => (h.waiting e he).leave
  · exact h.distinct
  · intro p' hp'
    change ∃ orderId, filled.1.engine.positionOrders.get? _ = _ ∧ _
    rw [apply_positionClosed hpay, openPositions_applyPositionClosed] at hp'
    obtain ⟨hopen, hne⟩ := Keyed.mem_remove.mp hp'
    obtain ⟨orderId', horder', hheld'⟩ := h.held p' hopen
    rw [horders]
    exact ⟨orderId', (Dict.get?_erase_of_ne (Ne.symm hne)).trans horder',
      hheld'.leave h.reconciled hheld hne⟩
  · rw [apply_positionClosed hpay, openIds_applyPositionClosed]
    exact h.nodup.filter _

end Fills

/-! ## The passes -/

variable {approvedSide : Option Side} {incrementBars : Bool} {exitPrice : ℚ}

theorem fillEntries (kept entries : List PendingEntry) (h : Reconciles log (kept ++ entries) b) :
    let pass := SimulatedExecutionEngine.fillEntries bar c b.engine entries b.uuid
    Reconciles (log ++ orderLog pass.1.events) (kept ++ entries.filter (·.symbol ≠ c.symbol))
      (b.after pass) := by
  induction entries generalizing log kept b with
  | nil =>
    rw [← List.append_nil log] at h
    exact h
  | cons pending rest ih =>
    by_cases hsym : pending.symbol = c.symbol
    · have hrest : (kept ++ rest).Sublist (kept ++ pending :: rest) :=
        (List.sublist_cons_self pending rest).append_left kept
      have hother : ∀ e ∈ kept ++ rest, e.order.orderId ≠ pending.order.orderId := by
        have hnodup := h.distinct
        rw [List.map_append, List.map_cons, List.nodup_middle, ← List.map_append] at hnodup
        intro e he heq
        exact (List.nodup_cons.mp hnodup).1 (heq ▸ List.mem_map_of_mem he)
      have hwaiting := h.waiting pending (List.mem_append_right _ List.mem_cons_self)
      let filled := b.engine.fillPending pending bar c b.uuid
      have hfilled := (h.sublist hrest).open hwaiting hother (rfl : _ = filled)
      have hpass := ih kept hfilled
      rw [fillEntries_cons_of_eq hsym, List.filter_cons_of_neg (by simpa using hsym)]
      simp only [Pass.append, Filled.toPass, orderLog_append]
      rw [← List.append_assoc]
      exact hpass
    · have hkept : Reconciles log ((kept ++ [pending]) ++ rest) b := by
        rwa [List.append_assoc, List.singleton_append]
      have hpass := ih (kept ++ [pending]) hkept
      rw [List.append_assoc, List.singleton_append] at hpass
      rw [fillEntries_cons_of_ne hsym, List.filter_cons_of_pos (by simpa using hsym)]
      exact hpass

/-- The exits of a pass over positions that are open and distinct. -/
theorem evaluatePositions (positions : List PositionState) (h : Reconciles log entries b)
    (hnd : (positions.map (·.positionId)).Nodup)
    (hopen : ∀ p ∈ positions, p ∈ b.stateStore.portfolio.openPositions) :
    let pass := SimulatedExecutionEngine.evaluatePositions bar c approvedSide incrementBars b.engine
      positions b.uuid
    Reconciles (log ++ orderLog pass.1.events) entries (b.after pass) := by
  induction positions generalizing log b with
  | nil =>
    rw [← List.append_nil log] at h
    exact h
  | cons position rest ih =>
    have hrest : (rest.map (·.positionId)).Nodup := (List.nodup_cons.mp hnd).2
    by_cases hsym : position.symbol = c.symbol
    · have hcount : Reconciles log entries
          { b with engine := b.engine.countBar position incrementBars } := h.countBar
      cases hexit : (b.engine.countBar position incrementBars).checkExit position bar
          (b.engine.barsHeld position incrementBars) approvedSide incrementBars with
      | none =>
        rw [evaluatePositions_cons_of_none hsym hexit]
        exact ih hcount hrest fun p hp => hopen p (List.mem_cons_of_mem _ hp)
      | some exit =>
        obtain ⟨exitReason, exitPrice⟩ := exit
        let filled := (b.engine.countBar position incrementBars).closePosition position exitPrice
          exitReason c b.uuid
        have hclosed := hcount.close (hopen position List.mem_cons_self) (rfl : _ = filled)
        have hpass := ih hclosed hrest (visit_rest hnd hopen)
        rw [evaluatePositions_cons_of_some hsym hexit]
        simp only [Pass.append, Filled.toPass, orderLog_append]
        rw [← List.append_assoc]
        exact hpass
    · rw [evaluatePositions_cons_of_ne hsym]
      exact ih h hrest fun p hp => hopen p (List.mem_cons_of_mem _ hp)

/-- The exits of a liquidation. -/
theorem closeAll (positions : List PositionState) (h : Reconciles log entries b)
    (hnd : (positions.map (·.positionId)).Nodup)
    (hopen : ∀ p ∈ positions, p ∈ b.stateStore.portfolio.openPositions) :
    let pass := SimulatedExecutionEngine.closeAll exitPrice c b.engine positions b.uuid
    Reconciles (log ++ orderLog pass.1.events) entries (b.after pass) := by
  induction positions generalizing log b with
  | nil =>
    rw [← List.append_nil log] at h
    exact h
  | cons position rest ih =>
    have hrest : (rest.map (·.positionId)).Nodup := (List.nodup_cons.mp hnd).2
    by_cases hsym : position.symbol = c.symbol
    · let filled := b.engine.closePosition position exitPrice .endOfRun c b.uuid
      have hclosed := h.close (hopen position List.mem_cons_self) (rfl : _ = filled)
      have hpass := ih hclosed hrest (visit_rest hnd hopen)
      rw [closeAll_cons_of_eq hsym]
      simp only [Pass.append, Filled.toPass, orderLog_append]
      rw [← List.append_assoc]
      exact hpass
    · rw [closeAll_cons_of_ne hsym]
      exact ih h hrest fun p hp => hopen p (List.mem_cons_of_mem _ hp)

/-- A pass on a snapshot of the store: the queued entries of the symbol are filled if the bar
counts, then positions are closed. -/
theorem evaluateBar (h : Reconciles log b.engine.pendingEntries b) {snapshot : StateSnapshot}
    (hsnap : snapshot.portfolio = b.stateStore.portfolio) {pass : Pass × ℕ}
    (hpass : b.engine.evaluateBar bar snapshot c approvedSide incrementBars b.uuid = pass) :
    Reconciles (log ++ orderLog pass.1.events) pass.1.engine.pendingEntries (b.after pass) := by
  have hnd : (snapshot.portfolio.openPositions.map (·.positionId)).Nodup := by
    rw [hsnap]
    exact h.nodup
  cases incrementBars with
  | false =>
    let exits := SimulatedExecutionEngine.evaluatePositions bar c approvedSide false b.engine
      snapshot.portfolio.openPositions b.uuid
    have hexits : Reconciles (log ++ orderLog exits.1.events) b.engine.pendingEntries
        (b.after exits) := h.evaluatePositions _ hnd fun p hp => hsnap ▸ hp
    have hqueue : SameQueue b.engine exits.1.engine := (evaluatePositions_spec ..).2
    rw [← hpass]
    change Reconciles (log ++ orderLog (b.engine.filterEvents ([] ++ exits.1.events)))
      exits.1.engine.pendingEntries (b.after exits)
    rw [filterEvents_eq h.emits, hqueue.pendingEntries]
    exact hexits
  | true =>
    let filled := SimulatedExecutionEngine.fillEntries bar c b.engine b.engine.pendingEntries b.uuid
    have hfilled : Reconciles (log ++ orderLog filled.1.events)
        (b.engine.pendingEntries.filter (·.symbol ≠ c.symbol)) (b.after filled) :=
      h.fillEntries [] b.engine.pendingEntries
    have hopenings : ∀ t ∈ filled.1.transitions, t.IsOpening := fun t ht =>
      ((fillEntries_spec bar c b.engine.pendingEntries b.engine b.uuid).1.isOpening.2 t ht).1
    let drained : Book := { b.after filled with engine := { filled.1.engine with
      pendingEntries := b.engine.pendingEntries.filter (·.symbol ≠ c.symbol) } }
    have hdrained : Reconciles (log ++ orderLog filled.1.events) drained.engine.pendingEntries
        drained := hfilled.congr rfl rfl rfl le_rfl
    let exits := SimulatedExecutionEngine.evaluatePositions bar c approvedSide true drained.engine
      snapshot.portfolio.openPositions drained.uuid
    have hexits : Reconciles (log ++ orderLog filled.1.events ++ orderLog exits.1.events)
        drained.engine.pendingEntries (drained.after exits) :=
      hdrained.evaluatePositions _ hnd fun p hp => mem_of_openings hopenings (hsnap ▸ hp)
    have hqueue : SameQueue drained.engine exits.1.engine := (evaluatePositions_spec ..).2
    have hafter : b.after pass = drained.after exits := by
      rw [← hpass]
      change Book.mk _ (Run.exec _ _ (filled.1.transitions ++ exits.1.transitions)) _ = _
      rw [Run.exec_append]
      rfl
    have hevents : orderLog pass.1.events =
        orderLog filled.1.events ++ orderLog exits.1.events := by
      rw [← hpass]
      change orderLog (b.engine.filterEvents (b.engine.filterEvents filled.1.events ++
        exits.1.events)) = _
      rw [filterEvents_eq h.emits, filterEvents_eq h.emits, orderLog_append]
    have hpending : pass.1.engine.pendingEntries = drained.engine.pendingEntries := by
      rw [← hpass]
      exact hqueue.pendingEntries
    rw [hafter, hevents, hpending, ← List.append_assoc]
    exact hexits

/-- An order that is submitted is queued, or filled at once. -/
theorem submitOrder (h : Reconciles log b.engine.pendingEntries b) {decision : Decision}
    {signal : FinalSignal} {intent : OrderIntent} {intentEvent : Option EventEnvelope} {u : ℕ}
    (hle : b.uuid ≤ u) (hintent : ∀ e ∈ intentEvent, e.logged? = none) :
    let pass := b.engine.submitOrder decision signal intent bar c intentEvent u
    Reconciles (log ++ orderLog pass.1.events) pass.1.engine.pendingEntries (b.after pass) := by
  obtain ⟨hsubmitted, hwaiting, hother⟩ := h.submit hle
  have hnone : orderLog intentEvent.toList = [] :=
    orderLog_eq_nil fun e he => hintent e (Option.mem_toList.mp he)
  have hdrawn : Reconciles (log ++ [.submitted (.ord u)]) b.engine.pendingEntries
      { b with uuid := u + 3 } := hsubmitted.draw (Nat.le_add_right (u + 1) 2)
  intro pass
  by_cases hfill : b.engine.fillModel.fillAt = .nextOpen
  · obtain ⟨pending, hid, htransitions, hengine, hevents, huuid⟩ :=
      submitOrder_queued_log c u decision signal intent intentEvent bar h.emits hfill
    have hafter : b.after pass =
        ⟨{ b.engine with pendingEntries := b.engine.pendingEntries ++ [pending] }, b.stateStore,
          u + 3⟩ := by
      rw [after, htransitions, hengine, huuid]
      rfl
    rw [← hid] at hwaiting hother hdrawn hevents
    rw [hafter, hevents, hengine, hnone, List.nil_append]
    exact (hdrawn.queue hwaiting hother).congr rfl rfl rfl le_rfl
  · obtain ⟨order, cause, hid, htransitions, hengine, huuid, hevents⟩ :=
      submitOrder_filled_log c u decision signal intent intentEvent bar h.emits hfill
    rw [← hid] at hwaiting hother hdrawn hevents
    let filled := b.engine.openPosition order intent.quantity signal.side (entrySide signal.side)
      signal.stopLoss signal.takeProfit bar c cause false (u + 3)
    have hafter : b.after pass =
        ⟨filled.1.engine, b.stateStore.apply filled.1.transition, filled.2⟩ := by
      rw [after, htransitions, hengine, huuid]
      rfl
    have hqueue : SameQueue b.engine filled.1.engine := sameQueue_openPosition
    have hopened := hdrawn.open hwaiting hother (rfl : _ = filled)
    rw [List.append_assoc] at hopened
    rw [hafter, hevents, hengine, hnone, List.nil_append, hqueue.pendingEntries]
    exact hopened

/-- Events that say nothing of an order change nothing. -/
theorem silent (h : Reconciles log b.engine.pendingEntries b) {events : List EventEnvelope} {u : ℕ}
    (hle : b.uuid ≤ u) (hevents : ∀ e ∈ events, e.logged? = none) :
    let pass : Pass := { engine := b.engine, events := b.engine.filterEvents events }
    Reconciles (log ++ orderLog pass.events) pass.engine.pendingEntries (b.after (pass, u)) := by
  intro pass
  have hnone : orderLog pass.events = [] := by
    change orderLog (b.engine.filterEvents events) = []
    rw [filterEvents_eq h.emits, orderLog_eq_nil hevents]
  rw [hnone, List.append_nil]
  exact h.draw hle

/-- An intent that the gate lets pass becomes an order; another one is rejected. -/
theorem gateOrder (h : Reconciles log b.engine.pendingEntries b) {decision : Decision}
    {signal : FinalSignal} {intent : OrderIntent} {intentEvent : Option EventEnvelope}
    {snapshot : StateSnapshot} {pass : Pass} {u u' : ℕ} (hle : b.uuid ≤ u)
    (hintent : ∀ e ∈ intentEvent, e.logged? = none)
    (hrun : b.engine.gateOrder decision signal intent snapshot bar c intentEvent u =
      (.ok pass, u')) :
    Reconciles (log ++ orderLog pass.events) pass.engine.pendingEntries (b.after (pass, u')) := by
  cases hcheck : ExecutionRiskGate.check intent snapshot with
  | error e =>
    simp only [SimulatedExecutionEngine.gateOrder, hcheck] at hrun
    cases hrun
  | ok r =>
    simp only [SimulatedExecutionEngine.gateOrder, hcheck] at hrun
    cases hr : r.passed with
    | true =>
      simp only [hr, if_true] at hrun
      cases hrun
      exact h.submitOrder hle hintent
    | false =>
      simp only [hr] at hrun
      cases hrun
      apply h.silent (hle.trans (Nat.le_succ u))
      intro e he
      rcases List.mem_append.mp he with he | he
      · exact hintent e (Option.mem_toList.mp he)
      · rw [List.mem_singleton.mp he]
        rfl

/-- An execution that does not raise. -/
theorem execute (h : Reconciles log b.engine.pendingEntries b) {decision : Decision}
    {snapshot : StateSnapshot} {pass : Pass} {u u' : ℕ} (hle : b.uuid ≤ u)
    (hrun : b.engine.execute decision snapshot bar c u = (.ok pass, u')) :
    Reconciles (log ++ orderLog pass.events) pass.engine.pendingEntries (b.after (pass, u')) := by
  have hnothing : Reconciles (log ++ orderLog []) b.engine.pendingEntries
      (b.after ({ engine := b.engine }, u)) := by
    rw [orderLog_nil, List.append_nil]
    exact h.draw hle
  cases happroved : decision.isApproved with
  | false =>
    simp only [SimulatedExecutionEngine.execute, happroved] at hrun
    cases hrun
    exact hnothing
  | true =>
    cases hsignal : decision.finalSignal with
    | none =>
      simp only [SimulatedExecutionEngine.execute, happroved, hsignal] at hrun
      cases hrun
      exact hnothing
    | some signal =>
      simp only [SimulatedExecutionEngine.execute, happroved, hsignal] at hrun
      split at hrun
      · cases hrun
        exact hnothing
      split at hrun
      · cases hrun
        apply h.silent (hle.trans (Nat.le_succ u))
        intro e he
        rw [List.mem_singleton.mp he]
        rfl
      · let quantity :=
          b.engine.positionSize snapshot signal.entryPrice signal.stopLoss signal.sizeMultiplier
        let created := b.engine.emitting (buildEnvelope c
          (.orderIntentCreated (orderIntent u decision signal quantity snapshot c))) (u + 1)
        have hcreated : ∀ e ∈ created.1, e.logged? = none := by
          intro e he
          have hmade : created.1 = some _ := congrArg Prod.fst (emitting_eq h.emits)
          rw [hmade] at he
          rw [← Option.some.inj he]
          rfl
        have hdrawn : u + 1 ≤ created.2 := le_emitting_uuid
        exact h.gateOrder (hle.trans ((Nat.le_succ u).trans hdrawn)) hcreated hrun

end Reconciles

end Book

end TradingPlatform
