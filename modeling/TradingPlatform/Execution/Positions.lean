import TradingPlatform.Execution.Engine

/-!
# Opening and closing a position

`open_position` and `close_position` update the engine's private maps and return the events of the
fill together with the transition the caller applies to the store.
-/

namespace TradingPlatform

/-- What `open_position` and `close_position` return, with the engine they leave. -/
structure Filled where
  events : List EventEnvelope
  transition : StateTransitionEvent
  engine : SimulatedExecutionEngine
  deriving DecidableEq

namespace SimulatedExecutionEngine

/-- Run an event constructor only when the engine emits every event. -/
def emitting {α : Type} (engine : SimulatedExecutionEngine) (make : StateM ℕ α) :
    StateM ℕ (Option α) :=
  if engine.emitEvents then some <$> make else pure none

/-- The fee on a fill, `fee_bps` of the traded value. -/
def fee (engine : SimulatedExecutionEngine) (price quantity : ℚ) : ℚ :=
  price * quantity * engine.fillModel.feeBps / 10000

/-- The position `open_position` builds on a fill at `price`. -/
def entryPosition (positionId : ℕ) (quantity price : ℚ) (positionSide : PositionSide)
    (stopLoss takeProfit : ℚ) (c : EventCtx) : PositionState where
  positionId := positionId
  symbol := c.symbol
  side := positionSide
  quantity := quantity
  entryPrice := price
  entryTime := c.eventTime
  stopLoss := some stopLoss
  takeProfit := some takeProfit

/-- `open_position` -/
def openPosition (engine : SimulatedExecutionEngine) (order : Order) (quantity : ℚ) (side : Side)
    (positionSide : PositionSide) (stopLoss takeProfit : ℚ) (bar : Bar) (c : EventCtx)
    (causationId : Option ℕ := none) (useNextOpen : Bool := false) : StateM ℕ Filled := do
  let price := engine.fillPrice bar side useNextOpen
  let fee := engine.fee price quantity
  let fillId ← uuid4
  let fill : Fill := {
    fillId, price, quantity, fee
    orderId := order.orderId
    slippageBps := engine.fillModel.slippageBps
    fillTime := c.eventTime }
  let fillEvent ← engine.emitting
    (buildEnvelope c (.fillReceived fill engine.fillModel.modelId false) causationId)
  let positionId ← uuid4
  let position := entryPosition positionId quantity price positionSide stopLoss takeProfit c
  let openEvent ← buildEnvelope c (.positionOpened positionId fillId position)
    (fillEvent.map (·.eventId))
  let transitionId ← uuid4
  return {
    events := fillEvent.toList ++ [openEvent]
    transition := {
      transitionId
      payload := .positionOpened position fill (price * quantity + fee)
      eventTime := c.eventTime
      correlationId := c.correlationId }
    engine := { engine with
      positionBars := engine.positionBars.set positionId 0
      positionOrders := engine.positionOrders.set positionId order.orderId } }

/-- The profit or loss `close_position` books: the exit fee is taken off. -/
def netPnl (engine : SimulatedExecutionEngine) (position : PositionState) (exitPrice : ℚ) : ℚ :=
  position.grossPnl exitPrice - engine.fee exitPrice position.quantity

/-- `close_position` -/
def closePosition (engine : SimulatedExecutionEngine) (position : PositionState) (exitPrice : ℚ)
    (exitReason : ExitReason) (c : EventCtx) : StateM ℕ Filled := do
  let orderId := engine.positionOrders.getD position.positionId (.ofPosition position.positionId)
  let fillId ← uuid4
  let fill : Fill := {
    fillId, orderId
    price := exitPrice
    quantity := position.quantity
    fee := engine.fee exitPrice position.quantity
    slippageBps := engine.fillModel.slippageBps
    fillTime := c.eventTime }
  let pnl := engine.netPnl position exitPrice
  let fillEvent ← engine.emitting
    (buildEnvelope c (.fillReceived fill engine.fillModel.modelId true))
  let closeEvent ← buildEnvelope c
    (.positionClosed {
      exitReason, exitPrice, pnl, fillId
      positionId := position.positionId
      entryPrice := position.entryPrice
      side := position.side
      quantity := position.quantity
      stopLoss := position.stopLoss
      takeProfit := position.takeProfit
      barsHeld := engine.positionBars.getD position.positionId 0 })
    (fillEvent.map (·.eventId))
  let transitionId ← uuid4
  return {
    events := fillEvent.toList ++ [closeEvent]
    transition := {
      transitionId
      payload := .positionClosed position.positionId fill pnl exitReason
      eventTime := c.eventTime
      correlationId := c.correlationId }
    engine := { engine with
      positionBars := engine.positionBars.erase position.positionId
      positionOrders := engine.positionOrders.erase position.positionId } }

/-! ## What the two functions return -/

/-- The id `openPosition` draws for the position. -/
def openedId (engine : SimulatedExecutionEngine) (u : ℕ) : ℕ :=
  if engine.emitEvents then u + 2 else u + 1

section

variable {engine : SimulatedExecutionEngine} {order : Order} {quantity : ℚ} {side : Side}
  {positionSide : PositionSide} {stopLoss takeProfit : ℚ} {bar : Bar} {c : EventCtx}
  {causationId : Option ℕ} {useNextOpen : Bool} {u : ℕ} {position : PositionState}
  {exitPrice : ℚ} {exitReason : ExitReason}

theorem le_openedId : u ≤ engine.openedId u := by unfold openedId; split <;> omega

/-- The id of the opened position lies among the ids the call has drawn. -/
theorem openedId_lt : engine.openedId u < (engine.openPosition order quantity side positionSide
    stopLoss takeProfit bar c causationId useNextOpen u).2 := by
  unfold openedId openPosition emitting
  cases engine.emitEvents
  · exact Nat.lt_add_of_pos_right (n := u + 1) (k := 3) (by omega)
  · exact Nat.lt_add_of_pos_right (n := u + 2) (k := 3) (by omega)

variable (engine order quantity side positionSide stopLoss takeProfit bar c causationId
  useNextOpen u) in
/-- The transition of `openPosition`: the position stands at the fill price, and its cost is its
notional plus the fee of the fill. -/
theorem openPosition_payload : ∃ fill : Fill,
    fill.fee = engine.fee (engine.fillPrice bar side useNextOpen) quantity ∧
    fill.price = engine.fillPrice bar side useNextOpen ∧
    (engine.openPosition order quantity side positionSide stopLoss takeProfit bar c causationId
      useNextOpen u).1.transition.payload =
      .positionOpened (entryPosition (engine.openedId u) quantity
        (engine.fillPrice bar side useNextOpen) positionSide stopLoss takeProfit c) fill
        (engine.fillPrice bar side useNextOpen * quantity + fill.fee) := by
  unfold openedId openPosition emitting
  cases engine.emitEvents <;> exact ⟨_, rfl, rfl, rfl⟩

variable (engine position exitPrice exitReason c u) in
/-- The transition of `closePosition`: the booked result is net of the fee of the exit fill. -/
theorem closePosition_payload : ∃ fill : Fill,
    fill.fee = engine.fee exitPrice position.quantity ∧ fill.price = exitPrice ∧
    (engine.closePosition position exitPrice exitReason c u).1.transition.payload =
      .positionClosed position.positionId fill (engine.netPnl position exitPrice) exitReason := by
  unfold closePosition emitting
  cases engine.emitEvents <;> exact ⟨_, rfl, rfl, rfl⟩

theorem positionBars_openPosition : (engine.openPosition order quantity side positionSide stopLoss
    takeProfit bar c causationId useNextOpen u).1.engine.positionBars =
      engine.positionBars.set (engine.openedId u) 0 := by
  unfold openedId openPosition emitting
  cases engine.emitEvents <;> rfl

theorem positionOrders_openPosition : (engine.openPosition order quantity side positionSide
    stopLoss takeProfit bar c causationId useNextOpen u).1.engine.positionOrders =
      engine.positionOrders.set (engine.openedId u) order.orderId := by
  unfold openedId openPosition emitting
  cases engine.emitEvents <;> rfl

theorem le_openPosition_uuid : u ≤ (engine.openPosition order quantity side positionSide stopLoss
    takeProfit bar c causationId useNextOpen u).2 :=
  le_openedId.trans openedId_lt.le

theorem le_closePosition_uuid : u ≤ (engine.closePosition position exitPrice exitReason c u).2 := by
  unfold closePosition emitting
  cases engine.emitEvents
  · exact Nat.le_add_right u 3
  · exact Nat.le_add_right u 4

@[simp] theorem openPosition_eventTime : (engine.openPosition order quantity side positionSide
    stopLoss takeProfit bar c causationId useNextOpen u).1.transition.eventTime = c.eventTime :=
  rfl

@[simp] theorem closePosition_eventTime :
    (engine.closePosition position exitPrice exitReason c u).1.transition.eventTime =
      c.eventTime := rfl

end

end SimulatedExecutionEngine

end TradingPlatform
