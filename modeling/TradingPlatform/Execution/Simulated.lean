import TradingPlatform.Execution.Positions

/-!
# The simulated execution engine

`execute`, `evaluate_bar`, `process_pending_entries` and `liquidate_open_positions`. Each works on
a snapshot, changes the engine's own maps and queue, and returns the events and the transitions of
the call; the caller applies the transitions to the store.
-/

namespace TradingPlatform

/-- An `ExecutionResult`, with the engine the call leaves. -/
structure Pass where
  events : List EventEnvelope := []
  transitions : List StateTransitionEvent := []
  engine : SimulatedExecutionEngine
  deriving DecidableEq

/-- Two passes in a row. -/
def Pass.append (first rest : Pass) : Pass where
  events := first.events ++ rest.events
  transitions := first.transitions ++ rest.transitions
  engine := rest.engine

/-- The pass that makes one fill. -/
def Filled.toPass (f : Filled) : Pass where
  events := f.events
  transitions := [f.transition]
  engine := f.engine

namespace SimulatedExecutionEngine

/-- The event types `filter_events` keeps when the engine does not emit every event. -/
def scoreOutcomeTypes : List EventType := [.orderRejected, .positionOpened, .positionClosed]

/-- `filter_events` -/
def filterEvents (engine : SimulatedExecutionEngine) (events : List EventEnvelope) :
    List EventEnvelope :=
  if engine.emitEvents then events else events.filter (·.eventType ∈ scoreOutcomeTypes)

/-- `execution_failed` -/
def executionFailed (c : EventCtx) (error stage : String) : StateM ℕ EventEnvelope :=
  buildEnvelope c (.executionFailed error stage)

/-! ## Pending entries -/

/-- The fill of a queued entry at the open of the bar. -/
def fillPending (engine : SimulatedExecutionEngine) (pending : PendingEntry) (bar : Bar)
    (c : EventCtx) : StateM ℕ Filled :=
  engine.openPosition pending.order pending.quantity pending.side pending.positionSide
    pending.stopLoss pending.takeProfit bar c none true

/-- Fill the entries of the bar's symbol in turn; the others stay as they are. -/
def fillEntries (bar : Bar) (c : EventCtx) (engine : SimulatedExecutionEngine) :
    List PendingEntry → StateM ℕ Pass
  | [] => return { engine }
  | pending :: rest => do
    if pending.symbol ≠ c.symbol then fillEntries bar c engine rest
    else
      let filled ← engine.fillPending pending bar c
      let pass ← fillEntries bar c filled.engine rest
      return filled.toPass.append pass

/-- `process_pending_entries` -/
def processPendingEntries (engine : SimulatedExecutionEngine) (bar : Bar) (c : EventCtx) :
    StateM ℕ Pass := do
  let pass ← fillEntries bar c engine engine.pendingEntries
  return { pass with
    events := engine.filterEvents pass.events
    engine := { pass.engine with
      pendingEntries := engine.pendingEntries.filter (·.symbol ≠ c.symbol) } }

/-! ## Exits -/

/-- The bars a position has been held, the current bar included if it counts. -/
def barsHeld (engine : SimulatedExecutionEngine) (position : PositionState)
    (incrementBars : Bool) : ℕ :=
  engine.positionBars.getD position.positionId 0 + if incrementBars then 1 else 0

/-- Record the bars held, when the bar counts. -/
def countBar (engine : SimulatedExecutionEngine) (position : PositionState)
    (incrementBars : Bool) : SimulatedExecutionEngine :=
  if incrementBars then
    { engine with positionBars :=
        engine.positionBars.set position.positionId (engine.barsHeld position incrementBars) }
  else engine

/-- Close the positions of the bar's symbol whose exit test fires. -/
def evaluatePositions (bar : Bar) (c : EventCtx) (approvedSide : Option Side)
    (incrementBars : Bool) (engine : SimulatedExecutionEngine) :
    List PositionState → StateM ℕ Pass
  | [] => return { engine }
  | position :: rest => do
    if position.symbol ≠ c.symbol then
      evaluatePositions bar c approvedSide incrementBars engine rest
    else
      let barsHeld := engine.barsHeld position incrementBars
      let engine := engine.countBar position incrementBars
      match engine.checkExit position bar barsHeld approvedSide incrementBars with
      | none => evaluatePositions bar c approvedSide incrementBars engine rest
      | some (exitReason, exitPrice) =>
        let filled ← engine.closePosition position exitPrice exitReason c
        let pass ← evaluatePositions bar c approvedSide incrementBars filled.engine rest
        return filled.toPass.append pass

/-- `evaluate_bar` -/
def evaluateBar (engine : SimulatedExecutionEngine) (bar : Bar) (snapshot : StateSnapshot)
    (c : EventCtx) (approvedSide : Option Side := none) (incrementBars : Bool := true) :
    StateM ℕ Pass := do
  let pending ← if incrementBars then engine.processPendingEntries bar c else pure { engine }
  let exits ← evaluatePositions bar c approvedSide incrementBars pending.engine
    snapshot.portfolio.openPositions
  let pass := pending.append exits
  return { pass with events := engine.filterEvents pass.events }

/-- Close every position of the symbol at the given price. -/
def closeAll (exitPrice : ℚ) (c : EventCtx) (engine : SimulatedExecutionEngine) :
    List PositionState → StateM ℕ Pass
  | [] => return { engine }
  | position :: rest => do
    if position.symbol ≠ c.symbol then closeAll exitPrice c engine rest
    else
      let filled ← engine.closePosition position exitPrice .endOfRun c
      let pass ← closeAll exitPrice c filled.engine rest
      return filled.toPass.append pass

/-- `liquidate_open_positions` -/
def liquidateOpenPositions (engine : SimulatedExecutionEngine) (bar : Bar)
    (snapshot : StateSnapshot) (c : EventCtx) : StateM ℕ Pass :=
  closeAll bar.close c engine snapshot.portfolio.openPositions

/-! ## Orders -/

/-- The side of the position an order opens. -/
def entrySide : Side → PositionSide
  | .buy => .long
  | .sell => .short

/-- The part of `execute` after the risk gate has passed the intent: the order is submitted,
acknowledged, and filled at once or queued for the next bar. `c` carries the event time of the
decision. -/
def submitOrder (engine : SimulatedExecutionEngine) (decision : Decision) (signal : FinalSignal)
    (intent : OrderIntent) (bar : Bar) (c : EventCtx) (intentEvent : Option EventEnvelope) :
    StateM ℕ Pass := do
  let causationId := intentEvent.map (·.eventId)
  let orderUuid ← uuid4
  let order : Order :=
    { orderId := .ord orderUuid, intentId := intent.intentId, submittedAt := c.processingTime }
  let submitEvent ← engine.emitting
    (buildEnvelope c (.orderSubmitted order decision.decisionId) causationId)
  let causationId := (submitEvent.map (·.eventId)).or causationId
  let ackEvent ← engine.emitting (buildEnvelope c (.orderAcknowledged order.orderId) causationId)
  let causationId := (ackEvent.map (·.eventId)).or causationId
  let events := intentEvent.toList ++ submitEvent.toList ++ ackEvent.toList
  if engine.fillModel.fillAt = .nextOpen then
    let entry : PendingEntry := {
      order, intent
      quantity := intent.quantity
      side := signal.side
      positionSide := entrySide signal.side
      symbol := c.symbol
      stopLoss := signal.stopLoss
      takeProfit := signal.takeProfit
      decisionEventTime := decision.eventTime }
    return {
      engine := { engine with pendingEntries := engine.pendingEntries ++ [entry] }
      events := engine.filterEvents events }
  else
    let filled ← engine.openPosition order intent.quantity signal.side (entrySide signal.side)
      signal.stopLoss signal.takeProfit bar c causationId
    return {
      engine := filled.engine
      events := engine.filterEvents (events ++ filled.events)
      transitions := [filled.transition] }

/-- The order intent `execute` builds from an approved signal. -/
def orderIntent (intentId : ℕ) (decision : Decision) (signal : FinalSignal) (quantity : ℚ)
    (snapshot : StateSnapshot) (c : EventCtx) : OrderIntent where
  intentId := intentId
  decisionId := decision.decisionId
  correlationId := c.correlationId
  symbol := c.symbol
  side := signal.side
  quantity := quantity
  limitPrice := some signal.entryPrice
  stopLoss := signal.stopLoss
  takeProfit := signal.takeProfit
  stateSnapshotId := snapshot.snapshotId
  experimentId := decision.experimentId
  revisionId := decision.revisionId

/-- The part of `execute` that puts an intent to the risk gate. -/
def gateOrder (engine : SimulatedExecutionEngine) (decision : Decision) (signal : FinalSignal)
    (intent : OrderIntent) (snapshot : StateSnapshot) (bar : Bar) (c : EventCtx)
    (intentEvent : Option EventEnvelope) : StateM ℕ (Except PyError Pass) :=
  match ExecutionRiskGate.check intent snapshot with
  | .error e => return .error e
  | .ok riskResult =>
    if riskResult.passed then do
      return .ok (← engine.submitOrder decision signal intent bar c intentEvent)
    else do
      let rejected ← buildEnvelope c (.orderRejected riskResult.reason "pre_trade")
        (intentEvent.map (·.eventId))
      return .ok { engine, events := engine.filterEvents (intentEvent.toList ++ [rejected]) }

/-- The part of `execute` after sizing. -/
def placeOrder (engine : SimulatedExecutionEngine) (decision : Decision) (signal : FinalSignal)
    (quantity : ℚ) (snapshot : StateSnapshot) (bar : Bar) (c : EventCtx) :
    StateM ℕ (Except PyError Pass) := do
  let intentId ← uuid4
  let intent := orderIntent intentId decision signal quantity snapshot c
  let intentEvent ← engine.emitting (buildEnvelope c (.orderIntentCreated intent))
  engine.gateOrder decision signal intent snapshot bar c intentEvent

/-- `execute` -/
def execute (engine : SimulatedExecutionEngine) (decision : Decision) (snapshot : StateSnapshot)
    (bar : Bar) (c : EventCtx) : StateM ℕ (Except PyError Pass) :=
  match decision.isApproved, decision.finalSignal with
  | true, some signal =>
    if engine.config.longOnly ∧ signal.side = .sell then return .ok { engine }
    else
      let quantity :=
        engine.positionSize snapshot signal.entryPrice signal.stopLoss signal.sizeMultiplier
      if quantity ≤ 0 then do
        let failed ← executionFailed c "invalid_position_size" "sizing"
        return .ok { engine, events := engine.filterEvents [failed] }
      else engine.placeOrder decision signal quantity snapshot bar c
  | _, _ => return .ok { engine }

end SimulatedExecutionEngine

end TradingPlatform
