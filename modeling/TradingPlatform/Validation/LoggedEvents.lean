import TradingPlatform.Events

/-!
# Logged events

The metrics of a run read its events as the log keeps them: an envelope with a dictionary for a
payload, in which an entry can be missing. `none` is a missing entry; for a text also one that is
`None`.
-/

namespace TradingPlatform

/-- The entries the metrics read of the `position` of a payload. -/
structure LoggedPosition where
  positionId : Option String := none
  quantity : Option ℚ := none
  side : Option String := none
  entryPrice : Option ℚ := none
  deriving DecidableEq, Repr

/-- The entries the metrics read of a payload. -/
structure LoggedPayload where
  close : Option ℚ := none
  position : LoggedPosition := {}
  positionId : Option String := none
  pnl : Option ℚ := none
  exitReason : Option String := none
  side : Option String := none
  trend : Option String := none
  volatility : Option String := none
  confidence : Option ℚ := none
  stateSnapshotId : Option String := none
  deriving DecidableEq, Repr

structure LoggedEvent where
  eventType : EventType
  eventTime : ℤ
  correlationId : CorrelationId
  payload : LoggedPayload := {}
  deriving DecidableEq, Repr

def LoggedEvent.eventFamily (e : LoggedEvent) : EventFamily := e.eventType.family

/-- `float(event.payload.get("pnl", 0))` -/
def LoggedEvent.pnl (e : LoggedEvent) : ℚ := e.payload.pnl.getD 0

/-! ## The events of a run -/

def ExitReason.literal : ExitReason → String
  | .signal => "signal"
  | .stopLoss => "stop_loss"
  | .takeProfit => "take_profit"
  | .timeout => "timeout"
  | .endOfRun => "end_of_run"

def PositionSide.literal : PositionSide → String
  | .long => "LONG"
  | .short => "SHORT"

/-- An identifier as the log writes it. -/
def idText (u : ℕ) : String := toString u

theorem idText_injective : Function.Injective idText := fun _ _ h => Nat.repr_injective h

theorem idText_ne_empty (u : ℕ) : idText u ≠ "" := by
  intro h
  have hdigits : Nat.toDigits 10 u = [] := Nat.toList_repr.symm.trans (congrArg String.toList h)
  exact Nat.toDigits_ne_nil hdigits

def Payload.logged : Payload → LoggedPayload
  | .candleReceived bar => { close := some bar.close }
  | .marketContextDerived context => {
      trend := some context.trend.literal
      volatility := some context.volatility.literal }
  | .providerOpinion _ _ confidence _ => { confidence := some confidence }
  | .signalPublished _ signal => { confidence := some signal.confidence }
  | .decisionMade _ _ stateSnapshotId _ | .decisionApproved _ stateSnapshotId _
  | .decisionRejected _ stateSnapshotId _ _ _ =>
    { stateSnapshotId := some (idText stateSnapshotId) }
  | .positionOpened positionId _ position => {
      positionId := some (idText positionId)
      position := {
        positionId := some (idText position.positionId)
        quantity := some position.quantity
        side := some position.side.literal
        entryPrice := some position.entryPrice } }
  | .positionClosed closed => {
      positionId := some (idText closed.positionId)
      pnl := some closed.pnl
      exitReason := some closed.exitReason.literal
      side := some closed.side.literal }
  | _ => {}

/-- An event of a run as the log keeps it. -/
def EventEnvelope.logged (e : EventEnvelope) : LoggedEvent where
  eventType := e.eventType
  eventTime := e.eventTime
  correlationId := e.correlationId
  payload := e.payload.logged

end TradingPlatform
