import TradingPlatform.Contracts

/-!
# Event envelopes

The payload of an envelope determines its `event_type`, and with it its family; each constructor of
`Payload` carries the entries the code puts into the payload dictionary of that type.
-/

namespace TradingPlatform

inductive EventFamily | market | signal | decision | execution
  deriving DecidableEq, Repr

inductive EventType
  | candleReceived | featureSetBuilt | marketContextDerived
  | providerOpinion | providerSkipped
  | decisionMade | decisionApproved | decisionRejected
  | orderIntentCreated | orderSubmitted | orderAcknowledged | fillReceived | positionOpened
  | positionClosed | signalPublished | orderRejected | executionFailed
  deriving DecidableEq, Repr

/-- The payload of a `POSITION_CLOSED` event. -/
structure ClosedPayload where
  positionId : ℕ
  exitReason : ExitReason
  exitPrice : ℚ
  pnl : ℚ
  fillId : ℕ
  entryPrice : ℚ
  side : PositionSide
  quantity : ℚ
  stopLoss : Option ℚ
  takeProfit : Option ℚ
  barsHeld : ℕ
  deriving DecidableEq, Repr

inductive Payload
  | candleReceived (bar : Bar)
  | featureSetBuilt (featureSetId : ℕ) (featureVersion configHash : String)
      (indicators : List (String × ℚ)) (flags : List (String × Bool))
  | marketContextDerived (context : MarketContext)
  | providerOpinion (providerId : String) (side : SignalSide) (confidence : ℚ)
      (rationale : ProviderRationale)
  | providerSkipped (providerId reason : String)
  | decisionMade (decisionId : ℕ) (result : ResultValue) (stateSnapshotId : ℕ)
      (decisionLog : DecisionLog)
  | decisionApproved (decisionId stateSnapshotId : ℕ) (finalSignal : Option FinalSignal)
  | decisionRejected (decisionId stateSnapshotId : ℕ) (rejectionStage : Option RejectionStage)
      (rejectionReason : Option String) (decisionLog : DecisionLog)
  | orderIntentCreated (intent : OrderIntent)
  | orderSubmitted (order : Order) (decisionId : ℕ)
  | orderAcknowledged (orderId : OrderId)
  | fillReceived (fill : Fill) (fillModelId : String) (exit : Bool)
  | positionOpened (positionId entryFillId : ℕ) (position : PositionState)
  | positionClosed (closed : ClosedPayload)
  | signalPublished (decisionId : ℕ) (signal : FinalSignal)
  | orderRejected (reason : Option String) (stage : String)
  | executionFailed (error stage : String)
  deriving DecidableEq

def Payload.eventType : Payload → EventType
  | .candleReceived .. => .candleReceived
  | .featureSetBuilt .. => .featureSetBuilt
  | .marketContextDerived .. => .marketContextDerived
  | .providerOpinion .. => .providerOpinion
  | .providerSkipped .. => .providerSkipped
  | .decisionMade .. => .decisionMade
  | .decisionApproved .. => .decisionApproved
  | .decisionRejected .. => .decisionRejected
  | .orderIntentCreated .. => .orderIntentCreated
  | .orderSubmitted .. => .orderSubmitted
  | .orderAcknowledged .. => .orderAcknowledged
  | .fillReceived .. => .fillReceived
  | .positionOpened .. => .positionOpened
  | .positionClosed .. => .positionClosed
  | .signalPublished .. => .signalPublished
  | .orderRejected .. => .orderRejected
  | .executionFailed .. => .executionFailed

def EventType.family : EventType → EventFamily
  | .candleReceived | .featureSetBuilt | .marketContextDerived => .market
  | .providerOpinion | .providerSkipped => .signal
  | .decisionMade | .decisionApproved | .decisionRejected => .decision
  | _ => .execution

structure EventEnvelope where
  eventId : ℕ
  eventTime : ℤ
  processingTime : ℤ
  correlationId : CorrelationId
  causationId : Option ℕ
  symbol : String
  timeframe : String
  mode : Mode
  revisionId : Option String
  experimentId : Option String
  payload : Payload
  deriving DecidableEq

def EventEnvelope.eventType (e : EventEnvelope) : EventType := e.payload.eventType

def EventEnvelope.eventFamily (e : EventEnvelope) : EventFamily := e.eventType.family

/-- The arguments the envelopes of one call share: its bar's times, its cycle, its market. -/
structure EventCtx where
  eventTime : ℤ
  processingTime : ℤ
  correlationId : CorrelationId
  symbol : String
  timeframe : String
  mode : Mode
  revisionId : Option String := none
  experimentId : Option String := none
  deriving DecidableEq, Repr

/-- `build_envelope` -/
def buildEnvelope (c : EventCtx) (payload : Payload) (causationId : Option ℕ := none) :
    StateM ℕ EventEnvelope := do
  let eventId ← uuid4
  return {
    eventId, causationId, payload
    eventTime := c.eventTime
    processingTime := c.processingTime
    correlationId := c.correlationId
    symbol := c.symbol
    timeframe := c.timeframe
    mode := c.mode
    revisionId := c.revisionId
    experimentId := c.experimentId }

@[simp] theorem buildEnvelope_payload (c : EventCtx) (p : Payload) (cause : Option ℕ)
    (u : ℕ) : (buildEnvelope c p cause u).1.payload = p := rfl

@[simp] theorem buildEnvelope_eventTime (c : EventCtx) (p : Payload) (cause : Option ℕ)
    (u : ℕ) : (buildEnvelope c p cause u).1.eventTime = c.eventTime := rfl

end TradingPlatform
