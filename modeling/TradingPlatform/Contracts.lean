import TradingPlatform.Lib.Dict

/-!
# The contracts shared by every component

The records of `core/contracts`. Prices, quantities and percentages are exact rationals. A
`datetime` is an integer number of microseconds since the epoch in UTC. Identifiers drawn from
`uuid4` are the successive values of a counter, so no two of them coincide; identifiers a caller
supplies are strings.
-/

namespace TradingPlatform

/-! ## Time and identifiers -/

/-- `datetime.date`, in days since the epoch. -/
def date (t : ℤ) : ℤ := t / 86400000000

theorem date_mono {s t : ℤ} (h : s ≤ t) : date s ≤ date t := Int.ediv_le_ediv (by decide) h

/-- `timedelta(seconds=n)` -/
def seconds (n : ℤ) : ℤ := n * 1000000

/-- `uuid.uuid4`: the next identifier of the supply. -/
def uuid4 : StateM ℕ ℕ := fun u => (u, u + 1)

/-- The identifier of an order, or the stand-in `close_position` uses for a position without one. -/
inductive OrderId
  | ord (u : ℕ)
  | ofPosition (positionId : ℕ)
  deriving DecidableEq, Repr

/-- A correlation id: the caller's, or `cycle_<uuid>`. -/
inductive CorrelationId
  | given (s : String)
  | cycle (u : ℕ)
  deriving DecidableEq, Repr

/-! ## Truth values -/

/-- A text that counts as given in Python. -/
def given (s : Option String) : Bool := s.any fun s => decide (s ≠ "")

/-- Python's `or` between texts. -/
def orText (s : Option String) (other : String) : String :=
  match s with
  | none => other
  | some s => if s = "" then other else s

/-- Python's `or` between numbers. -/
def orNumber (x : Option ℚ) (other : ℚ) : ℚ :=
  match x with
  | none => other
  | some x => if x = 0 then other else x

/-- `_clamp` -/
def clamp (value low high : ℚ) : ℚ := max low (min high value)

theorem clamp_mem {value low high : ℚ} (h : low ≤ high) :
    low ≤ clamp value low high ∧ clamp value low high ≤ high :=
  ⟨le_max_left .., max_le h (min_le_left ..)⟩

/-- The exceptions the modelled code can raise. -/
inductive PyError
  | dataProviderError (msg : String)
  | indexError
  | keyError (key : String)
  | runtimeError (msg : String)
  | validationError (model field : String)
  | valueError (msg : String)
  | zeroDivisionError
  | raised (what : String)
  deriving DecidableEq, Repr

/-! ## Enumerations -/

/-- `Literal["BUY", "SELL"]` -/
inductive Side | buy | sell
  deriving DecidableEq, Repr

/-- `Literal["BUY", "SELL", "HOLD"]` -/
inductive SignalSide | buy | sell | hold
  deriving DecidableEq, Repr

/-- `Literal["LONG", "SHORT"]` -/
inductive PositionSide | long | short
  deriving DecidableEq, Repr

inductive Mode | validation | live | paper | replay
  deriving DecidableEq, Repr

/-- The exit reasons of `check_exit` and of the end-of-run liquidation. -/
inductive ExitReason | signal | stopLoss | takeProfit | timeout | endOfRun
  deriving DecidableEq, Repr

inductive FillAt | close | nextOpen | mid
  deriving DecidableEq, Repr

inductive Trend | up | down | sideways
  deriving DecidableEq, Repr

inductive Volatility | low | normal | high
  deriving DecidableEq, Repr

inductive Session | asia | europe | us | overlap
  deriving DecidableEq, Repr

/-- The literal of a session, as `FilterConfig.allowed_sessions` spells it. -/
def Session.literal : Session → String
  | .asia => "ASIA"
  | .europe => "EUROPE"
  | .us => "US"
  | .overlap => "OVERLAP"

def Trend.literal : Trend → String
  | .up => "UP"
  | .down => "DOWN"
  | .sideways => "SIDEWAYS"

def Volatility.literal : Volatility → String
  | .low => "LOW"
  | .normal => "NORMAL"
  | .high => "HIGH"

def Side.toSignalSide : Side → SignalSide
  | .buy => .buy
  | .sell => .sell

/-- The side of an open position that a decision side closes. -/
def Side.opposes : Side → PositionSide → Bool
  | .sell, .long => true
  | .buy, .short => true
  | _, _ => false

/-! ## Market data -/

/-- The OHLCV values of one bar. -/
structure Bar where
  «open» : ℚ
  high : ℚ
  low : ℚ
  close : ℚ
  volume : ℚ
  deriving DecidableEq, Repr

/-- A row of an OHLCV frame. -/
structure Candle where
  timestamp : ℤ
  bar : Bar
  deriving DecidableEq, Repr

abbrev Frame := List Candle

structure MarketContext where
  symbol : String
  timeframe : String
  currentPrice : ℚ
  trend : Trend
  volatility : Volatility
  atr : ℚ
  atrPct : ℚ
  session : Session
  eventTime : ℤ
  deriving DecidableEq, Repr

structure FeatureSet where
  featureSetId : ℕ
  symbol : String
  timeframe : String
  eventTime : ℤ
  processingTime : ℤ
  featureVersion : String
  configHash : String
  close : ℚ
  indicators : List (String × ℚ)
  flags : List (String × Bool)
  deriving DecidableEq, Repr

/-! ## Signals and decisions -/

structure ProviderRationale where
  summary : String
  metadata : List (String × ℚ)
  deriving DecidableEq, Repr

theorem one_mem_unit : (0 : ℚ) ≤ 1 ∧ (1 : ℚ) ≤ 1 := by norm_num

structure StrategySignal where
  providerId : String
  symbol : String
  side : SignalSide
  confidence : ℚ
  confidence_mem : 0 ≤ confidence ∧ confidence ≤ 1
  rationale : ProviderRationale
  stopLoss : Option ℚ
  takeProfit : Option ℚ
  timeframe : String
  eventTime : ℤ
  deriving DecidableEq, Repr

structure FinalSignal where
  id : ℕ
  symbol : String
  side : Side
  entryPrice : ℚ
  stopLoss : ℚ
  takeProfit : ℚ
  confidence : ℚ
  riskReward : ℚ
  timeframe : String
  eventTime : ℤ
  decisionTime : ℤ
  contributingProviders : List String
  stateSnapshotId : ℕ
  revisionId : Option String
  sizeMultiplier : ℚ
  deriving DecidableEq, Repr

/-- The pydantic bounds of `FinalSignal`: `confidence` in `[0, 1]`, `size_multiplier` not
negative. -/
def FinalSignal.validate (s : FinalSignal) : Except PyError FinalSignal :=
  if ¬ (0 ≤ s.confidence ∧ s.confidence ≤ 1) then
    .error (.validationError "FinalSignal" "confidence")
  else if s.sizeMultiplier < 0 then .error (.validationError "FinalSignal" "size_multiplier")
  else .ok s

structure RiskCheckResult where
  checkName : String
  passed : Bool
  currentValue : ℚ
  threshold : ℚ
  message : String
  deriving DecidableEq, Repr

structure RiskVerdict where
  passed : Bool
  checks : List RiskCheckResult
  stateSnapshotId : ℕ
  riskStateVersion : ℕ
  deriving DecidableEq, Repr

/-- A value of `StageResult.details`. -/
inductive Detail
  | text (s : String)
  | texts (ss : List String)
  | number (q : ℚ)
  deriving DecidableEq, Repr

structure StageResult where
  passed : Bool
  reason : Option String
  details : List (String × Detail)
  deriving DecidableEq, Repr

structure AggregationResult where
  method : String
  side : SignalSide
  confidence : ℚ
  weights : Dict String ℚ
  dissent : List String
  deriving DecidableEq

structure DecisionLog where
  marketFilter : StageResult
  providerSignals : List StrategySignal
  aggregation : AggregationResult
  riskCheck : RiskVerdict
  stateSnapshotId : ℕ
  portfolioVersion : ℕ
  riskStateVersion : ℕ
  deriving DecidableEq

inductive RejectionStage | marketFilter | aggregator | riskManager
  deriving DecidableEq, Repr

inductive DecisionResult
  | approved
  | rejected (reason : Option String) (stage : RejectionStage)
  deriving DecidableEq, Repr

/-- `DecisionResult.value`: `Literal["approved", "rejected"]` -/
inductive ResultValue | approved | rejected
  deriving DecidableEq, Repr

def DecisionResult.value : DecisionResult → ResultValue
  | .approved => .approved
  | .rejected .. => .rejected

def DecisionResult.rejectionReason : DecisionResult → Option String
  | .approved => none
  | .rejected reason _ => reason

structure Decision where
  decisionId : ℕ
  result : DecisionResult
  finalSignal : Option FinalSignal
  decisionLog : DecisionLog
  correlationId : CorrelationId
  eventTime : ℤ
  decisionTime : ℤ
  revisionId : Option String
  experimentId : Option String
  deriving DecidableEq

/-- `Decision.is_approved` -/
def Decision.isApproved (d : Decision) : Bool := d.result == .approved

/-! ## State -/

structure PositionState where
  positionId : ℕ
  symbol : String
  side : PositionSide
  quantity : ℚ
  entryPrice : ℚ
  entryTime : ℤ
  stopLoss : Option ℚ
  takeProfit : Option ℚ
  unrealizedPnl : ℚ := 0
  deriving DecidableEq, Repr

/-- The capital a position locks: `entry_price * quantity`. -/
def PositionState.notional (p : PositionState) : ℚ := p.entryPrice * p.quantity

/-- The profit or loss of a position at `price`, before fees. -/
def PositionState.grossPnl (p : PositionState) (price : ℚ) : ℚ :=
  match p.side with
  | .long => (price - p.entryPrice) * p.quantity
  | .short => (p.entryPrice - price) * p.quantity

structure RiskLimits where
  maxDailyDrawdownPct : ℚ
  maxOpenPositions : ℤ
  maxExposurePct : ℚ
  maxConsecutiveLosses : ℤ := 5
  deriving DecidableEq, Repr

structure PortfolioState where
  cash : ℚ
  equity : ℚ
  openPositions : List PositionState := []
  realizedPnl : ℚ := 0
  version : ℕ
  asOfEventTime : ℤ
  asOfProcessingTime : ℤ
  deriving DecidableEq, Repr

structure RiskState where
  dailyPnl : ℚ := 0
  dailyDrawdownPct : ℚ := 0
  dailyStartEquity : ℚ := 0
  openExposurePct : ℚ := 0
  consecutiveLosses : ℤ := 0
  signalsToday : ℤ := 0
  limits : RiskLimits
  version : ℕ
  asOfEventTime : ℤ
  deriving DecidableEq, Repr

structure StateSnapshot where
  snapshotId : ℕ
  portfolio : PortfolioState
  risk : RiskState
  version : ℕ
  correlationId : Option CorrelationId
  deriving DecidableEq, Repr

/-! ## Orders and fills -/

structure OrderIntent where
  intentId : ℕ
  decisionId : ℕ
  correlationId : CorrelationId
  symbol : String
  side : Side
  quantity : ℚ
  limitPrice : Option ℚ
  stopLoss : ℚ
  takeProfit : ℚ
  stateSnapshotId : ℕ
  experimentId : Option String
  revisionId : Option String
  deriving DecidableEq, Repr

structure Order where
  orderId : OrderId
  intentId : ℕ
  submittedAt : ℤ
  deriving DecidableEq, Repr

structure Fill where
  fillId : ℕ
  orderId : OrderId
  price : ℚ
  quantity : ℚ
  fee : ℚ
  slippageBps : ℚ
  fillTime : ℤ
  deriving DecidableEq, Repr

structure FillModel where
  modelId : String
  slippageBps : ℚ := 0
  feeBps : ℚ := 0
  fillAt : FillAt := .close
  deriving DecidableEq, Repr

end TradingPlatform
