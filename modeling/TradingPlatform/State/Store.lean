import TradingPlatform.Contracts

/-!
# The state store

`InMemoryStateStore` with its handlers, one for each type of transition. A transition carries the
entries of the payload that its handler reads. The store holds one portfolio, so the portfolio id,
which every handler checks against the store's own, is left out.
-/

namespace TradingPlatform

/-! ## Transitions -/

/-- The fields of `PortfolioState` a `portfolio_updated` payload may set. -/
structure PortfolioUpdate where
  cash : Option ℚ := none
  equity : Option ℚ := none
  openPositions : Option (List PositionState) := none
  realizedPnl : Option ℚ := none
  asOfProcessingTime : Option ℤ := none
  deriving DecidableEq, Repr

/-- The fields of `RiskState` a `risk_updated` payload may set. -/
structure RiskUpdate where
  dailyPnl : Option ℚ := none
  dailyDrawdownPct : Option ℚ := none
  dailyStartEquity : Option ℚ := none
  openExposurePct : Option ℚ := none
  consecutiveLosses : Option ℤ := none
  signalsToday : Option ℤ := none
  limits : Option RiskLimits := none
  deriving DecidableEq, Repr

inductive TransitionPayload
  | positionOpened (position : PositionState) (fill : Fill) (cost : ℚ)
  | positionClosed (positionId : ℕ) (fill : Fill) (pnl : ℚ) (exitReason : ExitReason)
  | portfolioUpdated (updates : PortfolioUpdate)
  | riskUpdated (updates : RiskUpdate)
  | markToMarket (prices : List (String × ℚ))
  deriving DecidableEq, Repr

structure StateTransitionEvent where
  transitionId : ℕ
  payload : TransitionPayload
  eventTime : ℤ
  correlationId : CorrelationId
  deriving DecidableEq, Repr

/-- The transition opens a position. -/
def StateTransitionEvent.IsOpening (t : StateTransitionEvent) : Prop :=
  ∃ p fill cost, t.payload = .positionOpened p fill cost

/-- The transition closes a position. -/
def StateTransitionEvent.IsClosing (t : StateTransitionEvent) : Prop :=
  ∃ id fill pnl reason, t.payload = .positionClosed id fill pnl reason

/-- The transition opens or closes a position. -/
def StateTransitionEvent.IsTrade (t : StateTransitionEvent) : Prop := t.IsOpening ∨ t.IsClosing

/-- The transition moves no cash, opens and closes nothing, and keeps the limits and the count of
losses. -/
def StateTransitionEvent.IsBookkeeping (t : StateTransitionEvent) : Prop :=
  (∃ updates : RiskUpdate, t.payload = .riskUpdated updates ∧ updates.openExposurePct = none ∧
    updates.limits = none ∧ updates.consecutiveLosses = none) ∨
  ∃ prices, t.payload = .markToMarket prices

/-! ## The store -/

structure InMemoryStateStore where
  portfolio : PortfolioState
  risk : RiskState
  deriving DecidableEq, Repr

/-- The limits `InMemoryStateStore` falls back to. -/
def defaultLimits : RiskLimits :=
  { maxDailyDrawdownPct := 5, maxOpenPositions := 3, maxExposurePct := 50 }

namespace InMemoryStateStore

/-- `InMemoryStateStore.__init__` -/
def init (initialCash : ℚ) (limits : RiskLimits := defaultLimits) (now : ℤ := 0) :
    InMemoryStateStore where
  portfolio := {
    cash := initialCash
    equity := initialCash
    version := 1
    asOfEventTime := now
    asOfProcessingTime := now }
  risk := {
    dailyStartEquity := initialCash
    limits
    version := 1
    asOfEventTime := now }

def snapshot (s : InMemoryStateStore) (correlationId : Option CorrelationId) :
    StateM ℕ StateSnapshot := do
  let snapshotId ← uuid4
  return {
    snapshotId, correlationId
    portfolio := s.portfolio
    risk := s.risk
    version := s.portfolio.version }

/-- The share of the equity, in percent, that a notional takes up; 0 when the equity is 0. -/
def exposureOf (s : InMemoryStateStore) (notional : ℚ) : ℚ :=
  if s.portfolio.equity ≠ 0 then notional / s.portfolio.equity * 100 else 0

/-- The drawdown, in percent, of `newEquity` from the start of the day. -/
def drawdownPct (s : InMemoryStateStore) (newEquity : ℚ) : ℚ :=
  let startEquity := if s.risk.dailyStartEquity ≠ 0 then s.risk.dailyStartEquity else newEquity
  if startEquity ≠ 0 then max 0 ((startEquity - newEquity) / startEquity * 100) else 0

/-- `_apply_position_opened` -/
def applyPositionOpened (s : InMemoryStateStore) (eventTime : ℤ) (position : PositionState)
    (cost : ℚ) : InMemoryStateStore where
  portfolio := { s.portfolio with
    cash := s.portfolio.cash - cost
    openPositions := s.portfolio.openPositions ++ [position]
    version := s.portfolio.version + 1
    asOfEventTime := eventTime
    asOfProcessingTime := eventTime }
  risk := { s.risk with
    openExposurePct := s.risk.openExposurePct + s.exposureOf position.notional
    version := s.risk.version + 1
    asOfEventTime := eventTime }

/-- `_apply_position_closed` -/
def applyPositionClosed (s : InMemoryStateStore) (eventTime : ℤ) (positionId : ℕ)
    (pnl : ℚ) : InMemoryStateStore :=
  let remaining := s.portfolio.openPositions.filter (·.positionId ≠ positionId)
  let closed := s.portfolio.openPositions.find? (·.positionId = positionId)
  let exposureDrop := match closed with
    | some p => s.exposureOf p.notional
    | none => 0
  let newCash := match closed with
    | some p => s.portfolio.cash + pnl + p.notional
    | none => s.portfolio.cash + pnl
  let newEquity := s.portfolio.equity + pnl
  { portfolio := { s.portfolio with
      cash := newCash
      equity := newEquity
      realizedPnl := s.portfolio.realizedPnl + pnl
      openPositions := remaining
      version := s.portfolio.version + 1
      asOfEventTime := eventTime
      asOfProcessingTime := eventTime }
    risk := { s.risk with
      dailyPnl := s.risk.dailyPnl + pnl
      dailyDrawdownPct := s.drawdownPct newEquity
      openExposurePct := max 0 (s.risk.openExposurePct - exposureDrop)
      consecutiveLosses := if 0 ≤ pnl then 0 else s.risk.consecutiveLosses + 1
      version := s.risk.version + 1
      asOfEventTime := eventTime } }

/-- Revalue one position; a symbol without a price keeps its last valuation. -/
def revalue (prices : List (String × ℚ)) (p : PositionState) : PositionState :=
  match prices.lookup p.symbol with
  | none => p
  | some price => { p with unrealizedPnl := p.grossPnl price }

/-- `_apply_mark_to_market` -/
def applyMarkToMarket (s : InMemoryStateStore) (eventTime : ℤ)
    (prices : List (String × ℚ)) : InMemoryStateStore :=
  let positions := s.portfolio.openPositions.map (revalue prices)
  let newEquity := s.portfolio.cash + (positions.map fun p => p.notional + p.unrealizedPnl).sum
  { portfolio := { s.portfolio with
      equity := newEquity
      openPositions := positions
      version := s.portfolio.version + 1
      asOfEventTime := eventTime
      asOfProcessingTime := eventTime }
    risk := { s.risk with
      dailyDrawdownPct := s.drawdownPct newEquity
      version := s.risk.version + 1
      asOfEventTime := eventTime } }

/-- `_apply_portfolio_updated` -/
def applyPortfolioUpdated (s : InMemoryStateStore) (eventTime : ℤ)
    (updates : PortfolioUpdate) : InMemoryStateStore :=
  { s with portfolio := { s.portfolio with
      cash := updates.cash.getD s.portfolio.cash
      equity := updates.equity.getD s.portfolio.equity
      openPositions := updates.openPositions.getD s.portfolio.openPositions
      realizedPnl := updates.realizedPnl.getD s.portfolio.realizedPnl
      version := s.portfolio.version + 1
      asOfEventTime := eventTime
      asOfProcessingTime := updates.asOfProcessingTime.getD s.portfolio.asOfProcessingTime } }

/-- `_apply_risk_updated` -/
def applyRiskUpdated (s : InMemoryStateStore) (eventTime : ℤ) (updates : RiskUpdate) :
    InMemoryStateStore :=
  { s with risk := { s.risk with
      dailyPnl := updates.dailyPnl.getD s.risk.dailyPnl
      dailyDrawdownPct := updates.dailyDrawdownPct.getD s.risk.dailyDrawdownPct
      dailyStartEquity := updates.dailyStartEquity.getD s.risk.dailyStartEquity
      openExposurePct := updates.openExposurePct.getD s.risk.openExposurePct
      consecutiveLosses := updates.consecutiveLosses.getD s.risk.consecutiveLosses
      signalsToday := updates.signalsToday.getD s.risk.signalsToday
      limits := updates.limits.getD s.risk.limits
      version := s.risk.version + 1
      asOfEventTime := eventTime } }

/-- The state `apply_transition` leaves. -/
def apply (s : InMemoryStateStore) (event : StateTransitionEvent) : InMemoryStateStore :=
  match event.payload with
  | .positionOpened position _ cost => s.applyPositionOpened event.eventTime position cost
  | .positionClosed positionId _ pnl _ => s.applyPositionClosed event.eventTime positionId pnl
  | .portfolioUpdated updates => s.applyPortfolioUpdated event.eventTime updates
  | .riskUpdated updates => s.applyRiskUpdated event.eventTime updates
  | .markToMarket prices => s.applyMarkToMarket event.eventTime prices

section

variable {s : InMemoryStateStore} {t : StateTransitionEvent}

theorem apply_positionOpened {p : PositionState} {fill : Fill} {cost : ℚ}
    (h : t.payload = .positionOpened p fill cost) :
    s.apply t = s.applyPositionOpened t.eventTime p cost := by rw [apply, h]

theorem apply_positionClosed {id : ℕ} {fill : Fill} {pnl : ℚ} {reason : ExitReason}
    (h : t.payload = .positionClosed id fill pnl reason) :
    s.apply t = s.applyPositionClosed t.eventTime id pnl := by rw [apply, h]

theorem apply_markToMarket {prices : List (String × ℚ)} (h : t.payload = .markToMarket prices) :
    s.apply t = s.applyMarkToMarket t.eventTime prices := by rw [apply, h]

theorem apply_riskUpdated {updates : RiskUpdate} (h : t.payload = .riskUpdated updates) :
    s.apply t = s.applyRiskUpdated t.eventTime updates := by rw [apply, h]

end

/-- `apply_transition` -/
def applyTransition (s : InMemoryStateStore) (event : StateTransitionEvent) :
    StateM ℕ (InMemoryStateStore × StateSnapshot) := do
  let s := s.apply event
  return (s, ← s.snapshot (some event.correlationId))

end InMemoryStateStore

end TradingPlatform
