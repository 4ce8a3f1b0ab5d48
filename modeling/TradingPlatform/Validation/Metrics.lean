import TradingPlatform.Events

/-!
# The outcome metrics of a validation run

The ledgers that `compute_outcome_metrics` rebuilds from the events of a run: the closed trades and
the daily curve marked to market. A `dict` of the day's value keeps the last value written for it.
-/

namespace TradingPlatform

/-- The events of a type. -/
def eventsOfType (eventType : EventType) (events : List EventEnvelope) : List EventEnvelope :=
  events.filter (·.eventType = eventType)

/-- The `pnl` of a `POSITION_CLOSED` event, 0 for a payload without one. -/
def EventEnvelope.pnl (e : EventEnvelope) : ℚ :=
  match e.payload with
  | .positionClosed closed => closed.pnl
  | _ => 0

/-- `_max_drawdown_pct` -/
def maxDrawdownPct (equityCurve : List ℚ) : ℚ :=
  (equityCurve.foldl (fun (peak, maxDd) value =>
    let peak := max peak value
    (peak, if 0 < peak then max maxDd ((peak - value) / peak * 100) else maxDd))
    (equityCurve.headD 0, 0)).2

/-! ## The curve marked to market -/

/-- The quantity, the sign of the side and the entry price of an open position. -/
abbrev Exposure := ℚ × ℚ × ℚ

/-- The variables of the loop of `compute_mark_to_market_series`. -/
structure MarkLoop where
  realised : ℚ := 0
  openPositions : Dict ℕ Exposure := ∅
  lastClose : ℚ := 0
  byDay : Dict ℤ ℚ := ∅

namespace MarkLoop

/-- The result of the open positions at the last close. -/
def unrealised (m : MarkLoop) : ℚ :=
  (m.openPositions.values.map fun (qty, sign, entry) => sign * qty * (m.lastClose - entry)).sum

/-- The sign of a side. -/
def sign : PositionSide → ℚ
  | .long => 1
  | .short => -1

/-- Take in the payload of an event. -/
def read (m : MarkLoop) : Payload → MarkLoop
  | .candleReceived bar => { m with lastClose := bar.close }
  | .positionOpened positionId _ position => { m with
      openPositions := m.openPositions.set positionId
        (position.quantity, sign position.side, position.entryPrice) }
  | .positionClosed closed => { m with
      realised := m.realised + closed.pnl
      openPositions := m.openPositions.erase closed.positionId }
  | _ => m

/-- One event of the loop. -/
def step (initialCapital : ℚ) (m : MarkLoop) (e : EventEnvelope) : MarkLoop :=
  let m := m.read e.payload
  { m with byDay := m.byDay.set (date e.eventTime) (initialCapital + m.realised + m.unrealised) }

end MarkLoop

/-- The event types the curve is built from. -/
def markedTypes : List EventType := [.candleReceived, .positionOpened, .positionClosed]

/-- `compute_mark_to_market_series`: the daily curve and its returns. -/
def computeMarkToMarketSeries (events : List EventEnvelope) (initialCapital : ℚ) :
    List ℚ × List ℚ :=
  let relevant := (events.filter (·.eventType ∈ markedTypes)).insertionSort
    (fun a b => a.eventTime ≤ b.eventTime)
  if ¬ relevant.any (·.eventType = .candleReceived) then ([], [])
  else
    let byDay := (relevant.foldl (MarkLoop.step initialCapital) {}).byDay
    let days := byDay.keys.insertionSort (· ≤ ·)
    let equityCurve := initialCapital :: days.map fun d => byDay.getD d 0
    let returns := (equityCurve.zip equityCurve.tail).filterMap fun (prev, value) =>
      if 0 < prev then some ((value - prev) / prev) else none
    (equityCurve, returns)

/-! ## The metrics -/

/-- The entries of the outcome that are added when the run has candle events. -/
structure MarkedOutcome where
  equityCurve : List ℚ
  returnPct : ℚ
  maxDrawdownPct : ℚ
  deriving DecidableEq, Repr

structure OutcomeMetrics where
  totalTrades : ℕ
  winRate : ℚ
  /-- `none` is `float("inf")`. -/
  profitFactor : Option ℚ
  maxDrawdown : ℚ
  maxDrawdownPct : ℚ
  grossProfit : ℚ
  grossLoss : ℚ
  totalPnl : ℚ
  initialCapital : ℚ
  endingEquity : ℚ
  returnPct : ℚ
  equityCurve : List ℚ
  ordersRejected : ℕ
  positionsOpened : ℕ
  positionsClosed : ℕ
  mtm : Option MarkedOutcome
  deriving DecidableEq, Repr

/-- The equity after each closed trade, the initial capital first. -/
def closedTradeCurve (initialCapital : ℚ) (pnls : List ℚ) : List ℚ :=
  pnls.scanl (· + ·) initialCapital

theorem getLast?_closedTradeCurve (initialCapital : ℚ) (pnls : List ℚ) :
    (closedTradeCurve initialCapital pnls).getLast? = some (initialCapital + pnls.sum) := by
  induction pnls generalizing initialCapital with
  | nil => simp [closedTradeCurve]
  | cons pnl pnls ih =>
    have htail := ih (initialCapital + pnl)
    rw [closedTradeCurve] at htail ⊢
    rw [List.scanl_cons, List.getLast?_cons, htail, List.sum_cons, Option.getD_some, add_assoc]

/-- The largest fall of a curve from its peak so far. -/
def maxDrawdown (initialCapital : ℚ) (equityCurve : List ℚ) : ℚ :=
  (equityCurve.foldl (fun (peak, maxDd) value =>
    (max peak value, max maxDd (max peak value - value))) (initialCapital, 0)).2

/-- The marked entries; the return divides by the initial capital with no guard. -/
def markedOutcome (events : List EventEnvelope) (initialCapital : ℚ) :
    Except PyError (Option MarkedOutcome) :=
  let (mtmCurve, _) := computeMarkToMarketSeries events initialCapital
  match mtmCurve.getLast? with
  | none => .ok none
  | some last =>
    if initialCapital = 0 then .error .zeroDivisionError
    else .ok (some {
      equityCurve := mtmCurve
      returnPct := (last - initialCapital) / initialCapital * 100
      maxDrawdownPct := maxDrawdownPct mtmCurve })

/-- `compute_outcome_metrics` -/
def computeOutcomeMetrics (events : List EventEnvelope) (initialCapital : ℚ)
    (endingEquity : Option ℚ := none) : Except PyError OutcomeMetrics := do
  let pnls := (eventsOfType .positionClosed events).map (·.pnl)
  let grossProfit := (pnls.filter (0 < ·)).sum
  let grossLoss := |(pnls.filter (· ≤ 0)).sum|
  let equityCurve := closedTradeCurve initialCapital pnls
  let finalEquity := endingEquity.getD (equityCurve.getLastD initialCapital)
  let mtm ← markedOutcome events initialCapital
  return {
    totalTrades := pnls.length
    winRate := if pnls = [] then 0 else (pnls.countP (0 < ·) : ℚ) / pnls.length
    profitFactor := if 0 < grossLoss then some (grossProfit / grossLoss)
      else if grossProfit ≠ 0 then none else some 0
    maxDrawdown := maxDrawdown initialCapital equityCurve
    maxDrawdownPct := maxDrawdownPct equityCurve
    grossProfit := grossProfit
    grossLoss := grossLoss
    totalPnl := pnls.sum
    initialCapital := initialCapital
    endingEquity := finalEquity
    returnPct := if 0 < initialCapital then
      (finalEquity - initialCapital) / initialCapital * 100 else 0
    equityCurve := equityCurve
    ordersRejected := (eventsOfType .orderRejected events).length
    positionsOpened := (eventsOfType .positionOpened events).length
    positionsClosed := (eventsOfType .positionClosed events).length
    mtm := mtm }

end TradingPlatform
