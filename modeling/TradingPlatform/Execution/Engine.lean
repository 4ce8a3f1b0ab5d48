import TradingPlatform.Lib.Rounding
import TradingPlatform.Events
import TradingPlatform.State.Store

/-!
# The simulated execution engine: configuration, pricing, exits and the risk gate

The private state of `SimulatedExecutionEngine` and the functions that read it without changing
it: `fill_price`, `position_size`, `check_exit` and `ExecutionRiskGate.check`.
-/

namespace TradingPlatform

/-- `ValidationExecutionConfig` with the bounds its fields are validated against. -/
structure ValidationExecutionConfig where
  maxBarsInTrade : ℕ := 48
  riskPctPerTrade : ℚ := 1
  longOnly : Bool := false
  exposurePctPerTrade : ℚ := 0
  maxBarsInTrade_ge : 1 ≤ maxBarsInTrade := by decide
  riskPctPerTrade_mem : 0 < riskPctPerTrade ∧ riskPctPerTrade ≤ 10 := by norm_num
  exposurePctPerTrade_mem : 0 ≤ exposurePctPerTrade ∧ exposurePctPerTrade ≤ 100 := by norm_num
  deriving Repr

namespace ValidationExecutionConfig

instance : DecidableEq ValidationExecutionConfig := fun a b =>
  decidable_of_iff (a.maxBarsInTrade = b.maxBarsInTrade ∧ a.riskPctPerTrade = b.riskPctPerTrade ∧
    a.longOnly = b.longOnly ∧ a.exposurePctPerTrade = b.exposurePctPerTrade)
    (by cases a; cases b; simp)

/-- `ValidationExecutionConfig()` -/
def default : ValidationExecutionConfig := {}

end ValidationExecutionConfig

structure PendingEntry where
  order : Order
  intent : OrderIntent
  quantity : ℚ
  side : Side
  positionSide : PositionSide
  symbol : String
  stopLoss : ℚ
  takeProfit : ℚ
  decisionEventTime : ℤ
  deriving DecidableEq, Repr

structure SimulatedExecutionEngine where
  fillModel : FillModel
  config : ValidationExecutionConfig
  mode : Mode := .validation
  emitEvents : Bool := true
  positionBars : Dict ℕ ℕ := ∅
  pendingEntries : List PendingEntry := []
  positionOrders : Dict ℕ OrderId := ∅
  deriving DecidableEq

namespace SimulatedExecutionEngine

variable (engine : SimulatedExecutionEngine)

/-! ## Pricing and sizing -/

/-- `fill_price` -/
def fillPrice (bar : Bar) (side : Side) (useNextOpen : Bool := false) : ℚ :=
  let base :=
    if useNextOpen || engine.fillModel.fillAt == .nextOpen then bar.open
    else if engine.fillModel.fillAt == .mid then (bar.high + bar.low) / 2
    else bar.close
  let slip := engine.fillModel.slippageBps / 10000
  match side with
  | .buy => base * (1 + slip)
  | .sell => base * (1 - slip)

/-- The quantity before the caps of `position_size`: a share of the equity when
`exposure_pct_per_trade` is set, else the quantity that risks `risk_pct_per_trade` at the stop. -/
def baseQuantity (equity entry stopLoss : ℚ) : Option ℚ :=
  if 0 < engine.config.exposurePctPerTrade then
    some (equity * engine.config.exposurePctPerTrade / 100 / entry)
  else
    let riskAmount := equity * engine.config.riskPctPerTrade / 100
    let riskPerUnit := |entry - stopLoss|
    if riskPerUnit ≤ 0 then none else some (riskAmount / riskPerUnit)

/-- `position_size` -/
def positionSize (snapshot : StateSnapshot) (entry stopLoss : ℚ) (sizeMultiplier : ℚ := 1) : ℚ :=
  if entry ≤ 0 then 0
  else match engine.baseQuantity snapshot.portfolio.equity entry stopLoss with
    | none => 0
    | some baseQty =>
      let maxCashQty := if 0 < snapshot.portfolio.cash then snapshot.portfolio.cash / entry else 0
      let remainingExposure :=
        max 0 (snapshot.risk.limits.maxExposurePct - snapshot.risk.openExposurePct)
      let maxExposureQty := remainingExposure / 100 * snapshot.portfolio.equity / entry
      let quantity := min (min (baseQty * max sizeMultiplier 0) maxCashQty) maxExposureQty
      if 0 < quantity then roundDigits quantity 8 else 0

/-! ## Exits -/

/-- The stop-loss and take-profit test of `check_exit` on the bar's range. -/
def checkLevels (position : PositionState) (bar : Bar) : Option (ExitReason × ℚ) :=
  let stopHit := fun (s : ℚ) => match position.side with
    | .long => decide (bar.low ≤ s)
    | .short => decide (s ≤ bar.high)
  let targetHit := fun (t : ℚ) => match position.side with
    | .long => decide (t ≤ bar.high)
    | .short => decide (bar.low ≤ t)
  match position.stopLoss.filter stopHit with
  | some s => some (.stopLoss, s)
  | none => (position.takeProfit.filter targetHit).map fun t => (.takeProfit, t)

/-- `check_exit`: the reason and the price of the exit, if there is one. -/
def checkExit (position : PositionState) (bar : Bar) (barsHeld : ℕ) (approvedSide : Option Side)
    (checkTimeout : Bool) : Option (ExitReason × ℚ) :=
  match approvedSide, checkTimeout with
  | some side, false =>
    if side.opposes position.side then some (.signal, bar.close) else none
  | _, _ =>
    match checkLevels position bar with
    | some hit => some hit
    | none =>
      if checkTimeout ∧ engine.config.maxBarsInTrade ≤ barsHeld then some (.timeout, bar.close)
      else none

end SimulatedExecutionEngine

/-! ## The execution risk gate -/

structure ExecutionRiskResult where
  passed : Bool
  reason : Option String := none
  deriving DecidableEq, Repr

/-- `ExecutionRiskGate.check`. The exposure divides by the equity with no guard. -/
def ExecutionRiskGate.check (intent : OrderIntent) (snapshot : StateSnapshot) :
    Except PyError ExecutionRiskResult :=
  let portfolio := snapshot.portfolio
  let risk := snapshot.risk
  let limits := risk.limits
  if limits.maxOpenPositions ≤ portfolio.openPositions.length then
    .ok ⟨false, some "max_open_positions"⟩
  else match intent.limitPrice with
    | none => .ok ⟨false, some "missing_entry_price"⟩
    | some limitPrice =>
      let notional := intent.quantity * limitPrice
      if portfolio.equity = 0 then .error .zeroDivisionError
      else
        let exposurePct :=
          (risk.openExposurePct * portfolio.equity / 100 + notional) / portfolio.equity * 100
        if limits.maxExposurePct < exposurePct then .ok ⟨false, some "max_exposure"⟩
        else if portfolio.cash < notional then .ok ⟨false, some "insufficient_cash"⟩
        else .ok ⟨true, none⟩

namespace ExecutionRiskGate

/-- What the gate has checked of an order it passes. -/
theorem check_passed {intent : OrderIntent} {snapshot : StateSnapshot} {r : ExecutionRiskResult}
    (h : check intent snapshot = .ok r) (hr : r.passed = true) :
    (snapshot.portfolio.openPositions.length : ℤ) < snapshot.risk.limits.maxOpenPositions ∧
    ∃ price, intent.limitPrice = some price ∧ snapshot.portfolio.equity ≠ 0 ∧
      snapshot.risk.openExposurePct + intent.quantity * price / snapshot.portfolio.equity * 100 ≤
        snapshot.risk.limits.maxExposurePct ∧
      intent.quantity * price ≤ snapshot.portfolio.cash := by
  simp only [check] at h
  split at h
  · cases h; simp at hr
  next hlen =>
  refine ⟨not_le.mp hlen, ?_⟩
  split at h
  · cases h; simp at hr
  next price hprice =>
  split at h
  · cases h
  next heq =>
  split at h
  · cases h; simp at hr
  next hexp =>
  split at h
  · cases h; simp at hr
  next hcash =>
  refine ⟨price, hprice, heq, ?_, not_lt.mp hcash⟩
  have := not_lt.mp hexp
  field_simp at this ⊢
  linarith

end ExecutionRiskGate

end TradingPlatform
