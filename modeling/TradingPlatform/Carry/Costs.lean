import TradingPlatform.Carry.Equity

/-!
# What a paper fill costs

`PaperCarryExecutor` worsens the price of each leg by the taker fee and the slippage together, and
charges the taker fee as a fee besides. In the equity a fill therefore costs the taker fee twice.
-/

namespace TradingPlatform

/-- The notional a plan trades. -/
def RebalancePlan.tradedNotional (plan : RebalancePlan) (spotPx perpPx : ℚ) : ℚ :=
  |plan.spotDeltaQty| * spotPx + |plan.perpDeltaQty| * perpPx

/-- The plan sells no spot and covers no short that is not held. -/
def RebalancePlan.CoveredBy (plan : RebalancePlan) (state : CarryPositionState) : Prop :=
  0 ≤ state.spotQty + plan.spotDeltaQty ∧ 0 ≤ state.perpQty + plan.perpDeltaQty

/-- A paper executor. -/
structure PaperCarryExecutor where
  takerBps : ℚ := 5
  slippageBps : ℚ := 3

namespace PaperCarryExecutor

variable (executor : PaperCarryExecutor) (r : CarryRunner) (plan : RebalancePlan)
  (spotPx perpPx : ℚ)

/-- The runner after the plan is executed and its fill applied. -/
def fill : CarryRunner :=
  r.book (paperExecute executor.takerBps executor.slippageBps plan spotPx perpPx)

/-- The fill costs the taker fee and the slippage, each once on each leg. -/
def ChargesOnce : Prop :=
  (executor.fill r plan spotPx perpPx).equity spotPx perpPx = r.equity spotPx perpPx -
    plan.tradedNotional spotPx perpPx * (executor.takerBps + executor.slippageBps) / 10000

variable {executor r plan spotPx perpPx}

/-- What the worsened price of a leg costs, whichever way it is traded. -/
theorem leg_cost (qty px cost : ℚ) :
    qty * (px - if 0 < qty then px * (1 + cost) else px * (1 - cost)) = -(|qty| * px * cost) := by
  split
  · next hbuy =>
    rw [abs_of_pos hbuy]
    ring
  · next hsell =>
    rw [abs_of_nonpos (not_lt.mp hsell)]
    ring

/-- A fill lowers the equity by the slippage once and by the taker fee twice. -/
theorem equity_fill (hplan : plan.isNoop = false) (hperp : 0 ≤ r.state.perpQty)
    (hcovered : plan.CoveredBy r.state) :
    (executor.fill r plan spotPx perpPx).equity spotPx perpPx = r.equity spotPx perpPx -
      plan.tradedNotional spotPx perpPx *
        (2 * executor.takerBps + executor.slippageBps) / 10000 := by
  let cost := (executor.takerBps + executor.slippageBps) / 10000
  let report : ExecReport := {
    spotFillQty := plan.spotDeltaQty
    spotFillPx := if 0 < plan.spotDeltaQty then spotPx * (1 + cost) else spotPx * (1 - cost)
    perpFillQty := plan.perpDeltaQty
    perpFillPx := if 0 < plan.perpDeltaQty then perpPx * (1 - cost) else perpPx * (1 + cost)
    fee := plan.tradedNotional spotPx perpPx * (executor.takerBps / 10000)
    reason := plan.reason }
  have hfill : executor.fill r plan spotPx perpPx = r.take (.fill report) := by
    simp only [fill, paperExecute, hplan]
    rfl
  have hspot : plan.spotDeltaQty * (spotPx - report.spotFillPx) = _ :=
    leg_cost plan.spotDeltaQty spotPx cost
  -- the short leg is sold where the quantity is positive
  have hshort : plan.perpDeltaQty * (report.perpFillPx - perpPx) =
      -(|plan.perpDeltaQty| * perpPx * cost) := by
    have hleg := leg_cost plan.perpDeltaQty perpPx (-cost)
    simp only [← sub_eq_add_neg, sub_neg_eq_add] at hleg
    change plan.perpDeltaQty * (perpPx - report.perpFillPx) = _ at hleg
    linarith
  have hcover : r.Covered (.fill report) := hcovered
  rw [hfill, CarryRunner.equity_take_fill hperp hcover]
  change _ + plan.spotDeltaQty * (spotPx - report.spotFillPx) +
    plan.perpDeltaQty * (report.perpFillPx - perpPx) -
      plan.tradedNotional spotPx perpPx * (executor.takerBps / 10000) = _
  rw [hspot, hshort, RebalancePlan.tradedNotional]
  simp only [cost]
  ring

theorem tradedNotional_eq_zero (hspotPx : 0 < spotPx) (hperpPx : 0 < perpPx) :
    plan.tradedNotional spotPx perpPx = 0 ↔ plan.spotDeltaQty = 0 ∧ plan.perpDeltaQty = 0 := by
  rw [RebalancePlan.tradedNotional, add_eq_zero_iff_of_nonneg (by positivity) (by positivity),
    mul_eq_zero, mul_eq_zero, abs_eq_zero, abs_eq_zero, or_iff_left hspotPx.ne',
    or_iff_left hperpPx.ne']

/-- A plan that trades is charged the fee and the spread once exactly where there is no taker
fee. -/
theorem chargesOnce_iff (hplan : plan.isNoop = false) (hperp : 0 ≤ r.state.perpQty)
    (hcovered : plan.CoveredBy r.state) (hspotPx : 0 < spotPx) (hperpPx : 0 < perpPx) :
    executor.ChargesOnce r plan spotPx perpPx ↔
      executor.takerBps = 0 ∨ plan.spotDeltaQty = 0 ∧ plan.perpDeltaQty = 0 := by
  rw [ChargesOnce, equity_fill hplan hperp hcovered, sub_right_inj,
    ← tradedNotional_eq_zero hspotPx hperpPx, or_comm, ← mul_eq_zero]
  constructor <;> intro h <;> linarith

/-- A pair of one coin is opened, with the costs the executor has by default. -/
def openPair : RebalancePlan := { spotDeltaQty := 1, perpDeltaQty := 1, reason := .opens }

theorem coveredBy_openPair : openPair.CoveredBy {} := by
  constructor <;> decide +kernel

theorem chargesOnce_iff_openPair :
    ChargesOnce {} (CarryRunner.flat 1000) openPair 100 100 ↔
      (5 : ℚ) = 0 ∨ (1 : ℚ) = 0 ∧ (1 : ℚ) = 0 :=
  chargesOnce_iff rfl le_rfl coveredBy_openPair (by norm_num) (by norm_num)

/-- The equity falls by 0.26, not by 0.16. -/
theorem not_chargesOnce : ¬ ∀ (executor : PaperCarryExecutor) (r : CarryRunner)
    (plan : RebalancePlan) (spotPx perpPx : ℚ), plan.isNoop = false → 0 ≤ r.state.spotQty →
      0 ≤ r.state.perpQty → plan.CoveredBy r.state → 0 < spotPx → 0 < perpPx →
        executor.ChargesOnce r plan spotPx perpPx := by
  intro h
  have hopened := h {} (CarryRunner.flat 1000) openPair 100 100 rfl le_rfl le_rfl
    coveredBy_openPair (by norm_num) (by norm_num)
  revert hopened
  unfold ChargesOnce
  decide +kernel

end PaperCarryExecutor

end TradingPlatform
