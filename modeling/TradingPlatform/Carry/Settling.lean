import TradingPlatform.Carry.Hedge
import TradingPlatform.Lib.Settling

/-!
# The manager comes to rest

At fixed prices and a fixed target the manager's trades, filled exactly, bring the pair within its
bands and end there. A rebalance takes the delta to zero and keeps the notional; a resize or an
opening takes the notional to the target and may leave a delta, which one rebalance removes without
moving the notional again. So there is at most a rebalance, a resize and a rebalance.
-/

namespace TradingPlatform

open Settling

/-- The fill that executes a plan exactly, at the prices it was made for. -/
def RebalancePlan.exactFill (plan : RebalancePlan) (spotPx perpPx fee : ℚ) : ExecReport where
  spotFillQty := plan.spotDeltaQty
  spotFillPx := spotPx
  perpFillQty := plan.perpDeltaQty
  perpFillPx := perpPx
  fee := fee
  reason := plan.reason

namespace CarryManagerConfig

/-- The position after the plan made for it has been filled exactly. -/
def trade (cfg : CarryManagerConfig) (target : CarryTarget) (spotPx perpPx fee : ℚ)
    (state : CarryPositionState) : CarryPositionState :=
  (state.applyFill ((cfg.plan state target spotPx perpPx).exactFill spotPx perpPx fee)).1

/-- The plan for the position is a noop. -/
def Rests (cfg : CarryManagerConfig) (target : CarryTarget) (spotPx perpPx : ℚ)
    (state : CarryPositionState) : Prop :=
  (cfg.plan state target spotPx perpPx).isNoop = true

/-- The delta is within the rebalance band of the notional, and the notional within the resize band
of the target. -/
structure InBands (cfg : CarryManagerConfig) (target : CarryTarget) (spotPx perpPx : ℚ)
    (state : CarryPositionState) : Prop where
  delta : |netDelta state spotPx perpPx| ≤ cfg.rebalanceBand * pairNotional state spotPx
  notional : |pairNotional state spotPx - target.targetNotional| ≤
    cfg.resizeBand * target.targetNotional

/-- What stays as it is: positive prices, and a positive target to be held; no band is negative. -/
structure Steady (cfg : CarryManagerConfig) (target : CarryTarget) (spotPx perpPx : ℚ) : Prop where
  spotPx_pos : 0 < spotPx
  perpPx_pos : 0 < perpPx
  hold : target.hold = true
  target_pos : 0 < target.targetNotional
  rebalanceBand_nonneg : 0 ≤ cfg.rebalanceBand
  resizeBand_nonneg : 0 ≤ cfg.resizeBand

/-- The position is flat, or has a spot leg. -/
def Placed (state : CarryPositionState) : Prop :=
  (state.spotQty = 0 ∧ state.perpQty = 0) ∨ (0 < state.spotQty ∧ 0 ≤ state.perpQty)

/-- The position has a spot leg, and its perp leg is not negative. -/
structure Held (state : CarryPositionState) : Prop where
  spot : 0 < state.spotQty
  perp : 0 ≤ state.perpQty

variable {cfg : CarryManagerConfig} {state state' : CarryPositionState} {target : CarryTarget}
  {spotPx perpPx fee : ℚ}

theorem Held.inMarket (h : Held state) : state.inMarket = true := by
  simp [CarryPositionState.inMarket, h.spot]

theorem Held.notional_pos (h : Held state) (hspotPx : 0 < spotPx) :
    0 < pairNotional state spotPx := mul_pos h.spot hspotPx

/-! ## The plans -/

/-- A plan looks at the quantities only. -/
theorem plan_congr (hspot : state'.spotQty = state.spotQty)
    (hperp : state'.perpQty = state.perpQty) :
    cfg.plan state' target spotPx perpPx = cfg.plan state target spotPx perpPx := by
  cases state
  cases state'
  cases hspot
  cases hperp
  rfl

/-- A noop trades nothing. -/
theorem plan_deltas (h : cfg.Rests target spotPx perpPx state) :
    (cfg.plan state target spotPx perpPx).spotDeltaQty = 0 ∧
      (cfg.plan state target spotPx perpPx).perpDeltaQty = 0 := by
  have hreason : (cfg.plan state target spotPx perpPx).reason = .noop := of_decide_eq_true h
  unfold plan planResize at hreason ⊢
  dsimp only at hreason ⊢
  split_ifs at hreason ⊢ <;> exact ⟨rfl, rfl⟩

section

variable (hsteady : cfg.Steady target spotPx perpPx) (fee)

include hsteady

/-- Outside the rebalance band the perp leg is brought in line with the spot leg. -/
theorem trade_rebalance (h : Held state)
    (hband : cfg.rebalanceBand < |netDelta state spotPx perpPx| / pairNotional state spotPx) :
    Held (cfg.trade target spotPx perpPx fee state) ∧
      netDelta (cfg.trade target spotPx perpPx fee state) spotPx perpPx = 0 ∧
      pairNotional (cfg.trade target spotPx perpPx fee state) spotPx =
        pairNotional state spotPx := by
  have hplan : cfg.plan state target spotPx perpPx = {
      spotDeltaQty := 0
      perpDeltaQty := state.spotQty * spotPx / perpPx - state.perpQty
      reason := .rebalance
      details := [("delta_frac", netDelta state spotPx perpPx / pairNotional state spotPx)] } := by
    simp [plan, hsteady.hold, h.inMarket, h.notional_pos hsteady.spotPx_pos, hband,
      hsteady.perpPx_pos]
  have hperp : 0 ≤ state.spotQty * spotPx / perpPx :=
    (div_pos (mul_pos h.spot hsteady.spotPx_pos) hsteady.perpPx_pos).le
  have hspot : (cfg.trade target spotPx perpPx fee state).spotQty = state.spotQty := by
    simp [trade, hplan, RebalancePlan.exactFill, h.spot.le]
  have hperp' : (cfg.trade target spotPx perpPx fee state).perpQty =
      state.spotQty * spotPx / perpPx := by
    simp [trade, hplan, RebalancePlan.exactFill, hperp]
  refine ⟨⟨hspot ▸ h.spot, hperp' ▸ hperp⟩, ?_, ?_⟩
  · rw [netDelta, hspot, hperp', div_mul_cancel₀ _ hsteady.perpPx_pos.ne', sub_self]
  · rw [pairNotional, hspot, pairNotional]

/-- Within it, a pair that has drifted is struck at the target. -/
theorem trade_resize (h : Held state)
    (hband : |netDelta state spotPx perpPx| / pairNotional state spotPx ≤ cfg.rebalanceBand)
    (hdrift : cfg.Drifted state target spotPx) :
    Held (cfg.trade target spotPx perpPx fee state) ∧
      pairNotional (cfg.trade target spotPx perpPx fee state) spotPx = target.targetNotional := by
  have hplan : (cfg.plan state target spotPx perpPx).spotDeltaQty =
      target.targetNotional / spotPx - state.spotQty := by
    simp [plan, planResize, hsteady.hold, h.inMarket, h.notional_pos hsteady.spotPx_pos,
      not_lt.mpr hband, hsteady.target_pos, hdrift.2]
  have hpos : 0 < target.targetNotional / spotPx := div_pos hsteady.target_pos hsteady.spotPx_pos
  have hspot : (cfg.trade target spotPx perpPx fee state).spotQty =
      target.targetNotional / spotPx := by
    simp [trade, RebalancePlan.exactFill, hplan, hpos.le]
  refine ⟨⟨hspot ▸ hpos, le_max_left _ _⟩, ?_⟩
  rw [pairNotional, hspot, div_mul_cancel₀ _ hsteady.spotPx_pos.ne']

/-- A flat position is opened at the target. -/
theorem trade_open (hspot : state.spotQty = 0) (hperp : state.perpQty = 0) :
    ¬ cfg.Rests target spotPx perpPx state ∧ Held (cfg.trade target spotPx perpPx fee state) ∧
      pairNotional (cfg.trade target spotPx perpPx fee state) spotPx = target.targetNotional := by
  have hpos : 0 < target.targetNotional / spotPx := div_pos hsteady.target_pos hsteady.spotPx_pos
  have hplan : cfg.plan state target spotPx perpPx = {
      spotDeltaQty := target.targetNotional / spotPx
      perpDeltaQty := target.targetNotional / spotPx
      reason := .opens } := by
    simp [plan, hsteady.hold, CarryPositionState.inMarket, hspot, hperp, hsteady.spotPx_pos,
      not_le.mpr hpos]
  have hspot' : (cfg.trade target spotPx perpPx fee state).spotQty =
      target.targetNotional / spotPx := by
    simp [trade, hplan, RebalancePlan.exactFill, hspot, hpos.le]
  refine ⟨?_, ⟨hspot' ▸ hpos, le_max_left _ _⟩, ?_⟩
  · rw [Rests, hplan]
    simp [RebalancePlan.isNoop]
  · rw [pairNotional, hspot', div_mul_cancel₀ _ hsteady.spotPx_pos.ne']

/-! ## At rest -/

/-- A position that the plan leaves as it is lies within its bands, and stays. -/
theorem settlesWithin_zero (h : Held state) (hrests : cfg.Rests target spotPx perpPx state) :
    SettlesWithin (cfg.trade target spotPx perpPx fee) (cfg.Rests target spotPx perpPx)
      (cfg.InBands target spotPx perpPx) 0 state := by
  refine SettlesWithin.now (I := fun state' => state'.spotQty = state.spotQty ∧
    state'.perpQty = state.perpQty) (fun s hs => ?_) (fun s hs => ?_) ⟨rfl, rfl⟩ ?_
  · obtain ⟨hspot, hperp⟩ := plan_deltas hrests
    rw [← plan_congr hs.1 hs.2] at hspot hperp
    refine ⟨?_, ?_⟩
    · rw [trade, CarryPositionState.applyFill_spotQty, RebalancePlan.exactFill, hspot, add_zero,
        hs.1, max_eq_right h.spot.le]
    · rw [trade, CarryPositionState.applyFill_perpQty, RebalancePlan.exactFill, hperp, add_zero,
        hs.2, max_eq_right h.perp]
  · rw [Rests, plan_congr hs.1 hs.2]
    exact hrests
  · obtain ⟨hband, hdrift⟩ :=
      (plan_isNoop hsteady.hold h.inMarket (h.notional_pos hsteady.spotPx_pos)).mp hrests
    refine ⟨(div_le_iff₀ (h.notional_pos hsteady.spotPx_pos)).mp hband, ?_⟩
    exact (div_le_iff₀ hsteady.target_pos).mp
      (le_of_not_gt fun hlt => hdrift ⟨hsteady.target_pos, hlt⟩)

/-- Where the notional is at the target, a rebalance is all that is left to do. -/
theorem settlesWithin_of_struck (h : Held state)
    (hstruck : pairNotional state spotPx = target.targetNotional) :
    SettlesWithin (cfg.trade target spotPx perpPx fee) (cfg.Rests target spotPx perpPx)
      (cfg.InBands target spotPx perpPx) 1 state := by
  have hdrift : ∀ s, pairNotional s spotPx = target.targetNotional →
      ¬ cfg.Drifted s target spotPx := fun s hs hdrift => by
    have hlt := hdrift.2
    rw [hs, sub_self, abs_zero, zero_div] at hlt
    exact absurd hlt (not_lt.mpr hsteady.resizeBand_nonneg)
  by_cases hrests : cfg.Rests target spotPx perpPx state
  · exact (settlesWithin_zero fee hsteady h hrests).mono (Nat.zero_le 1)
  have hband : cfg.rebalanceBand < |netDelta state spotPx perpPx| / pairNotional state spotPx := by
    by_contra hle
    exact hrests ((plan_isNoop hsteady.hold h.inMarket (h.notional_pos hsteady.spotPx_pos)).mpr
      ⟨not_lt.mp hle, hdrift state hstruck⟩)
  obtain ⟨hheld, hdelta, hnotional⟩ := trade_rebalance fee hsteady h hband
  have hat := hnotional.trans hstruck
  refine SettlesWithin.succ hrests (settlesWithin_zero fee hsteady hheld ?_)
  refine (plan_isNoop hsteady.hold hheld.inMarket (hheld.notional_pos hsteady.spotPx_pos)).mpr
    ⟨?_, hdrift _ hat⟩
  rw [hdelta, abs_zero, zero_div]
  exact hsteady.rebalanceBand_nonneg

/-- Where the delta is within its band, a resize and a rebalance are left to do. -/
theorem settlesWithin_of_hedged (h : Held state)
    (hband : |netDelta state spotPx perpPx| / pairNotional state spotPx ≤ cfg.rebalanceBand) :
    SettlesWithin (cfg.trade target spotPx perpPx fee) (cfg.Rests target spotPx perpPx)
      (cfg.InBands target spotPx perpPx) 2 state := by
  have hrests : cfg.Rests target spotPx perpPx state ↔ _ :=
    plan_isNoop hsteady.hold h.inMarket (h.notional_pos hsteady.spotPx_pos)
  by_cases hdrift : cfg.Drifted state target spotPx
  · obtain ⟨hheld, hstruck⟩ := trade_resize fee hsteady h hband hdrift
    exact SettlesWithin.succ (fun hr => (hrests.mp hr).2 hdrift)
      (settlesWithin_of_struck fee hsteady hheld hstruck)
  · exact (settlesWithin_zero fee hsteady h (hrests.mpr ⟨hband, hdrift⟩)).mono
      (Nat.zero_le 2)

theorem settlesWithin_of_held (h : Held state) :
    SettlesWithin (cfg.trade target spotPx perpPx fee) (cfg.Rests target spotPx perpPx)
      (cfg.InBands target spotPx perpPx) 3 state := by
  by_cases hband : cfg.rebalanceBand <
      |netDelta state spotPx perpPx| / pairNotional state spotPx
  · obtain ⟨hheld, hdelta, -⟩ := trade_rebalance fee hsteady h hband
    refine SettlesWithin.succ (fun hrests => ?_)
      (settlesWithin_of_hedged fee hsteady hheld ?_)
    · exact absurd hband (not_lt.mpr
        ((plan_isNoop hsteady.hold h.inMarket (h.notional_pos hsteady.spotPx_pos)).mp hrests).1)
    · rw [hdelta, abs_zero, zero_div]
      exact hsteady.rebalanceBand_nonneg
  · exact (settlesWithin_of_hedged fee hsteady h (not_lt.mp hband)).mono
      (Nat.le_succ 2)

/-- At fixed prices and a fixed target the manager makes at most three trades and then rests for
good, with the delta and the notional within their bands. -/
theorem trades_settle (hplaced : Placed state) :
    SettlesWithin (cfg.trade target spotPx perpPx fee) (cfg.Rests target spotPx perpPx)
      (cfg.InBands target spotPx perpPx) 3 state := by
  rcases hplaced with ⟨hspot, hperp⟩ | ⟨hspot, hperp⟩
  · obtain ⟨hmove, hheld, hstruck⟩ := trade_open fee hsteady hspot hperp
    exact (SettlesWithin.succ hmove
      (settlesWithin_of_struck fee hsteady hheld hstruck)).mono (Nat.le_succ 2)
  · exact settlesWithin_of_held fee hsteady ⟨hspot, hperp⟩

end

/-- A long leg of one unit at 100, with the perp at 80 and a target of 1000: rebalance, resize,
rebalance. -/
theorem trades_settle_longLeg : SettlesWithin
    (trade {} { hold := true, targetNotional := 1000 } 100 80 0)
    (Rests {} { hold := true, targetNotional := 1000 } 100 80)
    (InBands {} { hold := true, targetNotional := 1000 } 100 80) 3 { spotQty := 1 } :=
  trades_settle 0 ⟨by norm_num, by norm_num, rfl, by norm_num, by norm_num, by norm_num⟩
    (.inr ⟨by norm_num, le_rfl⟩)

end CarryManagerConfig

end TradingPlatform
