import TradingPlatform.Carry.Position

/-!
# What a noop leaves in the market

A plan that does nothing to a position in the market leaves it as hedged as the band asks, and with
both legs, exactly when the position has a spot leg and, if it has no perp leg, the band or the
drift of the pair makes the manager act. A short perp leg alone has no spot notional to measure its
delta against, so no band catches it.
-/

namespace TradingPlatform

/-- The position has a leg in one of the two markets only. -/
def CarryPositionState.OneLegged (state : CarryPositionState) : Prop :=
  (0 < state.spotQty ∧ state.perpQty = 0) ∨ (state.spotQty = 0 ∧ 0 < state.perpQty)

namespace CarryManagerConfig

/-- The net delta is within the band around the spot notional. -/
def Hedged (cfg : CarryManagerConfig) (state : CarryPositionState) (spotPx perpPx : ℚ) : Prop :=
  |netDelta state spotPx perpPx| ≤ cfg.rebalanceBand * (state.spotQty * spotPx)

/-- The pair is further from its target than the resize band allows. -/
def Drifted (cfg : CarryManagerConfig) (state : CarryPositionState) (target : CarryTarget)
    (spotPx : ℚ) : Prop :=
  0 < target.targetNotional ∧
    cfg.resizeBand < |pairNotional state spotPx - target.targetNotional| / target.targetNotional

/-- A position in the market that the plan leaves as it is is hedged and has both legs. -/
def LeavesHedged (cfg : CarryManagerConfig) (state : CarryPositionState) (target : CarryTarget)
    (spotPx perpPx : ℚ) : Prop :=
  (cfg.plan state target spotPx perpPx).isNoop = true → state.inMarket = true →
    cfg.Hedged state spotPx perpPx ∧ ¬ state.OneLegged

/-- A position that is to stay in the market has a spot leg, and a perp leg unless one of the bands
makes up for it. -/
def Covers (cfg : CarryManagerConfig) (state : CarryPositionState) (target : CarryTarget)
    (spotPx : ℚ) : Prop :=
  target.hold = true → state.inMarket = true →
    0 < state.spotQty ∧
      (0 < state.perpQty ∨ cfg.rebalanceBand < 1 ∨ cfg.Drifted state target spotPx)

variable {cfg : CarryManagerConfig} {state : CarryPositionState} {target : CarryTarget}
  {spotPx perpPx : ℚ}

/-! ## The noops of a plan -/

theorem planResize_isNoop (hnotional : 0 < pairNotional state spotPx) :
    (cfg.planResize state target spotPx).isNoop = true ↔ ¬ cfg.Drifted state target spotPx := by
  unfold planResize Drifted
  by_cases htarget : 0 < target.targetNotional
  · simp only [htarget, hnotional, and_self, if_true, true_and]
    split <;> simp_all [RebalancePlan.isNoop, RebalancePlan.noop]
  · simp [htarget, RebalancePlan.isNoop, RebalancePlan.noop]

theorem plan_isNoop_of_close (hhold : target.hold = false) (hmarket : state.inMarket = true) :
    (cfg.plan state target spotPx perpPx).isNoop = false := by
  simp [plan, hhold, hmarket, RebalancePlan.isNoop]

/-- Without a spot notional there is nothing to measure the delta against. -/
theorem plan_isNoop_of_no_notional (hhold : target.hold = true) (hmarket : state.inMarket = true)
    (hnotional : pairNotional state spotPx = 0) :
    (cfg.plan state target spotPx perpPx).isNoop = true := by
  simp [plan, planResize, hhold, hmarket, hnotional, RebalancePlan.isNoop, RebalancePlan.noop]

theorem plan_isNoop (hhold : target.hold = true) (hmarket : state.inMarket = true)
    (hnotional : 0 < pairNotional state spotPx) :
    (cfg.plan state target spotPx perpPx).isNoop = true ↔
      |netDelta state spotPx perpPx| / pairNotional state spotPx ≤ cfg.rebalanceBand ∧
        ¬ cfg.Drifted state target spotPx := by
  simp only [plan, hhold, hmarket, Bool.not_true, Bool.false_eq_true, if_false, hnotional, true_and]
  split
  · next hband => simp [RebalancePlan.isNoop, not_le.mpr hband]
  · next hband =>
    rw [planResize_isNoop hnotional]
    exact (and_iff_right (not_lt.mp hband)).symm

/-! ## The delta of the legs -/

theorem hedged_iff (hnotional : 0 < pairNotional state spotPx) :
    cfg.Hedged state spotPx perpPx ↔
      |netDelta state spotPx perpPx| / pairNotional state spotPx ≤ cfg.rebalanceBand :=
  (div_le_iff₀ hnotional).symm

/-- A spot leg alone is its whole delta. -/
theorem delta_of_spot_only (hperp : state.perpQty = 0) (hnotional : 0 < pairNotional state spotPx) :
    |netDelta state spotPx perpPx| / pairNotional state spotPx = 1 := by
  have hdelta : netDelta state spotPx perpPx = pairNotional state spotPx := by
    simp [netDelta, pairNotional, hperp]
  rw [hdelta, abs_of_pos hnotional, div_self hnotional.ne']

/-- A perp leg alone is never hedged. -/
theorem not_hedged_of_perp_only (hspot : state.spotQty = 0) (hperp : 0 < state.perpQty)
    (hpx : 0 < perpPx) : ¬ cfg.Hedged state spotPx perpPx := by
  have hdelta : 0 < |netDelta state spotPx perpPx| := by
    rw [abs_pos, netDelta, hspot, zero_mul, zero_sub]
    exact neg_ne_zero.mpr (mul_pos hperp hpx).ne'
  rw [Hedged, hspot, zero_mul, mul_zero]
  exact not_le.mpr hdelta

/-- The plan leaves a position in the market hedged and with both legs exactly when a position that
is to stay there has a spot leg, and a perp leg, a band below one or a drifted pair. -/
theorem leavesHedged_iff (hspot : 0 ≤ state.spotQty) (hperp : 0 ≤ state.perpQty)
    (hspotPx : 0 < spotPx) (hperpPx : 0 < perpPx) :
    cfg.LeavesHedged state target spotPx perpPx ↔ cfg.Covers state target spotPx := by
  unfold LeavesHedged Covers
  cases hmarket : state.inMarket with
  | false => simp
  | true =>
  cases hhold : target.hold with
  | false => simp [plan_isNoop_of_close hhold hmarket]
  | true =>
  rcases hspot.eq_or_lt' with hzero | hpos
  · -- only the short leg is left, and nothing is done about it
    have hperp' : 0 < state.perpQty := by simpa [CarryPositionState.inMarket, hzero] using hmarket
    have hnotional : pairNotional state spotPx = 0 := by simp [pairNotional, hzero]
    have hnoop : (cfg.plan state target spotPx perpPx).isNoop = true :=
      plan_isNoop_of_no_notional hhold hmarket hnotional
    have hbare : ¬ cfg.Hedged state spotPx perpPx := not_hedged_of_perp_only hzero hperp' hperpPx
    simp [hnoop, hbare, hzero]
  · have hnotional : 0 < pairNotional state spotPx := mul_pos hpos hspotPx
    rw [plan_isNoop hhold hmarket hnotional, hedged_iff hnotional]
    rcases hperp.eq_or_lt' with hnone | hboth
    · rw [delta_of_spot_only hnone hnotional]
      have hone : state.OneLegged := .inl ⟨hpos, hnone⟩
      simp only [hone, not_true_eq_false, and_false, hpos, hnone, lt_irrefl, true_and, false_or,
        forall_const, imp_false, not_and, not_not]
      exact ⟨fun h => (lt_or_ge cfg.rebalanceBand 1).imp_right h,
        fun h hband => h.resolve_left (not_lt.mpr hband)⟩
    · have htwo : ¬ state.OneLegged := by simp [CarryPositionState.OneLegged, hpos.ne', hboth.ne']
      simp only [htwo, not_false_eq_true, and_true, hpos, hboth, true_or, imp_true_iff, iff_true]
      exact fun h _ => h.1

/-- A short leg of one unit whose spot leg is gone is left as it is. -/
theorem not_leavesHedged_perp_only : ¬ LeavesHedged {} { perpQty := 1, perpEntryPx := 100 }
    { hold := true, targetNotional := 1000 } 100 100 := by
  intro h
  have hleft := h (by decide +kernel) (by decide +kernel)
  exact hleft.2 (.inr (by norm_num))

theorem leavesHedged_iff_pair :
    LeavesHedged {} { spotQty := 1, perpQty := 1 } { hold := true, targetNotional := 100 } 100 100 ↔
      Covers {} { spotQty := 1, perpQty := 1 } { hold := true, targetNotional := 100 } 100 :=
  leavesHedged_iff (by norm_num) (by norm_num) (by norm_num) (by norm_num)

end CarryManagerConfig

end TradingPlatform
