import TradingPlatform.Contracts

/-!
# The delta-neutral position

What `CarryPositionManager` decides and books: a long spot leg and a short perp leg, both held as
non-negative quantities, a target the pair is moved towards, and the funding the short leg earns.
-/

namespace TradingPlatform

structure CarryManagerConfig where
  capitalMultiplier : ℚ := 3 / 2
  minTrailingFunding8h : ℚ := -1
  rebalanceBand : ℚ := 2 / 100
  resizeBand : ℚ := 15 / 100

structure CarryPositionState where
  spotQty : ℚ := 0
  perpQty : ℚ := 0
  spotEntryPx : ℚ := 0
  perpEntryPx : ℚ := 0
  accruedFunding : ℚ := 0
  flips : ℕ := 0
  deriving DecidableEq

def CarryPositionState.inMarket (state : CarryPositionState) : Bool :=
  decide (0 < state.spotQty) || decide (0 < state.perpQty)

structure CarryTarget where
  hold : Bool
  targetNotional : ℚ

inductive PlanReason
  | opens
  | close
  | resize
  | rebalance
  | noop
  deriving DecidableEq

/-- What to trade: a positive spot delta is bought, a positive perp delta sold short. -/
structure RebalancePlan where
  spotDeltaQty : ℚ
  perpDeltaQty : ℚ
  reason : PlanReason
  details : List (String × ℚ) := []

def RebalancePlan.noop : RebalancePlan :=
  { spotDeltaQty := 0, perpDeltaQty := 0, reason := .noop }

def RebalancePlan.isNoop (plan : RebalancePlan) : Bool := decide (plan.reason = .noop)

namespace CarryManagerConfig

/-! ## Read models -/

def netDelta (state : CarryPositionState) (spotPx perpPx : ℚ) : ℚ :=
  state.spotQty * spotPx - state.perpQty * perpPx

def pairNotional (state : CarryPositionState) (spotPx : ℚ) : ℚ := state.spotQty * spotPx

def equity (state : CarryPositionState) (cash spotPx perpPx : ℚ) : ℚ :=
  let spotVal := state.spotQty * spotPx
  let perpPnl := state.perpQty * (state.perpEntryPx - perpPx)
  cash + spotVal + perpPnl + state.accruedFunding

/-! ## Decisions -/

/-- `decide_target` -/
def decideTarget (cfg : CarryManagerConfig) (trailingFunding8h equity : ℚ) :
    Except PyError CarryTarget :=
  if cfg.minTrailingFunding8h ≤ trailingFunding8h then
    if cfg.capitalMultiplier = 0 then .error .zeroDivisionError
    else .ok { hold := true, targetNotional := max 0 equity / cfg.capitalMultiplier }
  else .ok { hold := false, targetNotional := 0 }

/-- The re-strike of the pair to its target, on a large drift only. -/
def planResize (cfg : CarryManagerConfig) (state : CarryPositionState) (target : CarryTarget)
    (spotPx : ℚ) : RebalancePlan :=
  let curNotional := pairNotional state spotPx
  if 0 < target.targetNotional ∧ 0 < curNotional then
    let drift := |curNotional - target.targetNotional| / target.targetNotional
    if cfg.resizeBand < drift then
      let d := target.targetNotional / spotPx - state.spotQty
      { spotDeltaQty := d
        perpDeltaQty := d
        reason := .resize
        details := [("drift", drift)] }
    else .noop
  else .noop

def plan (cfg : CarryManagerConfig) (state : CarryPositionState) (target : CarryTarget)
    (spotPx perpPx : ℚ) : RebalancePlan :=
  let curNotional := pairNotional state spotPx
  let delta := netDelta state spotPx perpPx
  if !target.hold then
    if state.inMarket then
      { spotDeltaQty := -state.spotQty, perpDeltaQty := -state.perpQty, reason := .close }
    else .noop
  else if !state.inMarket then
    let qty := if 0 < spotPx then target.targetNotional / spotPx else 0
    if qty ≤ 0 then .noop
    else { spotDeltaQty := qty, perpDeltaQty := qty, reason := .opens }
  else if 0 < curNotional ∧ cfg.rebalanceBand < |delta| / curNotional then
    let desiredPerpQty := if 0 < perpPx then state.spotQty * spotPx / perpPx else state.perpQty
    { spotDeltaQty := 0
      perpDeltaQty := desiredPerpQty - state.perpQty
      reason := .rebalance
      details := [("delta_frac", delta / curNotional)] }
  else cfg.planResize state target spotPx

end CarryManagerConfig

/-! ## Fills and funding -/

/-- `ExecReport`: the signed quantities filled, and at what price. -/
structure ExecReport where
  spotFillQty : ℚ
  spotFillPx : ℚ
  perpFillQty : ℚ
  perpFillPx : ℚ
  fee : ℚ
  reason : PlanReason

namespace CarryPositionState

/-- The entry price of a leg after a fill. -/
def entryAfter (qty entryPx fillQty fillPx : ℚ) : ℚ :=
  let newQty := qty + fillQty
  let entry :=
    if 0 < fillQty then
      if 0 < newQty then (qty * entryPx + fillQty * fillPx) / newQty else fillPx
    else entryPx
  if 0 < newQty then entry else 0

/-- `apply_fill`: the new position, and what hits cash. -/
def applyFill (state : CarryPositionState) (fill : ExecReport) : CarryPositionState × ℚ :=
  let newSpot := state.spotQty + fill.spotFillQty
  let newPerp := state.perpQty + fill.perpFillQty
  let closed :=
    if fill.perpFillQty < 0 ∧ 0 < state.perpQty then min (-fill.perpFillQty) state.perpQty else 0
  let cashFlow := -fill.spotFillQty * fill.spotFillPx - fill.fee +
    closed * (state.perpEntryPx - fill.perpFillPx)
  let opened := if !state.inMarket && (decide (0 < newSpot) || decide (0 < newPerp)) then 1 else 0
  let closedOut := if state.inMarket ∧ newSpot ≤ 1 / 10 ^ 12 ∧ newPerp ≤ 1 / 10 ^ 12 then 1 else 0
  ({ state with
      spotQty := max 0 newSpot
      perpQty := max 0 newPerp
      spotEntryPx := entryAfter state.spotQty state.spotEntryPx fill.spotFillQty fill.spotFillPx
      perpEntryPx := entryAfter state.perpQty state.perpEntryPx fill.perpFillQty fill.perpFillPx
      flips := state.flips + opened + closedOut },
    cashFlow)

/-- `accrue_funding`: the short leg is paid the funding rate on its notional. -/
def accrueFunding (state : CarryPositionState) (fundingRate perpPx : ℚ) : CarryPositionState :=
  { state with accruedFunding := state.accruedFunding + fundingRate * state.perpQty * perpPx }

variable {state : CarryPositionState} {fill : ExecReport}

@[simp] theorem applyFill_spotQty :
    (state.applyFill fill).1.spotQty = max 0 (state.spotQty + fill.spotFillQty) := rfl

@[simp] theorem applyFill_perpQty :
    (state.applyFill fill).1.perpQty = max 0 (state.perpQty + fill.perpFillQty) := rfl

@[simp] theorem applyFill_accruedFunding :
    (state.applyFill fill).1.accruedFunding = state.accruedFunding := rfl

/-- A position is in the market after a fill if a leg is left. -/
theorem applyFill_inMarket : (state.applyFill fill).1.inMarket = true ↔
    0 < state.spotQty + fill.spotFillQty ∨ 0 < state.perpQty + fill.perpFillQty := by
  simp [inMarket]

variable {fundingRate perpPx : ℚ}

@[simp] theorem accrueFunding_spotQty :
    (state.accrueFunding fundingRate perpPx).spotQty = state.spotQty := rfl

@[simp] theorem accrueFunding_perpQty :
    (state.accrueFunding fundingRate perpPx).perpQty = state.perpQty := rfl

end CarryPositionState

end TradingPlatform
