import TradingPlatform.Carry.Position
import TradingPlatform.Lib.Outcome

/-!
# Real orders for both legs

`LiveCarryExecutor.execute` sends a spot order and then a perp order, and reports what the replies
say was filled. What the venues do during one call is a `CarryVenues`: how they round, and for each
order either an error or a quantity really traded together with a reply. The call leaves the two
legs equal in its report, or the spot account as it was, exactly when the replies of the two orders
agree and a spot order that has to be undone is undone in full.
-/

namespace TradingPlatform

/-- The fields of a ccxt order the executor reads. `fees` has the cost of each entry of the list of
that name, `fee` that of the single entry. -/
structure OrderReply where
  id : Option String := none
  filled : Option ℚ := none
  amount : Option ℚ := none
  average : Option ℚ := none
  price : Option ℚ := none
  fees : List (Option ℚ) := []
  fee : Option (Option ℚ) := none

/-- An order that has been accepted: the quantity really traded, the reply to `create_order`, and
the reply to `fetch_order` if one can be had. -/
structure Execution where
  executed : ℚ
  reply : OrderReply
  readBack : Option OrderReply := none

abbrev OrderOutcome := Except PyError Execution

/-- What the two venues do during one call of `execute`: the precisions both clients give for the
quantity of a leg, if they can, and the outcome of each order. -/
structure CarryVenues where
  spotPrecision : ℚ → Option (ℚ × ℚ)
  perpPrecision : ℚ → Option (ℚ × ℚ)
  spotOrder : Side → ℚ → OrderOutcome
  perpOrder : Side → Bool → ℚ → OrderOutcome
  unwindOrder : Side → ℚ → OrderOutcome

/-- `Fill`: what the executor takes an order to have filled. -/
structure CarryExchange.Fill where
  qty : ℚ
  avgPrice : ℚ
  fee : ℚ

/-- A leg that has been traded: the fill the executor books, and the quantity really traded. -/
structure Leg where
  fill : CarryExchange.Fill
  executed : ℚ

/-- The net quantities a call really trades: spot bought, perp sold short. -/
structure VenueTrades where
  spot : ℚ := 0
  perp : ℚ := 0
  deriving DecidableEq

namespace OrderReply

/-- `_sum_fees` -/
def sumFees (reply : OrderReply) : ℚ :=
  let costs := if reply.fees = [] then reply.fee.toList else reply.fees
  (costs.map fun cost => |cost.getD 0|).sum

/-- The quantity `_resolve_fill` reads: a `filled` of zero counts as missing. -/
def reportedQty (reply : OrderReply) : ℚ := orNumber reply.filled (orNumber reply.amount 0)

def reportedPrice (reply : OrderReply) : ℚ := orNumber reply.average (orNumber reply.price 0)

/-- `_resolve_fill` -/
def resolveFill (reply : OrderReply) (readBack : Option OrderReply) (refPx takerBps : ℚ) :
    CarryExchange.Fill :=
  let qty := reply.reportedQty
  let back := if reply.reportedPrice ≤ 0 ∧ given reply.id then readBack else none
  let price := back.elim reply.reportedPrice reportedPrice
  let fee := if reply.sumFees = 0 then back.elim 0 sumFees else reply.sumFees
  let price := if price ≤ 0 then refPx else price
  { qty
    avgPrice := price
    fee := if fee ≤ 0 then qty * price * takerBps / 10000 else fee }

end OrderReply

/-! ## One call -/

/-- `round_qty`: the coarser of the two precisions, or the raw quantity when one cannot be had. -/
def roundQty (precision : ℚ → Option (ℚ × ℚ)) (qty : ℚ) : ℚ :=
  match precision |qty| with
  | none => qty
  | some (s, p) => if 0 ≤ qty then min s p else -min s p

/-- A quantity in the direction of a delta. -/
def signed (delta qty : ℚ) : ℚ := if 0 ≤ delta then qty else -qty

def Execution.leg (refPx takerBps : ℚ) (x : Execution) : Leg :=
  ⟨x.reply.resolveFill x.readBack refPx takerBps, x.executed⟩

namespace CarryVenues

/-- The spot leg, if there is one to trade. -/
def placeSpot (v : CarryVenues) (delta refPx : ℚ) : Except PyError (Option Leg) :=
  if 1 / 10 ^ 9 < |delta| then
    (v.spotOrder (if 0 < delta then .buy else .sell) |delta|).map fun x => some (x.leg refPx 10)
  else .ok none

/-- The perp leg, if there is one to trade: a positive delta is sold, a negative one bought back. -/
def placePerp (v : CarryVenues) (delta refPx : ℚ) : Except PyError (Option Leg) :=
  if 1 / 10 ^ 9 < |delta| then
    (if 0 < delta then v.perpOrder .sell false |delta| else v.perpOrder .buy true |delta|).map
      fun x => some (x.leg refPx 5)
  else .ok none

/-- The executor's answer to a perp leg that has failed: trade the spot leg back, and raise. -/
def unwind (v : CarryVenues) (spotDelta : ℚ) (spot : Option Leg) : PyError × VenueTrades :=
  match spot with
  | none => (.raised "PartialCarryFill", {})
  | some leg =>
    if 0 < leg.fill.qty then
      match v.unwindOrder (if 0 < spotDelta then .sell else .buy) leg.fill.qty with
      | .error e => (e, { spot := signed spotDelta leg.executed })
      | .ok back =>
        (.raised "PartialCarryFill", { spot := signed spotDelta (leg.executed - back.executed) })
    else (.raised "PartialCarryFill", { spot := signed spotDelta leg.executed })

/-- The spot delta the executor trades. -/
def spotDelta (v : CarryVenues) (plan : RebalancePlan) : ℚ :=
  roundQty v.spotPrecision plan.spotDeltaQty

def perpDelta (v : CarryVenues) (plan : RebalancePlan) : ℚ :=
  roundQty v.perpPrecision plan.perpDeltaQty

end CarryVenues

namespace Leg

/-- What the executor books of a leg, if it was traded. -/
def booked (leg : Option Leg) : ℚ := leg.elim 0 fun leg => leg.fill.qty

def traded (leg : Option Leg) : ℚ := leg.elim 0 Leg.executed

end Leg

/-- `LiveCarryExecutor.execute`, with the quantities it really trades. -/
def CarryVenues.execute (v : CarryVenues) (plan : RebalancePlan) (spotPx perpPx : ℚ) :
    Except PyError (Option ExecReport) × VenueTrades :=
  if plan.isNoop then (.ok none, {})
  else
    match v.placeSpot (v.spotDelta plan) spotPx with
    | .error e => (.error e, {})
    | .ok spot =>
      match v.placePerp (v.perpDelta plan) perpPx with
      | .error _ =>
        let unwound := v.unwind (v.spotDelta plan) spot
        (.error unwound.1, unwound.2)
      | .ok perp =>
        (.ok (some
          { spotFillQty := signed (v.spotDelta plan) (Leg.booked spot)
            spotFillPx := spot.elim spotPx fun leg => leg.fill.avgPrice
            perpFillQty := signed (v.perpDelta plan) (Leg.booked perp)
            perpFillPx := perp.elim perpPx fun leg => leg.fill.avgPrice
            fee := (spot.elim 0 fun leg => leg.fill.fee) + perp.elim 0 fun leg => leg.fill.fee
            reason := plan.reason }),
          { spot := signed (v.spotDelta plan) (Leg.traded spot)
            perp := signed (v.perpDelta plan) (Leg.traded perp) })

/-! ## The hedge -/

/-- The call has left the book hedged: a report has equal legs, and a call that raises has left the
spot account as it was. -/
def Hedged (result : Except PyError (Option ExecReport) × VenueTrades) : Prop :=
  match result.1 with
  | .ok none => True
  | .ok (some report) => report.spotFillQty = report.perpFillQty
  | .error _ => result.2.spot = 0

instance Hedged.decidable : ∀ result, Decidable (Hedged result)
  | (.ok none, _) => inferInstanceAs (Decidable True)
  | (.ok (some report), _) =>
    inferInstanceAs (Decidable (report.spotFillQty = report.perpFillQty))
  | (.error _, trades) => inferInstanceAs (Decidable (trades.spot = 0))

namespace CarryVenues

variable {v : CarryVenues} {plan : RebalancePlan} {spotPx perpPx delta qty : ℚ} {spot : Option Leg}

/-- A spot leg whose perp leg has failed is traded back in full, or nothing of it was traded and
nothing is traded back. -/
def Restored (v : CarryVenues) (spotDelta : ℚ) : Option Leg → Prop
  | none => True
  | some leg =>
    if 0 < leg.fill.qty then
      match v.unwindOrder (if 0 < spotDelta then .sell else .buy) leg.fill.qty with
      | .error _ => leg.executed = 0
      | .ok back => leg.executed = back.executed
    else leg.executed = 0

/-- The venues reject the spot order, or report the same for both orders, or undo the spot order
after they have rejected the perp order. -/
def Agree (v : CarryVenues) (plan : RebalancePlan) (spotPx perpPx : ℚ) : Prop :=
  plan.isNoop = true ∨
    match v.placeSpot (v.spotDelta plan) spotPx, v.placePerp (v.perpDelta plan) perpPx with
    | .error _, _ => True
    | .ok spot, .error _ => v.Restored (v.spotDelta plan) spot
    | .ok spot, .ok perp =>
      signed (v.spotDelta plan) (Leg.booked spot) = signed (v.perpDelta plan) (Leg.booked perp)

theorem signed_eq_zero_iff : signed delta qty = 0 ↔ qty = 0 := by
  rw [signed]
  split
  · exact Iff.rfl
  · exact neg_eq_zero

theorem unwind_spot_eq_zero_iff : (v.unwind delta spot).2.spot = 0 ↔ v.Restored delta spot := by
  cases spot with
  | none => exact iff_of_true rfl trivial
  | some leg =>
    simp only [unwind, Restored]
    split
    · split
      · exact signed_eq_zero_iff
      · exact signed_eq_zero_iff.trans sub_eq_zero
    · exact signed_eq_zero_iff

/-- A call leaves the book hedged if and only if the venues agree. -/
theorem execute_hedged_iff (v : CarryVenues) (plan : RebalancePlan) (spotPx perpPx : ℚ) :
    Hedged (v.execute plan spotPx perpPx) ↔ v.Agree plan spotPx perpPx := by
  simp only [execute, Agree]
  split
  · next hnoop => exact iff_of_true trivial (.inl hnoop)
  next htrade =>
  rw [or_iff_right htrade]
  cases v.placeSpot (v.spotDelta plan) spotPx with
  | error e => exact iff_of_true rfl trivial
  | ok spot =>
    cases v.placePerp (v.perpDelta plan) perpPx with
    | error e => exact unwind_spot_eq_zero_iff
    | ok perp => exact Iff.rfl

/-- Every order that is accepted trades between nothing and what was asked for, and says so. -/
structure Admissible (v : CarryVenues) : Prop where
  spot : ∀ side qty x, 0 ≤ qty → v.spotOrder side qty = .ok x →
    0 ≤ x.executed ∧ x.executed ≤ qty ∧ x.reply.filled = some x.executed
  perp : ∀ side reduceOnly qty x, 0 ≤ qty → v.perpOrder side reduceOnly qty = .ok x →
    0 ≤ x.executed ∧ x.executed ≤ qty ∧ x.reply.filled = some x.executed
  unwind : ∀ side qty x, 0 ≤ qty → v.unwindOrder side qty = .ok x →
    0 ≤ x.executed ∧ x.executed ≤ qty ∧ x.reply.filled = some x.executed

/-- Venues without lot sizes that fill a part of every spot order and a part of every perp order. -/
def filling (spotPart perpPart : ℚ) : CarryVenues :=
  let order (part qty : ℚ) : OrderOutcome :=
    .ok { executed := part * qty, reply := { filled := some (part * qty), amount := some qty } }
  { spotPrecision := fun qty => some (qty, qty)
    perpPrecision := fun qty => some (qty, qty)
    spotOrder := fun _ qty => order spotPart qty
    perpOrder := fun _ _ qty => order perpPart qty
    unwindOrder := fun _ qty => order spotPart qty }

/-- Every order that is accepted is filled in full and says so, and a spot order can always be
undone. -/
structure FillsAll (v : CarryVenues) : Prop where
  spot : ∀ side qty x, v.spotOrder side qty = .ok x → x.executed = qty ∧ x.reply.filled = some qty
  perp : ∀ side reduceOnly qty x, v.perpOrder side reduceOnly qty = .ok x →
    x.reply.filled = some qty
  unwind : ∀ side qty, ∃ x, v.unwindOrder side qty = .ok x ∧ x.executed = qty

theorem reportedQty_of_filled {reply : OrderReply} (hqty : qty ≠ 0) (h : reply.filled = some qty) :
    reply.reportedQty = qty := by
  simp [OrderReply.reportedQty, h, orNumber, hqty]

theorem abs_ne_zero_of_lt (h : 1 / 10 ^ 9 < |delta|) : |delta| ≠ 0 := by
  have : (0 : ℚ) < 1 / 10 ^ 9 := by norm_num
  exact (this.trans h).ne'

/-- What venues that fill every order in full make of a delta. -/
theorem FillsAll.placeSpot (h : v.FillsAll) (hspot : v.placeSpot delta spotPx = .ok spot) :
    Leg.booked spot = (if 1 / 10 ^ 9 < |delta| then |delta| else 0) ∧
      v.Restored delta spot := by
  simp only [CarryVenues.placeSpot] at hspot
  split at hspot
  · next htrade =>
    obtain ⟨x, hx, rfl⟩ := Except.map_eq_ok.mp hspot
    obtain ⟨hexecuted, hfilled⟩ := h.spot _ _ x hx
    have hqty : (x.leg spotPx 10).fill.qty = |delta| :=
      reportedQty_of_filled (abs_ne_zero_of_lt htrade) hfilled
    refine ⟨?_, ?_⟩
    · rw [if_pos htrade]
      exact hqty
    · have hpos : 0 < (x.leg spotPx 10).fill.qty := by
        rw [hqty]
        exact (abs_nonneg delta).lt_of_ne' (abs_ne_zero_of_lt htrade)
      obtain ⟨back, hback, hundone⟩ := h.unwind (if 0 < delta then .sell else .buy) |delta|
      rw [Restored, if_pos hpos, hqty, hback]
      exact hexecuted.trans hundone.symm
  · next htrade =>
    obtain rfl := Except.ok.inj hspot
    exact ⟨by rw [if_neg htrade]; rfl, trivial⟩

theorem FillsAll.placePerp (h : v.FillsAll) {perp : Option Leg}
    (hperp : v.placePerp delta perpPx = .ok perp) :
    Leg.booked perp = if 1 / 10 ^ 9 < |delta| then |delta| else 0 := by
  simp only [CarryVenues.placePerp] at hperp
  split at hperp
  · next htrade =>
    obtain ⟨x, hx, rfl⟩ := Except.map_eq_ok.mp hperp
    have hfilled : x.reply.filled = some |delta| := by
      split at hx
      · exact h.perp _ _ _ x hx
      · exact h.perp _ _ _ x hx
    rw [if_pos htrade]
    exact reportedQty_of_filled (abs_ne_zero_of_lt htrade) hfilled
  · next htrade =>
    obtain rfl := Except.ok.inj hperp
    rw [if_neg htrade]
    rfl

/-- Venues that round both legs alike and fill every order in full agree on every plan. -/
theorem FillsAll.agree (h : v.FillsAll) (hdelta : v.spotDelta plan = v.perpDelta plan) :
    v.Agree plan spotPx perpPx := by
  refine .inr ?_
  cases hspot : v.placeSpot (v.spotDelta plan) spotPx with
  | error e => trivial
  | ok spot =>
    obtain ⟨hbooked, hrestored⟩ := h.placeSpot hspot
    cases hperp : v.placePerp (v.perpDelta plan) perpPx with
    | error e => exact hrestored
    | ok perp => exact hdelta ▸ congrArg _ (hbooked.trans (by rw [h.placePerp hperp, hdelta]))

/-- A perp order that is filled in part leaves the spot leg larger than the perp leg. -/
theorem not_execute_hedged : ¬ ∀ (v : CarryVenues) (plan : RebalancePlan) (spotPx perpPx : ℚ),
    v.Admissible → plan.reason ∈ [PlanReason.opens, .resize, .close] →
      plan.spotDeltaQty = plan.perpDeltaQty → Hedged (v.execute plan spotPx perpPx) := by
  intro h
  have hadmissible : (filling 1 (1 / 2)).Admissible := by
    constructor
    · rintro side qty x hqty hx
      obtain rfl := Except.ok.inj hx
      exact ⟨by simpa using hqty, by simp, rfl⟩
    · rintro side reduceOnly qty x hqty hx
      obtain rfl := Except.ok.inj hx
      refine ⟨by positivity, ?_, rfl⟩
      show 1 / 2 * qty ≤ qty
      linarith
    · rintro side qty x hqty hx
      obtain rfl := Except.ok.inj hx
      exact ⟨by simpa using hqty, by simp, rfl⟩
  have hhedged := h (filling 1 (1 / 2))
    { spotDeltaQty := 1, perpDeltaQty := 1, reason := .opens } 100 100 hadmissible
    (by decide) rfl
  revert hhedged
  decide +kernel

end CarryVenues

end TradingPlatform
