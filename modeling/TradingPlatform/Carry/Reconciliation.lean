import TradingPlatform.Carry.Runner
import TradingPlatform.Lib.Run

/-!
# The state file and the venues

Along any history of cycles the file has the quantities really traded exactly as long as every cycle
books what it trades: a dry run changes neither leg, the replies to both orders say what was traded
and no leg is traded below zero, and a spot order whose perp order is rejected is undone in full.
-/

namespace TradingPlatform

/-- The state file, and the net quantities traded by all cycles so far. -/
structure CarryBooks where
  file : Option CarryLiveState := none
  traded : VenueTrades := {}

namespace CarryBooks

/-- One cycle; the file is written only by one that returns. -/
def step (b : CarryBooks) (c : CarryCycle) : CarryBooks :=
  let result := c.run b.file
  { file := match result.1 with
      | .ok (saved, _) => some saved
      | .error _ => b.file
    traded :=
      { spot := b.traded.spot + result.2.spot
        perp := b.traded.perp + result.2.perp } }

/-- The file agrees with the venues. -/
def Reconciled (b : CarryBooks) : Prop :=
  (persisted b.file).spotQty = b.traded.spot ∧ (persisted b.file).perpQty = b.traded.perp

instance (b : CarryBooks) : Decidable b.Reconciled := inferInstanceAs (Decidable (_ ∧ _))

end CarryBooks

/-- A leg is booked as it was traded: as reported, where that does not fall below zero, or cut off
at zero, where that is what was traded. -/
def Booked (qty reported traded : ℚ) : Prop :=
  reported = traded ∧ 0 ≤ qty + traded ∨ qty + traded = 0 ∧ qty + reported < 0

theorem booked_iff {qty reported traded : ℚ} :
    max 0 (qty + reported) = qty + traded ↔ Booked qty reported traded := by
  constructor
  · intro h
    rcases le_or_gt 0 (qty + reported) with hpos | hneg
    · rw [max_eq_right hpos] at h
      have heq := add_left_cancel h
      exact .inl ⟨heq, heq ▸ hpos⟩
    · rw [max_eq_left hneg.le] at h
      exact .inr ⟨h.symm, hneg⟩
  · rintro (⟨rfl, hpos⟩ | ⟨hzero, hneg⟩)
    · exact max_eq_right hpos
    · rw [max_eq_left hneg.le, hzero]

namespace CarryVenues

/-- The orders of a plan are booked on a position as they were traded. -/
def Books (v : CarryVenues) (state : CarryPositionState) (plan : RebalancePlan)
    (spotPx perpPx : ℚ) : Prop :=
  match v.placeSpot (v.spotDelta plan) spotPx, v.placePerp (v.perpDelta plan) perpPx with
  | .error _, _ => True
  | .ok spot, .error _ => v.Restored (v.spotDelta plan) spot
  | .ok spot, .ok perp =>
    Booked state.spotQty (signed (v.spotDelta plan) (Leg.booked spot))
        (signed (v.spotDelta plan) (Leg.traded spot)) ∧
      Booked state.perpQty (signed (v.perpDelta plan) (Leg.booked perp))
        (signed (v.perpDelta plan) (Leg.traded perp))

end CarryVenues

namespace CarryExecutor

/-- A plan is booked as it is traded: a dry run trades nothing. -/
def Books (executor : CarryExecutor) (state : CarryPositionState) (plan : RebalancePlan)
    (spotPx perpPx : ℚ) : Prop :=
  plan.isNoop = true ∨
    match executor with
    | .paper _ _ =>
      Booked state.spotQty plan.spotDeltaQty 0 ∧ Booked state.perpQty plan.perpDeltaQty 0
    | .live venues => venues.Books state plan spotPx perpPx

end CarryExecutor

/-- The cycle raises before it sends an order, or books what it trades. -/
def CarryCycle.Books (c : CarryCycle) (file : Option CarryLiveState) : Prop :=
  ∀ runner snap plan, c.planned file = .ok (runner, snap, plan) →
    c.executor.Books (persisted file) plan snap.spotPx snap.perpMarkPx

/-! ## One cycle -/

/-- The position after the fill an executor reports is the position after what it has traded. -/
def Faithful (state : CarryPositionState)
    (result : Except PyError (Option ExecReport) × VenueTrades) : Prop :=
  match result.1 with
  | .ok (some report) =>
    (state.applyFill report).1.spotQty = state.spotQty + result.2.spot ∧
      (state.applyFill report).1.perpQty = state.perpQty + result.2.perp
  | .ok none | .error _ => result.2.spot = 0 ∧ result.2.perp = 0

theorem CarryVenues.unwind_perp (v : CarryVenues) (delta : ℚ) (spot : Option Leg) :
    (v.unwind delta spot).2.perp = 0 := by
  cases spot with
  | none => rfl
  | some leg =>
    simp only [unwind]
    split
    · split <;> rfl
    · rfl

theorem CarryVenues.faithful_iff {v : CarryVenues} {state : CarryPositionState}
    {plan : RebalancePlan} {spotPx perpPx : ℚ} :
    Faithful state (v.execute plan spotPx perpPx) ↔
      plan.isNoop = true ∨ v.Books state plan spotPx perpPx := by
  simp only [execute, Books]
  split
  · next hnoop => exact iff_of_true ⟨rfl, rfl⟩ (.inl hnoop)
  next htrade =>
  rw [or_iff_right htrade]
  cases v.placeSpot (v.spotDelta plan) spotPx with
  | error e => exact iff_of_true ⟨rfl, rfl⟩ trivial
  | ok spot =>
    cases v.placePerp (v.perpDelta plan) perpPx with
    | error e => exact (and_iff_left (v.unwind_perp _ _)).trans unwind_spot_eq_zero_iff
    | ok perp => exact and_congr booked_iff booked_iff

theorem CarryExecutor.faithful_iff {executor : CarryExecutor} {state : CarryPositionState}
    {plan : RebalancePlan} {spotPx perpPx : ℚ} :
    Faithful state (executor.execute plan spotPx perpPx) ↔
      executor.Books state plan spotPx perpPx := by
  cases executor with
  | live venues => exact CarryVenues.faithful_iff
  | paper takerBps slippageBps =>
    simp only [CarryExecutor.execute, Books, paperExecute]
    split
    · next hnoop => exact iff_of_true ⟨rfl, rfl⟩ (.inl hnoop)
    · next htrade =>
      rw [or_iff_right htrade]
      exact and_congr booked_iff booked_iff

namespace CarryBooks

variable {b : CarryBooks} {c : CarryCycle}

/-- A cycle keeps file and venues together if and only if it books what it trades. -/
theorem Reconciled.step_iff (h : b.Reconciled) : (b.step c).Reconciled ↔ c.Books b.file := by
  obtain ⟨hspot, hperp⟩ := h
  cases hplanned : c.planned b.file with
  | error e =>
    refine iff_of_true ?_ fun runner snap plan hok => ?_
    · simp only [Reconciled, CarryBooks.step, CarryCycle.run_of_not_planned hplanned]
      exact ⟨by rw [hspot, add_zero], by rw [hperp, add_zero]⟩
    · rw [hplanned] at hok
      cases hok
  | ok planned =>
    obtain ⟨runner, snap, plan⟩ := planned
    obtain ⟨⟨baseline, hrunner⟩, -, -⟩ := CarryCycle.planned_ok hplanned
    have hstate := CarryCycle.runner_state hrunner
    obtain ⟨baseline, hrun⟩ := CarryCycle.run_of_planned hplanned
    have hbooks : c.Books b.file ↔
        c.executor.Books (persisted b.file) plan snap.spotPx snap.perpMarkPx := by
      refine ⟨fun hall => hall runner snap plan hplanned, fun hone r s p hok => ?_⟩
      rw [hplanned] at hok
      cases hok
      exact hone
    rw [hbooks, ← CarryExecutor.faithful_iff]
    simp only [Reconciled, CarryBooks.step, hrun, Faithful, ← hspot, ← hperp]
    cases (c.executor.execute plan snap.spotPx snap.perpMarkPx).1 with
    | error e => exact and_congr left_eq_add left_eq_add
    | ok report =>
      show ((runner.book report).accrue snap).state.spotQty = _ ∧
        ((runner.book report).accrue snap).state.perpQty = _ ↔ _
      rw [CarryRunner.accrue_spotQty, CarryRunner.accrue_perpQty]
      cases report with
      | none =>
        rw [CarryRunner.book, hstate]
        exact and_congr left_eq_add left_eq_add
      | some report =>
        rw [CarryRunner.book, hstate]

/-- After every cycle of a history, dry or live, the file has the quantities really traded so far if
and only if every cycle of it books what it trades. -/
theorem along_reconciled_iff (cycles : List CarryCycle) :
    Run.Along step (fun b c => (b.step c).Reconciled) {} cycles ↔
      Run.Along step (fun b c => c.Books b.file) {} cycles :=
  Run.along_iff (I := Reconciled) (D := fun _ _ => True)
    (fun _ _ h _ hbooks => h.step_iff.mpr hbooks) (fun _ _ h _ => h.step_iff) ⟨rfl, rfl⟩
    Run.along_true

/-- A dry run on a fresh file opens a position that no venue has. -/
theorem not_along_reconciled : ¬ ∀ cycles : List CarryCycle,
    Run.Along step (fun b c => (b.step c).Reconciled) {} cycles := by
  intro h
  have hrun := h [CarryCycle.quiet true 0]
  revert hrun
  decide +kernel

end CarryBooks

end TradingPlatform
