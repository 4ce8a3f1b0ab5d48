import TradingPlatform.Carry.Runner
import TradingPlatform.Lib.Run

/-!
# The equity of the pair

Fills and funding move money between cash, the entry prices and the accrued funding, and create
none: at any prices the equity is the initial cash with the result of every fill against those
prices, the funding received and the fees taken off.
-/

namespace TradingPlatform

/-- What happens to a position and its cash. -/
inductive CarryOp
  | fill (report : ExecReport)
  | funding (rate perpPx : ℚ)

/-- The fills among the operations. -/
def fills : List CarryOp → List ExecReport
  | [] => []
  | .fill report :: ops => report :: fills ops
  | .funding _ _ :: ops => fills ops

namespace CarryRunner

/-- The runner after an operation: the cash flow of a fill is added to the cash. -/
def take (r : CarryRunner) : CarryOp → CarryRunner
  | .fill report => r.book (some report)
  | .funding rate perpPx => { r with state := r.state.accrueFunding rate perpPx }

/-- A fill sells no spot and covers no short that is not held. -/
def Covered (r : CarryRunner) : CarryOp → Prop
  | .fill report =>
    0 ≤ r.state.spotQty + report.spotFillQty ∧ 0 ≤ r.state.perpQty + report.perpFillQty
  | .funding _ _ => True

instance (r : CarryRunner) : ∀ op, Decidable (r.Covered op)
  | .fill _ => inferInstanceAs (Decidable (_ ∧ _))
  | .funding _ _ => inferInstanceAs (Decidable True)

/-- The funding the short leg has received over a sequence of operations. -/
def fundingReceived : CarryRunner → List CarryOp → ℚ
  | _, [] => 0
  | r, .fill report :: ops => fundingReceived (r.take (.fill report)) ops
  | r, .funding rate perpPx :: ops =>
    rate * r.state.perpQty * perpPx + fundingReceived (r.take (.funding rate perpPx)) ops

/-- A runner that holds nothing. -/
def flat (cash : ℚ) : CarryRunner := { state := {}, cash }

/-! ## One operation -/

variable {r : CarryRunner} {report : ExecReport} {rate spotPx perpPx px : ℚ}

/-- The short leg after a fill, valued at its entry price. -/
theorem entryValue_applyFill (hperp : 0 ≤ r.state.perpQty)
    (hcover : 0 ≤ r.state.perpQty + report.perpFillQty) :
    (r.state.applyFill report).1.perpQty * (r.state.applyFill report).1.perpEntryPx =
      r.state.perpQty * r.state.perpEntryPx + report.perpFillQty *
        (if 0 < report.perpFillQty then report.perpFillPx else r.state.perpEntryPx) := by
  rw [CarryPositionState.applyFill_perpQty, max_eq_right hcover]
  change _ * CarryPositionState.entryAfter _ _ _ _ = _
  unfold CarryPositionState.entryAfter
  rcases hcover.eq_or_lt' with hzero | hpos
  · -- the leg is closed: its entry price is forgotten, its value is zero
    have hfill : report.perpFillQty = -r.state.perpQty := by linarith
    have hnot : ¬ 0 < report.perpFillQty := by linarith
    rw [if_neg hnot, hfill]
    ring
  · rw [if_pos hpos, if_pos hpos]
    split
    · rw [mul_div_cancel₀ _ hpos.ne']
    · ring

/-- The short that a fill closes is what it covers. -/
theorem closed_eq (hcover : 0 ≤ r.state.perpQty + report.perpFillQty) :
    (if report.perpFillQty < 0 ∧ 0 < r.state.perpQty then
      min (-report.perpFillQty) r.state.perpQty else 0) =
      if 0 < report.perpFillQty then 0 else -report.perpFillQty := by
  rcases lt_trichotomy report.perpFillQty 0 with hneg | hzero | hpos
  · have hheld : 0 < r.state.perpQty := by linarith
    rw [if_pos ⟨hneg, hheld⟩, if_neg hneg.not_gt, min_eq_left (by linarith)]
  · simp [hzero]
  · rw [if_neg fun h => h.1.not_gt hpos, if_pos hpos]

theorem cash_take_fill (hcover : r.Covered (.fill report)) :
    (r.take (.fill report)).cash = r.cash - report.spotFillQty * report.spotFillPx - report.fee +
      (if 0 < report.perpFillQty then 0 else -report.perpFillQty) *
        (r.state.perpEntryPx - report.perpFillPx) := by
  rw [← closed_eq hcover.2]
  simp only [take, book, CarryPositionState.applyFill]
  ring

/-- A fill adds its own result against the prices, and its fee comes off. -/
theorem equity_take_fill (hperp : 0 ≤ r.state.perpQty) (hcover : r.Covered (.fill report)) :
    (r.take (.fill report)).equity spotPx perpPx = r.equity spotPx perpPx +
      report.spotFillQty * (spotPx - report.spotFillPx) +
      report.perpFillQty * (report.perpFillPx - perpPx) - report.fee := by
  have hvalue := entryValue_applyFill hperp hcover.2
  have hspot : (r.take (.fill report)).state.spotQty = r.state.spotQty + report.spotFillQty :=
    max_eq_right hcover.1
  have hshort : (r.take (.fill report)).state.perpQty = r.state.perpQty + report.perpFillQty :=
    max_eq_right hcover.2
  have hfunding : (r.take (.fill report)).state.accruedFunding = r.state.accruedFunding := rfl
  change (r.take (.fill report)).state.perpQty * (r.take (.fill report)).state.perpEntryPx = _
    at hvalue
  rw [hshort] at hvalue
  simp only [equity, CarryManagerConfig.equity, mul_sub, hvalue, hspot, hshort, hfunding,
    cash_take_fill hcover]
  split <;> ring

theorem equity_take_funding :
    (r.take (.funding rate perpPx)).equity spotPx px =
      r.equity spotPx px + rate * r.state.perpQty * perpPx := by
  simp only [take, equity, CarryManagerConfig.equity, CarryPositionState.accrueFunding]
  ring

theorem perpQty_take {op : CarryOp} (hperp : 0 ≤ r.state.perpQty) :
    0 ≤ (r.take op).state.perpQty := by
  cases op with
  | fill report => exact le_max_left _ _
  | funding rate perpPx => exact hperp

/-! ## Any number of operations -/

/-- What operations add to the equity does not depend on the order in which they come or on the
entry prices they leave. -/
theorem equity_exec {ops : List CarryOp} (hperp : 0 ≤ r.state.perpQty)
    (hcover : Run.Along take Covered r ops) :
    (Run.exec take r ops).equity spotPx perpPx = r.equity spotPx perpPx +
      ((fills ops).map fun f => f.spotFillQty * (spotPx - f.spotFillPx)).sum +
      ((fills ops).map fun f => f.perpFillQty * (f.perpFillPx - perpPx)).sum +
      fundingReceived r ops - ((fills ops).map (·.fee)).sum := by
  induction ops generalizing r with
  | nil => simp [fills, fundingReceived]
  | cons op ops ih =>
    obtain ⟨hfirst, hrest⟩ := Run.along_cons.mp hcover
    rw [Run.exec_cons, ih (perpQty_take hperp) hrest]
    cases op with
    | fill report =>
      rw [equity_take_fill hperp hfirst]
      simp only [fills, fundingReceived, List.map_cons, List.sum_cons]
      ring
    | funding rate px =>
      rw [equity_take_funding]
      simp only [fills, fundingReceived]
      ring

/-- The equity of a runner that started flat: its cash, the result of every fill, the funding and
the fees. -/
theorem equity_of_flat (cash : ℚ) (ops : List CarryOp)
    (hcover : Run.Along take Covered (flat cash) ops) (spotPx perpPx : ℚ) :
    CarryManagerConfig.equity (Run.exec take (flat cash) ops).state
        (Run.exec take (flat cash) ops).cash spotPx perpPx =
      cash + ((fills ops).map fun f => f.spotFillQty * (spotPx - f.spotFillPx)).sum +
        ((fills ops).map fun f => f.perpFillQty * (f.perpFillPx - perpPx)).sum +
        fundingReceived (flat cash) ops - ((fills ops).map (·.fee)).sum := by
  have hflat : (flat cash).equity spotPx perpPx = cash := by
    simp [equity, CarryManagerConfig.equity, flat]
  exact (equity_exec le_rfl hcover).trans (by rw [hflat])

/-- A pair is opened, earns funding, is partly closed at other prices and then closed. -/
def roundTrip : List CarryOp :=
  [.fill ⟨2, 100, 2, 101, 1, .opens⟩, .funding (1 / 100) 102,
    .fill ⟨-1, 110, -1, 112, 1, .resize⟩, .fill ⟨-1, 90, -1, 91, 1, .close⟩]

theorem equity_of_flat_roundTrip :
    CarryManagerConfig.equity (Run.exec take (flat 1000) roundTrip).state
        (Run.exec take (flat 1000) roundTrip).cash 95 96 =
      1000 + ((fills roundTrip).map fun f => f.spotFillQty * (95 - f.spotFillPx)).sum +
        ((fills roundTrip).map fun f => f.perpFillQty * (f.perpFillPx - 96)).sum +
        fundingReceived (flat 1000) roundTrip - ((fills roundTrip).map (·.fee)).sum :=
  equity_of_flat 1000 roundTrip (by decide +kernel) 95 96

end CarryRunner

end TradingPlatform
