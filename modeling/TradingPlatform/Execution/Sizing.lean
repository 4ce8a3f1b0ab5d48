import TradingPlatform.Execution.Engine
import TradingPlatform.Lib.FloatingPoint

/-!
# The quantity of an order and the risk gate

`position_size` caps the quantity of an order by the cash and by the exposure that is left, and
`ExecutionRiskGate` makes the same two checks of the order by other formulas. Each formula is
rounded at every operation, and the sizer rounds the capped quantity to eight decimals on top. So
both functions are here over an arithmetic, operation for operation, on any numbers as their input:
over exact results they are the ones of the engine, and over `binary64` they decide whether a sized
order passes the gate.
-/

namespace TradingPlatform

open FloatValue

namespace SimulatedExecutionEngine

variable (A : Arithmetic) (engine : SimulatedExecutionEngine) (snapshot : StateSnapshot)
  (entry stopLoss sizeMultiplier : ℚ)

/-- `base_qty` of `position_size`, for a positive entry. -/
def baseQuantityIn : Option FloatValue :=
  let equity := finite snapshot.portfolio.equity
  if 0 < engine.config.exposurePctPerTrade then
    some (A.div (A.div (A.mul equity (finite engine.config.exposurePctPerTrade)) (finite 100))
      (finite entry))
  else
    let riskAmount :=
      A.div (A.mul equity (finite engine.config.riskPctPerTrade)) (finite 100)
    let riskPerUnit := (A.sub (finite entry) (finite stopLoss)).abs
    if riskPerUnit ≤ 0 then none else some (A.div riskAmount riskPerUnit)

/-- `quantity` of `position_size`, for a positive entry: the wanted quantity under the two caps. -/
def cappedQuantityIn : Option FloatValue :=
  (engine.baseQuantityIn A snapshot entry stopLoss).map fun baseQty =>
    let cash := snapshot.portfolio.cash
    let maxCashQty := if 0 < cash then A.div (finite cash) (finite entry) else 0
    let remainingExposure := FloatValue.max 0
      (A.sub (finite snapshot.risk.limits.maxExposurePct) (finite snapshot.risk.openExposurePct))
    let maxExposureQty :=
      A.div (A.mul (A.div remainingExposure (finite 100)) (finite snapshot.portfolio.equity))
        (finite entry)
    ((A.mul baseQty (finite (max sizeMultiplier 0))).min maxCashQty).min maxExposureQty

/-- `position_size` -/
def positionSizeIn : FloatValue :=
  if entry ≤ 0 then 0
  else match engine.cappedQuantityIn A snapshot entry stopLoss sizeMultiplier with
    | none => 0
    | some quantity => if 0 < quantity then A.roundTo 8 quantity else 0

end SimulatedExecutionEngine

/-! ## The gate -/

/-- `exposure_pct` of `ExecutionRiskGate.check`, for an equity other than zero. -/
def StateSnapshot.exposureIn (A : Arithmetic) (snapshot : StateSnapshot) (notional : FloatValue) :
    FloatValue :=
  let equity := finite snapshot.portfolio.equity
  A.mul (A.div (A.add (A.div (A.mul (finite snapshot.risk.openExposurePct) equity) (finite 100))
    notional) equity) (finite 100)

/-- `ExecutionRiskGate.check` of the quantity and the limit price of an intent. -/
def ExecutionRiskGate.checkIn (A : Arithmetic) (quantity : FloatValue) (limitPrice : Option ℚ)
    (snapshot : StateSnapshot) : Except PyError ExecutionRiskResult :=
  let portfolio := snapshot.portfolio
  let limits := snapshot.risk.limits
  if limits.maxOpenPositions ≤ portfolio.openPositions.length then
    .ok ⟨false, some "max_open_positions"⟩
  else match limitPrice with
    | none => .ok ⟨false, some "missing_entry_price"⟩
    | some limitPrice =>
      let notional := A.mul quantity (finite limitPrice)
      if portfolio.equity = 0 then .error .zeroDivisionError
      else if finite limits.maxExposurePct < snapshot.exposureIn A notional then
        .ok ⟨false, some "max_exposure"⟩
      else if finite portfolio.cash < notional then .ok ⟨false, some "insufficient_cash"⟩
      else .ok ⟨true, none⟩

/-! ## Over exact results -/

section
variable {engine : SimulatedExecutionEngine} {snapshot : StateSnapshot}
  {entry stopLoss sizeMultiplier : ℚ}

theorem SimulatedExecutionEngine.positionSizeIn_exact :
    engine.positionSizeIn .exact snapshot entry stopLoss sizeMultiplier =
      finite (engine.positionSize snapshot entry stopLoss sizeMultiplier) := by
  have hbase : engine.baseQuantityIn .exact snapshot entry stopLoss =
      (engine.baseQuantity snapshot.portfolio.equity entry stopLoss).map finite := by
    unfold baseQuantityIn baseQuantity
    simp [FloatValue.abs, apply_ite (Option.map finite)]
  unfold positionSizeIn positionSize cappedQuantityIn
  rw [hbase]
  by_cases hentry : entry ≤ 0
  · rw [if_pos hentry, if_pos hentry, finite_zero]
  rw [if_neg hentry, if_neg hentry]
  cases engine.baseQuantity snapshot.portfolio.equity entry stopLoss with
  | none => rfl
  | some baseQty =>
    simp only [Option.map_some, ← finite_zero, Arithmetic.exact_sub, Arithmetic.exact_mul,
      Arithmetic.exact_div, ← apply_ite finite, max_finite, min_finite, finite_lt_finite,
      Arithmetic.exact_roundTo]

theorem ExecutionRiskGate.checkIn_exact {intent : OrderIntent} :
    checkIn .exact (finite intent.quantity) intent.limitPrice snapshot = check intent snapshot := by
  unfold checkIn check
  cases intent.limitPrice <;> simp [StateSnapshot.exposureIn]

end

/-! ## The limits at the gate -/

/-- A quantity at `entry` exceeds the exposure or the cash of the snapshot. -/
def StateSnapshot.Exceeds (A : Arithmetic) (snapshot : StateSnapshot) (entry : ℚ)
    (quantity : FloatValue) : Prop :=
  let notional := A.mul quantity (finite entry)
  finite snapshot.risk.limits.maxExposurePct < snapshot.exposureIn A notional ∨
    finite snapshot.portfolio.cash < notional

/-- No whole count of units of the eighth decimal that exceeds a limit at `entry` is the nearest to
`x` or below the nearest, ties to even. -/
def StateSnapshot.RoundsWithin (A : Arithmetic) (snapshot : StateSnapshot) (entry x : ℚ) : Prop :=
  ∀ units : ℤ, 0 < units → snapshot.Exceeds A entry (A.round (units / 10 ^ 8)) →
    x * 10 ^ 8 < units - 1 / 2 ∨ x * 10 ^ 8 = units - 1 / 2 ∧ units % 2 = 1

section
variable {A : Arithmetic} {snapshot : StateSnapshot} {entry x : ℚ}
  {quantity quantity' : FloatValue}

/-- An exposure over the limit grows with the notional. An open exposure that overflows to one of
the infinities is over the limit with any notional or with none. -/
theorem StateSnapshot.exposureIn_le {notional notional' : FloatValue}
    (hequity : 0 < snapshot.portfolio.equity) (hnonneg : 0 ≤ notional) (hle : notional ≤ notional')
    (h : finite snapshot.risk.limits.maxExposurePct < snapshot.exposureIn A notional) :
    snapshot.exposureIn A notional ≤ snapshot.exposureIn A notional' := by
  unfold exposureIn at h ⊢
  dsimp only at h ⊢
  generalize A.div (A.mul (finite snapshot.risk.openExposurePct)
    (finite snapshot.portfolio.equity)) (finite 100) = openNotional at h ⊢
  have hsum : A.add openNotional notional ≤ A.add openNotional notional' := by
    rcases openNotional with x | negative | _
    · exact A.add_le_add_left hle (A.add_finite_ne_nan (ne_nan_of_le hnonneg).2)
        (A.add_finite_ne_nan (ne_nan_of_le hle).2)
    · rcases A.add_infinite_eq (s := negative) (a := notional) with hadd | hadd
      · rw [hadd, A.div_infinite hequity, A.mul_infinite (by norm_num)] at h
        cases finite_lt_infinite.mp h
        rw [A.add_infinite_of_nonneg hnonneg,
          A.add_infinite_of_nonneg (FloatValue.le_trans hnonneg hle)]
        exact le_infinite FloatValue.noConfusion
      · rw [hadd] at h
        exact absurd h not_lt_nan
    · exact absurd h not_lt_nan
  exact A.mul_le_mul_right (by norm_num) (A.div_le_div_right hequity hsum)

/-- What a quantity exceeds, a greater one exceeds. -/
theorem StateSnapshot.Exceeds.mono (hequity : 0 < snapshot.portfolio.equity) (hentry : 0 < entry)
    (hnonneg : 0 ≤ quantity) (hle : quantity ≤ quantity') (h : snapshot.Exceeds A entry quantity) :
    snapshot.Exceeds A entry quantity' := by
  have hnotional := A.mul_le_mul_right hentry hle
  rcases h with h | h
  · have hnotional_nonneg := A.zero_mul ▸ A.mul_le_mul_right hentry hnonneg
    exact .inl (FloatValue.lt_of_lt_of_le h (exposureIn_le hequity hnotional_nonneg hnotional h))
  · exact .inr (FloatValue.lt_of_lt_of_le h hnotional)

theorem StateSnapshot.exceeds_infinite (hentry : 0 < entry) :
    snapshot.Exceeds A entry (.infinite false) :=
  .inr (by rw [A.mul_infinite hentry]; exact finite_lt_infinite.mpr rfl)

/-- The rounded quantity exceeds no limit exactly when no count of units up to the rounded one does. -/
theorem StateSnapshot.not_exceeds_roundTo_iff (hequity : 0 < snapshot.portfolio.equity)
    (hentry : 0 < entry) (hpos : 0 < A.roundTo 8 (finite x)) :
    ¬ snapshot.Exceeds A entry (A.roundTo 8 (finite x)) ↔ snapshot.RoundsWithin A entry x := by
  simp only [RoundsWithin, ← roundHalfEven_lt_iff]
  constructor
  · intro h units hunits hexceeds
    by_contra hle
    have hunits_le : (units : ℚ) ≤ roundHalfEven (x * 10 ^ 8) := by exact_mod_cast not_lt.mp hle
    have hround : A.round (units / 10 ^ 8) ≤ A.roundTo 8 (finite x) :=
      A.round_mono (div_le_div_of_nonneg_right hunits_le (by norm_num))
    exact h (hexceeds.mono hequity hentry (A.round_nonneg (by positivity)) hround)
  · intro h hexceeds
    have hunits : 0 < roundHalfEven (x * 10 ^ 8) := by
      have hdigits : 0 < roundDigits x 8 := A.pos_of_round_pos hpos
      exact_mod_cast (div_pos_iff_of_pos_right (by norm_num)).mp hdigits
    exact lt_irrefl _ (h _ hunits hexceeds)

/-- The gate only fails to return on an account without equity. -/
theorem ExecutionRiskGate.checkIn_returns (h : snapshot.portfolio.equity ≠ 0)
    (limitPrice : Option ℚ) : ∃ r, checkIn A quantity limitPrice snapshot = .ok r := by
  unfold checkIn
  dsimp only
  split
  · exact ⟨_, rfl⟩
  split
  · exact ⟨_, rfl⟩
  split
  · exact ⟨_, rfl⟩
  split <;> exact ⟨_, rfl⟩

/-- With a position to spare, the gate passes what does not exceed a limit. -/
theorem ExecutionRiskGate.checkIn_passes_iff
    (hpositions : (snapshot.portfolio.openPositions.length : ℤ) <
      snapshot.risk.limits.maxOpenPositions)
    (hequity : 0 < snapshot.portfolio.equity) :
    (∃ r, checkIn A quantity (some entry) snapshot = .ok r ∧ r.passed = true) ↔
      ¬ snapshot.Exceeds A entry quantity := by
  unfold checkIn StateSnapshot.Exceeds
  simp only [if_neg (not_le.mpr hpositions), if_neg hequity.ne', not_or]
  split_ifs with hexposure hcash
  · simp [hexposure]
  · simp [hcash]
  · simp [hexposure, hcash]

end

/-! ## A sized order at the gate -/

namespace SimulatedExecutionEngine

variable {A : Arithmetic} {engine : SimulatedExecutionEngine} {snapshot : StateSnapshot}
  {entry stopLoss sizeMultiplier : ℚ} {quantity : FloatValue}

/-- A positive quantity is the capped one, rounded. -/
theorem positionSizeIn_pos (hentry : 0 < entry)
    (h : 0 < engine.positionSizeIn A snapshot entry stopLoss sizeMultiplier) :
    ∃ quantity, engine.cappedQuantityIn A snapshot entry stopLoss sizeMultiplier = some quantity ∧
      0 < quantity ∧
      engine.positionSizeIn A snapshot entry stopLoss sizeMultiplier = A.roundTo 8 quantity := by
  unfold positionSizeIn at h ⊢
  rw [if_neg (not_le.mpr hentry)] at h ⊢
  cases hcapped : engine.cappedQuantityIn A snapshot entry stopLoss sizeMultiplier with
  | none =>
    rw [hcapped] at h
    exact absurd (zero_lt_finite.mp h) (lt_irrefl 0)
  | some quantity =>
    rw [hcapped] at h
    dsimp only at h ⊢
    split_ifs at h ⊢ with hquantity
    · exact ⟨quantity, rfl, hquantity, rfl⟩
    · exact absurd (zero_lt_finite.mp h) (lt_irrefl 0)

theorem equity_pos_of_capped (hentry : 0 < entry)
    (h : engine.cappedQuantityIn A snapshot entry stopLoss sizeMultiplier = some quantity)
    (hquantity : 0 < quantity) : 0 < snapshot.portfolio.equity := by
  unfold cappedQuantityIn baseQuantityIn at h
  obtain ⟨baseQty, hbase, rfl⟩ := Option.map_eq_some_iff.mp h
  have hwanted := pos_of_min_pos (pos_of_min_pos hquantity)
  have hbaseQty : 0 < baseQty := A.pos_of_mul_pos (le_max_right _ _) hwanted
  have hhundred : ¬ finite 100 ≤ 0 := by decide
  dsimp only at hbase
  split_ifs at hbase with hexposure hrisk
  · cases hbase
    have hamount := A.pos_of_div_pos (finite_le_zero.not.mpr (not_le.mpr hentry)) hbaseQty
    exact zero_lt_finite.mp (A.pos_of_mul_pos hexposure.le (A.pos_of_div_pos hhundred hamount))
  · cases hbase
    have hamount := A.pos_of_div_pos hrisk hbaseQty
    exact zero_lt_finite.mp (A.pos_of_mul_pos engine.config.riskPctPerTrade_mem.1.le
      (A.pos_of_div_pos hhundred hamount))

/-- Only a positive equity gets a positive quantity. -/
theorem equity_pos_of_positionSizeIn
    (h : 0 < engine.positionSizeIn A snapshot entry stopLoss sizeMultiplier) :
    0 < snapshot.portfolio.equity := by
  rcases le_or_gt entry 0 with hentry | hentry
  · rw [positionSizeIn, if_pos hentry] at h
    exact absurd (zero_lt_finite.mp h) (lt_irrefl 0)
  · obtain ⟨quantity, hcapped, hquantity, -⟩ := positionSizeIn_pos hentry h
    exact equity_pos_of_capped hentry hcapped hquantity

end SimulatedExecutionEngine

theorem fullExposure_mem : (0 : ℚ) ≤ 100 ∧ (100 : ℚ) ≤ 100 := by norm_num

/-- An engine that aims at the whole equity. -/
def fullExposure : SimulatedExecutionEngine where
  fillModel := { modelId := "zero" }
  config := { ValidationExecutionConfig.default with
    exposurePctPerTrade := 100, exposurePctPerTrade_mem := fullExposure_mem }

/-- A fresh portfolio that may be exposed up to a percentage. -/
def unexposed (capital maxExposurePct : ℚ) : StateSnapshot :=
  let s := InMemoryStateStore.init capital
  { snapshotId := 0
    portfolio := s.portfolio
    risk := { s.risk with limits := { s.risk.limits with maxExposurePct := maxExposurePct } }
    version := 1, correlationId := none }

end TradingPlatform
