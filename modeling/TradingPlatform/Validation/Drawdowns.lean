import TradingPlatform.Lib.Drawdown
import TradingPlatform.Validation.Metrics

/-!
# The drawdown of a curve

Three loops of the metrics find the greatest fall of an equity curve: the one of `_max_drawdown_pct`
and those inside `compute_outcome_metrics` and `compute_monthly_breakdown`.
-/

namespace TradingPlatform

/-- The loop of `compute_outcome_metrics`: the peak, the greatest fall as a sum and in percent. -/
def outcomeDrawdown (initialCapital : ℚ) (equityCurve : List ℚ) : ℚ × ℚ × ℚ :=
  equityCurve.foldl (fun (peak, maxDd, maxDdPct) value =>
    let peak := max peak value
    let dd := peak - value
    (peak, max maxDd dd, if 0 < peak then max maxDdPct (dd / peak * 100) else maxDdPct))
    (initialCapital, 0, 0)

/-- The loop of `compute_monthly_breakdown` over the curve of a month. -/
def monthDrawdown (monthStartEquity : ℚ) (monthEquityCurve : List ℚ) : ℚ :=
  (monthEquityCurve.foldl (fun (peak, maxDdPct) value =>
    let peak := max peak value
    if 0 < peak then
      let ddPct := (peak - value) / peak * 100
      (peak, max maxDdPct ddPct)
    else (peak, maxDdPct)) (monthStartEquity, 0)).2

variable {a : ℚ} {rest : List ℚ}

theorem maxDrawdownPct_eq (curve : List ℚ) :
    maxDrawdownPct curve = (curve.foldl Drawdown.step (curve.headD 0, 0)).2 := rfl

theorem monthDrawdown_eq (start : ℚ) (curve : List ℚ) :
    monthDrawdown start curve = (curve.foldl Drawdown.step (start, 0)).2 := by
  unfold monthDrawdown
  congr 2
  funext s value
  unfold Drawdown.step
  dsimp only
  split
  · rfl
  · rfl

/-- The loop of `compute_outcome_metrics` runs the other two loops at once. -/
theorem outcomeDrawdown_eq (initialCapital : ℚ) (curve : List ℚ) :
    (outcomeDrawdown initialCapital curve).2.1 = maxDrawdown initialCapital curve ∧
      (outcomeDrawdown initialCapital curve).2.2 =
        (curve.foldl Drawdown.step (initialCapital, 0)).2 := by
  have hloops : ∀ (curve : List ℚ) (peak maxDd maxDdPct : ℚ),
      curve.foldl (fun (s : ℚ × ℚ × ℚ) value =>
        (max s.1 value, max s.2.1 (max s.1 value - value),
          if 0 < max s.1 value then
            max s.2.2 ((max s.1 value - value) / max s.1 value * 100) else s.2.2))
        (peak, maxDd, maxDdPct) =
      ((curve.foldl Drawdown.step (peak, maxDdPct)).1,
        (curve.foldl (fun (s : ℚ × ℚ) value =>
          (max s.1 value, max s.2 (max s.1 value - value))) (peak, maxDd)).2,
        (curve.foldl Drawdown.step (peak, maxDdPct)).2) := by
    intro curve
    induction curve with
    | nil => exact fun _ _ _ => rfl
    | cons value curve ih =>
      intro peak maxDd maxDdPct
      simp only [List.foldl_cons]
      exact ih _ _ _
  have hrun := hloops curve initialCapital 0 0
  change outcomeDrawdown initialCapital curve = _ at hrun
  rw [hrun]
  exact ⟨rfl, rfl⟩

/-- On a curve of values that are not negative the loops find the greatest fall in percent of an
earlier positive value, and zero where no value is positive. -/
theorem maxDrawdownPct_greatest (hvalues : ∀ v ∈ a :: rest, 0 ≤ v) :
    ((Drawdown.falls (a :: rest)).Nonempty →
      IsGreatest (Drawdown.falls (a :: rest)) (maxDrawdownPct (a :: rest))) ∧
    (Drawdown.falls (a :: rest) = ∅ → maxDrawdownPct (a :: rest) = 0) ∧
    (outcomeDrawdown a (a :: rest)).2.2 = maxDrawdownPct (a :: rest) ∧
    monthDrawdown a (a :: rest) = maxDrawdownPct (a :: rest) := by
  obtain ⟨hsome, hnone⟩ := (Drawdown.tracks_foldl hvalues).greatest
  exact ⟨hsome, hnone, (outcomeDrawdown_eq a (a :: rest)).2, monthDrawdown_eq a (a :: rest)⟩

theorem falls_dip : (Drawdown.falls [(100 : ℚ), 120, 60]).Nonempty :=
  ⟨_, 0, 0, le_rfl, 100, rfl, 100, rfl, by norm_num, rfl⟩

theorem maxDrawdownPct_greatest_dip : maxDrawdownPct [100, 120, 60] = 50 ∧
    IsGreatest (Drawdown.falls [100, 120, 60]) (maxDrawdownPct [100, 120, 60]) :=
  ⟨by decide +kernel, (maxDrawdownPct_greatest (by simp)).1 falls_dip⟩

end TradingPlatform
