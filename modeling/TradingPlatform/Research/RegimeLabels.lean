import TradingPlatform.Features.ContextDeriver
import TradingPlatform.Validation.Regimes

/-!
# Regime labels in research and in a run

`regime_label` of the research pipeline labels the bars of a frame the way `ContextDeriver` labels
the bar of a cycle, with the same thresholds. It compares the percentage of the true range as it is,
and the deriver a rounded one, so next to a threshold the two labels of a bar differ.
-/

namespace TradingPlatform

/-! ## The labels of a frame -/

namespace RegimeLabel

def volatilityAtrLow : ℚ := 3 / 10

def volatilityAtrHigh : ℚ := 1

/-- `np.select` on the averages of a bar. -/
def trend (emaFast emaSlow : ℚ) : String :=
  if emaSlow < emaFast then "UP" else if emaFast < emaSlow then "DOWN" else "SIDEWAYS"

/-- `np.select` on the percentage of a bar; a missing one is in neither class. -/
def volatility : Option ℚ → String
  | none => "NORMAL"
  | some atrPct =>
    if atrPct < volatilityAtrLow then "LOW"
    else if volatilityAtrHigh < atrPct then "HIGH"
    else "NORMAL"

/-- The label of a bar. -/
def label (emaFast emaSlow : ℚ) (atrPct : Option ℚ) : String :=
  trend emaFast emaSlow ++ "_" ++ volatility atrPct

end RegimeLabel

/-- `regime_label`, from the columns of the two averages and of the percentage. -/
def regimeLabel (emaFast emaSlow : List ℚ) (atrPct : List (Option ℚ)) : List String :=
  (emaFast.zip (emaSlow.zip atrPct)).map fun row => RegimeLabel.label row.1 row.2.1 row.2.2

/-! ## One bar, labelled twice -/

/-- A bar with the indicators of the default configuration. -/
structure RegimeBar where
  symbol : String
  timeframe : String
  close : ℚ
  indicators : List (String × ℚ)
  eventTime : ℤ
  emaFast : ℚ
  emaSlow : ℚ
  atr : ℚ
  fast_eq : indicators.lookup ContextConfig.default.fast = some emaFast
  slow_eq : indicators.lookup ContextConfig.default.slow = some emaSlow
  atr_eq : indicators.lookup ContextConfig.default.atr = some atr
  close_ne : close ≠ 0

namespace RegimeBar

/-- The percentage of the true range. -/
def atrPct (bar : RegimeBar) : ℚ := bar.atr / bar.close * 100

/-- The label of the research pipeline. -/
def researchLabel (bar : RegimeBar) : String :=
  RegimeLabel.label bar.emaFast bar.emaSlow (some bar.atrPct)

/-- The context of a run. -/
def context (bar : RegimeBar) : Except PyError MarketContext :=
  ContextConfig.default.derive bar.symbol bar.timeframe bar.close bar.indicators bar.eventTime

/-- The labels the research pipeline gives to a frame. -/
def researchLabels (bars : List RegimeBar) : List String :=
  regimeLabel (bars.map emaFast) (bars.map emaSlow) (bars.map fun bar => some bar.atrPct)

/-- The label of the context a run derives for a bar of the frame is that of the research
pipeline. -/
def LabelsAgree (bars : List RegimeBar) (i : Fin bars.length) : Prop :=
  ∃ context, (bars.get i).context = .ok context ∧
    (researchLabels bars)[i]? = some (classifyRegime context)

/-- The percentage is on one side of a threshold, and rounded it is the threshold. -/
def RoundedToThreshold (bar : RegimeBar) : Prop :=
  29995 / 100000 ≤ bar.atrPct ∧ bar.atrPct < 3 / 10 ∨
    1 < bar.atrPct ∧ bar.atrPct ≤ 100005 / 100000

variable {bar : RegimeBar}

/-- The context a run derives. -/
def derived (bar : RegimeBar) : MarketContext where
  symbol := bar.symbol
  timeframe := bar.timeframe
  currentPrice := bar.close
  trend := if bar.emaSlow < bar.emaFast then .up
    else if bar.emaFast < bar.emaSlow then .down
    else .sideways
  volatility := ContextConfig.default.deriveVolatility (roundDigits bar.atrPct 4)
  atr := bar.atr
  atrPct := roundDigits bar.atrPct 4
  session := sessionOfHour (hourOf bar.eventTime)
  eventTime := bar.eventTime

theorem context_eq : bar.context = .ok bar.derived := by
  have hpct : (if bar.close ≠ 0 then bar.atr / bar.close * 100 else 0) = bar.atrPct :=
    if_pos bar.close_ne
  simp only [context, ContextConfig.derive, ContextConfig.deriveTrend,
    ContextConfig.deriveAtrMetrics, ContextConfig.indicator, bar.fast_eq, bar.slow_eq, bar.atr_eq,
    hpct, bind, Except.bind, pure, Except.pure]
  rfl

theorem trend_derived :
    bar.derived.trend.literal = RegimeLabel.trend bar.emaFast bar.emaSlow := by
  simp only [derived, RegimeLabel.trend, apply_ite Trend.literal]
  rfl

/-- A percentage is rounded below the lower threshold exactly if it is below the point halfway to
it. -/
theorem rounded_lt_low {x : ℚ} : roundDigits x 4 < 3 / 10 ↔ x < 29995 / 100000 := by
  have hint : roundDigits x 4 < 3 / 10 ↔ roundHalfEven (x * 10 ^ 4) ≤ 2999 := by
    rw [roundDigits, div_lt_iff₀ (by norm_num), ← Int.lt_add_one_iff, ← Int.cast_lt (R := ℚ)]
    norm_num
  rw [hint, roundHalfEven_le_iff]
  constructor
  · rintro (hlt | ⟨-, hodd⟩)
    · push_cast at hlt
      linarith
    · exact absurd hodd (by decide)
  · intro hlt
    left
    push_cast
    linarith

theorem high_lt_rounded {x : ℚ} : 1 < roundDigits x 4 ↔ 100005 / 100000 < x := by
  have hint : roundDigits x 4 ≤ 1 ↔ roundHalfEven (x * 10 ^ 4) ≤ 10000 := by
    rw [roundDigits, div_le_iff₀ (by norm_num), ← Int.cast_le (R := ℚ)]
    norm_num
  rw [← not_le, hint, roundHalfEven_le_iff, not_iff_comm, not_lt]
  constructor
  · intro hle
    rcases hle.lt_or_eq with hlt | heq
    · left
      push_cast
      linarith
    · exact .inr ⟨by rw [heq]; norm_num, by decide⟩
  · rintro (hlt | ⟨heq, -⟩)
    · push_cast at hlt
      linarith
    · push_cast at heq
      linarith

theorem volatility_eq_iff : RegimeLabel.volatility (some bar.atrPct) =
    bar.derived.volatility.literal ↔ ¬ bar.RoundedToThreshold := by
  have hderived : bar.derived.volatility =
      if bar.atrPct < 29995 / 100000 then .low
      else if 100005 / 100000 < bar.atrPct then .high
      else .normal := by
    refine if_congr rounded_lt_low rfl (if_congr high_lt_rounded rfl rfl)
  rw [hderived]
  unfold RoundedToThreshold RegimeLabel.volatility RegimeLabel.volatilityAtrLow
    RegimeLabel.volatilityAtrHigh
  generalize bar.atrPct = x
  dsimp only
  by_cases hlow : x < 29995 / 100000
  · have hlow' : x < 3 / 10 := by linarith
    rw [if_pos hlow', if_pos hlow]
    refine iff_of_true rfl ?_
    rintro (h | h) <;> linarith [h.1, h.2]
  rw [if_neg hlow]
  by_cases hlow' : x < 3 / 10
  · have hhigh : ¬ 100005 / 100000 < x := by linarith
    rw [if_pos hlow', if_neg hhigh]
    exact iff_of_false (by decide) (not_not.mpr (.inl ⟨not_lt.mp hlow, hlow'⟩))
  rw [if_neg hlow']
  by_cases hhigh : 100005 / 100000 < x
  · have hhigh' : 1 < x := by linarith
    rw [if_pos hhigh, if_pos hhigh']
    refine iff_of_true rfl ?_
    rintro (h | h) <;> linarith [h.1, h.2]
  rw [if_neg hhigh]
  by_cases hhigh' : 1 < x
  · rw [if_pos hhigh']
    exact iff_of_false (by decide) (not_not.mpr (.inr ⟨hhigh', not_lt.mp hhigh⟩))
  · rw [if_neg hhigh']
    refine iff_of_true rfl ?_
    rintro (h | h)
    · exact hlow' h.2
    · exact hhigh' h.1

theorem researchLabels_eq (bars : List RegimeBar) :
    researchLabels bars = bars.map researchLabel := by
  unfold researchLabels regimeLabel
  induction bars with
  | nil => rfl
  | cons bar bars ih =>
    simp only [List.map_cons, List.zip_cons_cons, ih]
    rfl

theorem researchLabel_eq_iff : bar.researchLabel = classifyRegime bar.derived ↔
    ¬ bar.RoundedToThreshold := by
  rw [← volatility_eq_iff, researchLabel, RegimeLabel.label, classifyRegime, trend_derived]
  exact String.append_right_inj _

/-- The two labels of a bar agree exactly if its percentage is not rounded to a threshold. -/
theorem labelsAgree_iff (bars : List RegimeBar) (i : Fin bars.length) :
    LabelsAgree bars i ↔ ¬ (bars.get i).RoundedToThreshold := by
  have hlabel : (researchLabels bars)[i]? = some (bars.get i).researchLabel := by
    rw [researchLabels_eq, Fin.getElem?_fin, List.getElem?_map, List.getElem?_eq_getElem i.2]
    rfl
  rw [← researchLabel_eq_iff]
  unfold LabelsAgree
  rw [hlabel]
  constructor
  · rintro ⟨context, hcontext, hagree⟩
    cases context_eq.symm.trans hcontext
    exact Option.some.inj hagree
  · exact fun hagree => ⟨_, context_eq, congrArg some hagree⟩

theorem calmClose_ne : (100000 : ℚ) ≠ 0 := by norm_num

/-- The percentage is 0.29999. -/
def calmBar : RegimeBar where
  symbol := "BTC"
  timeframe := "1h"
  close := 100000
  indicators := [("ema_12", 2), ("ema_26", 1), ("atr_14", 29999 / 100)]
  eventTime := 0
  emaFast := 2
  emaSlow := 1
  atr := 29999 / 100
  fast_eq := rfl
  slow_eq := rfl
  atr_eq := rfl
  close_ne := calmClose_ne

/-- The research pipeline calls the bar calm, a run does not. -/
theorem not_labelsAgree : ¬ ∀ (bars : List RegimeBar) (i : Fin bars.length),
    LabelsAgree bars i := by
  intro h
  obtain ⟨context, hcontext, hagree⟩ := h [calmBar] 0
  have hderived : (Except.ok calmBar.derived : Except PyError MarketContext) = .ok context :=
    context_eq.symm.trans hcontext
  cases hderived
  revert hagree
  decide +kernel

end RegimeBar

end TradingPlatform
