import TradingPlatform.Providers.Technical

/-!
# Missing indicators

The feature builder leaves out the indicators it cannot compute, and the providers put defaults in
their place. Without the indicators its side comes from, a provider of seven of the classes holds;
one on the bands or on the relative strength can trade on the defaults, unless its parameters, the
volatility or the trend strength keep it from it.
-/

namespace TradingPlatform

variable {provider : BaseSignalProvider} {features : FeatureSet} {context : MarketContext}

/-- `analyze` returns a signal that holds. -/
def ProviderClass.Holds (cls : ProviderClass) (provider : BaseSignalProvider)
    (features : FeatureSet) (context : MarketContext) : Prop :=
  ∃ signal, cls.analyze provider features context = .ok signal ∧ signal.side = .hold

/-- The indicators and flags the side of a provider's signals comes from. -/
def ProviderClass.builtOn (params : ProviderParams) : ProviderClass → List String
  | .emaCrossover => ["ema_cross_bullish", "ema_cross_bearish"]
  | .rsiDivergence => ["rsi_14"]
  | .macdMomentum => ["macd_histogram"]
  | .adxTrendStrength => ["plus_di_14", "minus_di_14"]
  | .bollingerReversion => ["bb_upper", "bb_lower"]
  | .supertrendTrend => ["supertrend_direction"]
  | .volumeOrderFlow => [VolumeOrderFlowProvider.cmfKey params, "cmf_20"]
  | .marketStructure => ["ms_bias"]
  | .coreLong => [CoreLongProvider.smaName params]

/-- The high-volatility filter of the two mean-reversion providers is on and applies. -/
def ProviderParams.FilteredByVolatility (params : ProviderParams) (context : MarketContext) :
    Prop :=
  params.avoidHighVol.getD true = true ∧ context.volatility = .high

/-- The condition under which a provider holds without what it is built on. -/
def ProviderClass.HoldsOnDefaults (params : ProviderParams) (features : FeatureSet)
    (context : MarketContext) : ProviderClass → Prop
  | .rsiDivergence =>
    let oversold := params.oversold.getD 30
    let overbought := params.overbought.getD 70
    let distance := if 50 < oversold then oversold - 50 else 50 - overbought
    -- the default strength of 50 is outside no threshold, or the signal is filtered or too weak
    oversold ≤ 50 ∧ 50 ≤ overbought ∨ params.FilteredByVolatility context ∨
      min (95 / 100) (55 / 100 + distance / 40) < params.minConfidence.getD (65 / 100)
  | .bollingerReversion =>
    let maxAdx := params.maxAdx.getD 0
    let minConfidence := params.minConfidence.getD (6 / 10)
    -- the close is on both of its default bands, with the least confidence
    params.FilteredByVolatility context ∨
      0 < maxAdx ∧ maxAdx < features.indicator "adx_14" 0 ∨
      55 / 100 < minConfidence ∧ minConfidence ≤ 101 / 100
  | _ => True

/-! ## Confidences -/

theorem clamp_unit (value : ℚ) : 1 / 100 ≤ clamp value (55 / 100) (95 / 100) ∧
    clamp value (55 / 100) (95 / 100) ≤ 1 := by
  obtain ⟨hlow, hhigh⟩ := @clamp_mem value (55 / 100) (95 / 100) (by norm_num)
  exact ⟨le_trans (by norm_num) hlow, le_trans hhigh (by norm_num)⟩

namespace BaseSignalProvider

variable {side : SignalSide} {confidence minConfidence : ℚ} {summary below : String}

/-- A signal without a side is concluded to hold. -/
theorem conclude_hold (hside : side = .hold) (h : 1 / 100 ≤ confidence ∧ confidence ≤ 1) :
    ∃ signal, provider.conclude features context side confidence minConfidence summary below =
      .ok signal ∧ signal.side = .hold :=
  (conclude_hold_iff h).mpr (.inl hside)

end BaseSignalProvider

theorem fst_trendFilter_of_hold {requireTrend : Bool} {picked : SignalSide × String}
    (h : picked.1 = .hold) : (trendFilter context requireTrend picked).1 = .hold :=
  fst_filtered_of_hold h

/-! ## What each provider does on its defaults -/

open BaseSignalProvider

theorem EmaCrossoverProvider.holds (hbullish : features.Missing "ema_cross_bullish")
    (hbearish : features.Missing "ema_cross_bearish") :
    ProviderClass.emaCrossover.Holds provider features context := by
  simp only [ProviderClass.Holds, ProviderClass.analyze, analyze, emaConfidence,
    FeatureSet.flag_missing hbullish, FeatureSet.flag_missing hbearish, Bool.false_eq_true,
    false_and, if_false, ite_self]
  refine conclude_hold rfl ?_
  norm_num

theorem MacdMomentumProvider.holds (h : features.Missing "macd_histogram") :
    ProviderClass.macdMomentum.Holds provider features context := by
  refine conclude_hold (fst_trendFilter_of_hold ?_) (clamp_unit _)
  simp [FeatureSet.indicator_missing h]

theorem AdxTrendStrengthProvider.holds (hplus : features.Missing "plus_di_14")
    (hminus : features.Missing "minus_di_14") :
    ProviderClass.adxTrendStrength.Holds provider features context := by
  refine conclude_hold (fst_filtered_of_hold (fst_trendFilter_of_hold ?_)) (clamp_unit _)
  simp [FeatureSet.indicator_missing hplus, FeatureSet.indicator_missing hminus]

theorem SuperTrendTrendProvider.holds (h : features.Missing "supertrend_direction") :
    ProviderClass.supertrendTrend.Holds provider features context := by
  refine conclude_hold (fst_trendFilter_of_hold ?_) (clamp_unit _)
  simp [FeatureSet.indicator_missing h]

/-- A flow of zero is as much above the least flow as below its negative. -/
theorem VolumeOrderFlowProvider.holds
    (hcmf : features.Missing (cmfKey provider.params)) (hdefault : features.Missing "cmf_20") :
    ProviderClass.volumeOrderFlow.Holds provider features context := by
  refine conclude_hold (fst_filtered_of_hold ?_) (clamp_unit _)
  simp only [FeatureSet.indicator_missing hcmf, FeatureSet.indicator_missing hdefault,
    Left.nonneg_neg_iff, and_not_self_iff, if_false]

theorem MarketStructureProvider.holds (h : features.Missing "ms_bias") :
    ProviderClass.marketStructure.Holds provider features context := by
  refine conclude_hold (fst_trendFilter_of_hold ?_) (clamp_unit _)
  simp [FeatureSet.indicator_missing h]

theorem CoreLongProvider.holds (h : features.Missing (smaName provider.params)) :
    ProviderClass.coreLong.Holds provider features context := by
  simp only [ProviderClass.Holds, ProviderClass.analyze, analyze, h.1, hold, minConf]
  exact exists_buildSignal (by norm_num)

/-- The default bands are the close itself, so the side is to buy, with the least confidence. -/
theorem BollingerReversionProvider.holds_iff (hupper : features.Missing "bb_upper")
    (hlower : features.Missing "bb_lower") :
    ProviderClass.bollingerReversion.Holds provider features context ↔
      ProviderClass.bollingerReversion.HoldsOnDefaults provider.params features context := by
  have hconf : bbConfidence features.close features.close features.close .buy = 55 / 100 := by
    norm_num [bbConfidence, clamp]
  simp only [ProviderClass.Holds, ProviderClass.analyze, analyze,
    FeatureSet.indicator_missing hupper, FeatureSet.indicator_missing hlower, le_refl, if_true,
    hconf, ProviderClass.HoldsOnDefaults]
  rw [conclude_hold_iff (by norm_num), fst_filtered_eq_hold, fst_filtered_eq_hold]
  simp only [reduceCtorEq, or_false]
  rw [or_assoc, or_left_comm]
  rfl

theorem RsiDivergenceProvider.rsiConfidence_mem {rsi oversold overbought : ℚ} {side : SignalSide} :
    1 / 100 ≤ rsiConfidence rsi oversold overbought side ∧
      rsiConfidence rsi oversold overbought side ≤ 1 := by
  have hunit (x : ℚ) : 1 / 100 ≤ min (95 / 100) (max (55 / 100) x) ∧
      min (95 / 100) (max (55 / 100) x) ≤ 1 :=
    ⟨le_min (by norm_num) (le_max_of_le_left (by norm_num)), min_le_of_left_le (by norm_num)⟩
  cases side with
  | buy => exact hunit _
  | sell => exact hunit _
  | hold => norm_num [rsiConfidence]

/-- Between its thresholds the default strength has no side; beyond one of them it has, with a
confidence that grows with the distance. -/
theorem RsiDivergenceProvider.holds_iff (h : features.Missing "rsi_14") :
    ProviderClass.rsiDivergence.Holds provider features context ↔
      ProviderClass.rsiDivergence.HoldsOnDefaults provider.params features context := by
  simp only [ProviderClass.Holds, ProviderClass.analyze, analyze,
    FeatureSet.indicator_missing h, ProviderClass.HoldsOnDefaults]
  rw [conclude_hold_iff rsiConfidence_mem, fst_filtered_eq_hold, fst_filtered_eq_hold]
  simp only [lt_irrefl, false_and, or_false, ProviderParams.FilteredByVolatility]
  have hstrong (distance : ℚ) (hpos : 0 < distance) :
      max (55 / 100) (55 / 100 + max 0 distance / 40) = 55 / 100 + distance / 40 := by
    rw [max_eq_right hpos.le, max_eq_right (by linarith)]
  rcases lt_or_ge 50 (provider.params.oversold.getD 30) with hlow | hlow
  · have hnot : ¬ (provider.params.oversold.getD 30 ≤ 50 ∧
        50 ≤ provider.params.overbought.getD 70) := fun h => not_le_of_gt hlow h.1
    simp only [if_pos hlow, rsiConfidence, hstrong _ (sub_pos.mpr hlow), reduceCtorEq, hnot]
    tauto
  · rw [if_neg (not_lt_of_ge hlow), if_neg (not_lt_of_ge hlow)]
    rcases lt_or_ge (provider.params.overbought.getD 70) 50 with hhigh | hhigh
    · have hnot : ¬ (provider.params.oversold.getD 30 ≤ 50 ∧
          50 ≤ provider.params.overbought.getD 70) := fun h => not_le_of_gt hhigh h.2
      simp only [if_pos hhigh, rsiConfidence, hstrong _ (sub_pos.mpr hhigh), reduceCtorEq, hnot]
      tauto
    · simp only [if_neg (not_lt_of_ge hhigh), hlow, hhigh]
      tauto

/-! ## Every provider -/

/-- Without what it is built on a provider holds exactly on the condition of its class. -/
theorem ProviderClass.holds_iff_of_missing (cls : ProviderClass) (provider : BaseSignalProvider)
    (features : FeatureSet) (context : MarketContext)
    (hmissing : ∀ key ∈ cls.builtOn provider.params, features.Missing key) :
    cls.Holds provider features context ↔
      cls.HoldsOnDefaults provider.params features context := by
  cases cls with
  | emaCrossover =>
    exact iff_of_true (EmaCrossoverProvider.holds (hmissing _ (by simp [builtOn]))
      (hmissing _ (by simp [builtOn]))) trivial
  | rsiDivergence => exact RsiDivergenceProvider.holds_iff (hmissing _ (by simp [builtOn]))
  | macdMomentum =>
    exact iff_of_true (MacdMomentumProvider.holds (hmissing _ (by simp [builtOn]))) trivial
  | adxTrendStrength =>
    exact iff_of_true (AdxTrendStrengthProvider.holds (hmissing _ (by simp [builtOn]))
      (hmissing _ (by simp [builtOn]))) trivial
  | bollingerReversion =>
    exact BollingerReversionProvider.holds_iff (hmissing _ (by simp [builtOn]))
      (hmissing _ (by simp [builtOn]))
  | supertrendTrend =>
    exact iff_of_true (SuperTrendTrendProvider.holds (hmissing _ (by simp [builtOn]))) trivial
  | volumeOrderFlow =>
    exact iff_of_true (VolumeOrderFlowProvider.holds (hmissing _ (by simp [builtOn]))
      (hmissing _ (by simp [builtOn]))) trivial
  | marketStructure =>
    exact iff_of_true (MarketStructureProvider.holds (hmissing _ (by simp [builtOn]))) trivial
  | coreLong =>
    exact iff_of_true (CoreLongProvider.holds (hmissing _ (by simp [builtOn]))) trivial

/-- The features of a bar on which no indicator could be computed. -/
def warmUpFeatures : FeatureSet where
  featureSetId := 0
  symbol := "BTC"
  timeframe := "1h"
  eventTime := 0
  processingTime := 0
  featureVersion := "v1"
  configHash := ""
  close := 100
  indicators := []
  flags := []

def calmContext : MarketContext where
  symbol := "BTC"
  timeframe := "1h"
  currentPrice := 100
  trend := .sideways
  volatility := .normal
  atr := 1
  atrPct := 1
  session := .us
  eventTime := 0

theorem holds_iff_of_missing_rsi :
    ProviderClass.rsiDivergence.Holds { providerId := "rsi_divergence" } warmUpFeatures
        calmContext ↔
      ProviderClass.rsiDivergence.HoldsOnDefaults {} warmUpFeatures calmContext :=
  ProviderClass.rsiDivergence.holds_iff_of_missing { providerId := "rsi_divergence" } warmUpFeatures
    calmContext (by decide)

/-- With a least confidence of one half the provider on the bands buys on a bar without bands. -/
theorem not_holds_of_missing : ¬ ∀ (cls : ProviderClass) (provider : BaseSignalProvider)
    (features : FeatureSet) (context : MarketContext),
    (∀ key ∈ cls.builtOn provider.params, features.Missing key) →
      cls.Holds provider features context := by
  intro h
  obtain ⟨signal, hsignal, hhold⟩ := h .bollingerReversion
    { providerId := "bollinger_reversion", params := { minConfidence := some (1 / 2) } }
    warmUpFeatures calmContext (by decide)
  have hbuy : (ProviderClass.bollingerReversion.analyze
      { providerId := "bollinger_reversion", params := { minConfidence := some (1 / 2) } }
      warmUpFeatures calmContext).map (·.side) = .ok .buy := by decide +kernel
  rw [hsignal, Except.map, hhold] at hbuy
  cases hbuy

/-- Under its default parameters every provider holds without what it is built on. -/
theorem ProviderClass.holdsOnDefaults_default (cls : ProviderClass) :
    cls.HoldsOnDefaults {} features context := by
  cases cls with
  | rsiDivergence => exact .inl (by norm_num)
  | bollingerReversion => exact .inr (.inr (by norm_num))
  | _ => trivial

end TradingPlatform
