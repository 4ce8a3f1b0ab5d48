import TradingPlatform.Lib.Sampling
import TradingPlatform.Validation.Refinement

/-!
# The trials of a search

`generate_trials` filters the product of the value lists of a space and, where the valid
combinations are more than it may return, takes them at regular distances. The distance is such that
these are enough: nothing is left to draw.
-/

/-- An element of a product, by its components. -/
theorem List.mem_product_iff {α β : Type*} {l₁ : List α} {l₂ : List β} {x : α × β} :
    x ∈ l₁ ×ˢ l₂ ↔ x.1 ∈ l₁ ∧ x.2 ∈ l₂ :=
  List.mem_product (a := x.1) (b := x.2)

namespace TradingPlatform

/-- `OptimizationSpace`, with the value types it declares. -/
structure SearchSpace where
  minConfidence : List ℚ := [6 / 10, 65 / 100, 7 / 10, 78 / 100]
  minRiskReward : List ℚ := [1, 12 / 10, 15 / 10, 2]
  minAgreeingProviders : List ℤ := [1, 2]
  slAtrMult : List ℚ := [1, 15 / 10, 2]
  tpAtrMult : List ℚ := [2, 3, 4]
  maxBarsInTrade : List ℤ := [12, 24, 48]
  oversold : List ℚ := [25, 30, 35]
  overbought : List ℚ := [65, 70, 75]
  riskPctPerTrade : List ℚ := [5 / 10, 1, 15 / 10]
  minAtrPct : List ℚ := [1 / 10, 3 / 10, 5 / 10]
  sessionPreset : List String := ["eu_us", "all"]
  maxSignalsPerDay : List ℤ := [5, 10, 20]
  emaFast : List ℤ := [12]
  emaSlow : List ℤ := [26]
  rsiPeriod : List ℤ := [14]
  emaWeight : List ℚ := [1]
  rsiWeight : List ℚ := [1]
  emaEnabled : List ℤ := [1]
  rsiEnabled : List ℤ := [1]
  macdFast : List ℤ := [12]
  macdSlow : List ℤ := [26]
  macdSignalPeriod : List ℤ := [9]
  macdWeight : List ℚ := [1]
  macdEnabled : List ℤ := [1]
  requireSignalAlign : List ℤ := [1]
  minHistogramSlope : List ℚ := [0]
  adxPeriod : List ℤ := [14]
  adxWeight : List ℚ := [1]
  adxEnabled : List ℤ := [0]
  minAdx : List ℚ := [25]
  minDiSpread : List ℚ := [5]
  adxRequireTrend : List ℤ := [0]
  bbPeriod : List ℤ := [20]
  bbStd : List ℚ := [2]
  bbWeight : List ℚ := [1]
  bbEnabled : List ℤ := [0]
  bbAvoidHighVol : List ℤ := [1]
  bbMaxAdx : List ℚ := [0]
  stPeriod : List ℤ := [10]
  stMultiplier : List ℚ := [3]
  stWeight : List ℚ := [1]
  stEnabled : List ℤ := [0]
  stRequireTrend : List ℤ := [0]
  volPeriod : List ℤ := [20]
  volWeight : List ℚ := [1]
  volEnabled : List ℤ := [0]
  minCmf : List ℚ := [5 / 100]
  minVolumeRatio : List ℚ := [12 / 10]
  volRequirePriceAlign : List ℤ := [1]
  msPivotBars : List ℤ := [5]
  msWeight : List ℚ := [1]
  msEnabled : List ℤ := [0]
  msRequireBos : List ℤ := [1]
  msRequireTrend : List ℤ := [0]

namespace SearchSpace

variable (space : SearchSpace)

/-- `itertools.product` of the value lists, the last one varying fastest. -/
def allCombos : List TrialParams :=
  (space.minConfidence ×ˢ space.minRiskReward ×ˢ space.minAgreeingProviders ×ˢ space.slAtrMult ×ˢ
    space.tpAtrMult ×ˢ space.maxBarsInTrade ×ˢ space.oversold ×ˢ space.overbought ×ˢ
    space.riskPctPerTrade ×ˢ space.minAtrPct ×ˢ space.sessionPreset ×ˢ space.maxSignalsPerDay ×ˢ
    space.emaFast ×ˢ space.emaSlow ×ˢ space.rsiPeriod ×ˢ space.emaWeight ×ˢ space.rsiWeight ×ˢ
    space.emaEnabled ×ˢ space.rsiEnabled ×ˢ space.macdFast ×ˢ space.macdSlow ×ˢ
    space.macdSignalPeriod ×ˢ space.macdWeight ×ˢ space.macdEnabled ×ˢ space.requireSignalAlign ×ˢ
    space.minHistogramSlope ×ˢ space.adxPeriod ×ˢ space.adxWeight ×ˢ space.adxEnabled ×ˢ
    space.minAdx ×ˢ space.minDiSpread ×ˢ space.adxRequireTrend ×ˢ space.bbPeriod ×ˢ space.bbStd ×ˢ
    space.bbWeight ×ˢ space.bbEnabled ×ˢ space.bbAvoidHighVol ×ˢ space.bbMaxAdx ×ˢ space.stPeriod ×ˢ
    space.stMultiplier ×ˢ space.stWeight ×ˢ space.stEnabled ×ˢ space.stRequireTrend ×ˢ
    space.volPeriod ×ˢ space.volWeight ×ˢ space.volEnabled ×ˢ space.minCmf ×ˢ
    space.minVolumeRatio ×ˢ space.volRequirePriceAlign ×ˢ space.msPivotBars ×ˢ space.msWeight ×ˢ
    space.msEnabled ×ˢ space.msRequireBos ×ˢ space.msRequireTrend).map fun
    ⟨minConfidence, minRiskReward, minAgreeingProviders, slAtrMult, tpAtrMult, maxBarsInTrade,
    oversold, overbought, riskPctPerTrade, minAtrPct, sessionPreset, maxSignalsPerDay, emaFast,
    emaSlow, rsiPeriod, emaWeight, rsiWeight, emaEnabled, rsiEnabled, macdFast, macdSlow,
    macdSignalPeriod, macdWeight, macdEnabled, requireSignalAlign, minHistogramSlope, adxPeriod,
    adxWeight, adxEnabled, minAdx, minDiSpread, adxRequireTrend, bbPeriod, bbStd, bbWeight,
    bbEnabled, bbAvoidHighVol, bbMaxAdx, stPeriod, stMultiplier, stWeight, stEnabled,
    stRequireTrend, volPeriod, volWeight, volEnabled, minCmf, minVolumeRatio, volRequirePriceAlign,
    msPivotBars, msWeight, msEnabled, msRequireBos, msRequireTrend⟩ =>
    ⟨minConfidence, minRiskReward, minAgreeingProviders, slAtrMult, tpAtrMult, maxBarsInTrade,
    oversold, overbought, riskPctPerTrade, minAtrPct, sessionPreset, maxSignalsPerDay, emaFast,
    emaSlow, rsiPeriod, emaWeight, rsiWeight, emaEnabled, rsiEnabled, macdFast, macdSlow,
    macdSignalPeriod, macdWeight, macdEnabled, requireSignalAlign, minHistogramSlope, adxPeriod,
    adxWeight, adxEnabled, minAdx, minDiSpread, adxRequireTrend, bbPeriod, bbStd, bbWeight,
    bbEnabled, bbAvoidHighVol, bbMaxAdx, stPeriod, stMultiplier, stWeight, stEnabled,
    stRequireTrend, volPeriod, volWeight, volEnabled, minCmf, minVolumeRatio, volRequirePriceAlign,
    msPivotBars, msWeight, msEnabled, msRequireBos, msRequireTrend⟩

/-- The provider switches, one list for each of `PROVIDER_ENABLED_KEYS`. -/
def providerEnabled : List (List ℤ) :=
  [space.emaEnabled, space.rsiEnabled, space.macdEnabled, space.adxEnabled, space.bbEnabled,
    space.stEnabled, space.volEnabled, space.msEnabled]

/-- `space_requires_family_filter` -/
def requiresFamilyFilter : Bool :=
  decide (2 ≤ space.providerEnabled.countP fun values => 1 < values.length)

/-- The lists have no duplicates. -/
def Nodup : Prop :=
  space.minConfidence.Nodup ∧ space.minRiskReward.Nodup ∧ space.minAgreeingProviders.Nodup ∧
  space.slAtrMult.Nodup ∧ space.tpAtrMult.Nodup ∧ space.maxBarsInTrade.Nodup ∧
  space.oversold.Nodup ∧ space.overbought.Nodup ∧ space.riskPctPerTrade.Nodup ∧
  space.minAtrPct.Nodup ∧ space.sessionPreset.Nodup ∧ space.maxSignalsPerDay.Nodup ∧
  space.emaFast.Nodup ∧
  space.emaSlow.Nodup ∧ space.rsiPeriod.Nodup ∧ space.emaWeight.Nodup ∧ space.rsiWeight.Nodup ∧
  space.emaEnabled.Nodup ∧ space.rsiEnabled.Nodup ∧ space.macdFast.Nodup ∧ space.macdSlow.Nodup ∧
  space.macdSignalPeriod.Nodup ∧ space.macdWeight.Nodup ∧ space.macdEnabled.Nodup ∧
  space.requireSignalAlign.Nodup ∧ space.minHistogramSlope.Nodup ∧ space.adxPeriod.Nodup ∧
  space.adxWeight.Nodup ∧ space.adxEnabled.Nodup ∧ space.minAdx.Nodup ∧ space.minDiSpread.Nodup ∧
  space.adxRequireTrend.Nodup ∧ space.bbPeriod.Nodup ∧ space.bbStd.Nodup ∧ space.bbWeight.Nodup ∧
  space.bbEnabled.Nodup ∧ space.bbAvoidHighVol.Nodup ∧ space.bbMaxAdx.Nodup ∧ space.stPeriod.Nodup ∧
  space.stMultiplier.Nodup ∧ space.stWeight.Nodup ∧ space.stEnabled.Nodup ∧
  space.stRequireTrend.Nodup ∧ space.volPeriod.Nodup ∧ space.volWeight.Nodup ∧
  space.volEnabled.Nodup ∧ space.minCmf.Nodup ∧ space.minVolumeRatio.Nodup ∧
  space.volRequirePriceAlign.Nodup ∧ space.msPivotBars.Nodup ∧ space.msWeight.Nodup ∧
  space.msEnabled.Nodup ∧ space.msRequireBos.Nodup ∧ space.msRequireTrend.Nodup

end SearchSpace

namespace TrialParams

variable (params : TrialParams)

def hasAnyProviderEnabled : Bool :=
  [params.emaEnabled, params.rsiEnabled, params.macdEnabled, params.adxEnabled, params.bbEnabled,
    params.stEnabled, params.volEnabled, params.msEnabled].any (· ≠ 0)

def hasCompatibleProviderFamily : Bool :=
  let hasTrend := [params.emaEnabled, params.macdEnabled, params.adxEnabled, params.stEnabled,
    params.msEnabled].any (· ≠ 0)
  let hasReversion := [params.bbEnabled, params.rsiEnabled].any (· ≠ 0)
  !(hasTrend && hasReversion)

def isValidProviderTrial (requireCompatibleFamily : Bool := false) : Bool :=
  if !params.hasAnyProviderEnabled then false
  else if requireCompatibleFamily && !params.hasCompatibleProviderFamily then false
  else true

/-- Every parameter has a value of its list. -/
def DrawnFrom (space : SearchSpace) : Prop :=
  params.minConfidence ∈ space.minConfidence ∧ params.minRiskReward ∈ space.minRiskReward ∧
  params.minAgreeingProviders ∈ space.minAgreeingProviders ∧ params.slAtrMult ∈ space.slAtrMult ∧
  params.tpAtrMult ∈ space.tpAtrMult ∧ params.maxBarsInTrade ∈ space.maxBarsInTrade ∧
  params.oversold ∈ space.oversold ∧ params.overbought ∈ space.overbought ∧
  params.riskPctPerTrade ∈ space.riskPctPerTrade ∧ params.minAtrPct ∈ space.minAtrPct ∧
  params.sessionPreset ∈ space.sessionPreset ∧ params.maxSignalsPerDay ∈ space.maxSignalsPerDay ∧
  params.emaFast ∈ space.emaFast ∧ params.emaSlow ∈ space.emaSlow ∧
  params.rsiPeriod ∈ space.rsiPeriod ∧ params.emaWeight ∈ space.emaWeight ∧
  params.rsiWeight ∈ space.rsiWeight ∧ params.emaEnabled ∈ space.emaEnabled ∧
  params.rsiEnabled ∈ space.rsiEnabled ∧ params.macdFast ∈ space.macdFast ∧
  params.macdSlow ∈ space.macdSlow ∧ params.macdSignalPeriod ∈ space.macdSignalPeriod ∧
  params.macdWeight ∈ space.macdWeight ∧ params.macdEnabled ∈ space.macdEnabled ∧
  params.requireSignalAlign ∈ space.requireSignalAlign ∧
  params.minHistogramSlope ∈ space.minHistogramSlope ∧ params.adxPeriod ∈ space.adxPeriod ∧
  params.adxWeight ∈ space.adxWeight ∧ params.adxEnabled ∈ space.adxEnabled ∧
  params.minAdx ∈ space.minAdx ∧ params.minDiSpread ∈ space.minDiSpread ∧
  params.adxRequireTrend ∈ space.adxRequireTrend ∧ params.bbPeriod ∈ space.bbPeriod ∧
  params.bbStd ∈ space.bbStd ∧ params.bbWeight ∈ space.bbWeight ∧
  params.bbEnabled ∈ space.bbEnabled ∧ params.bbAvoidHighVol ∈ space.bbAvoidHighVol ∧
  params.bbMaxAdx ∈ space.bbMaxAdx ∧ params.stPeriod ∈ space.stPeriod ∧
  params.stMultiplier ∈ space.stMultiplier ∧ params.stWeight ∈ space.stWeight ∧
  params.stEnabled ∈ space.stEnabled ∧ params.stRequireTrend ∈ space.stRequireTrend ∧
  params.volPeriod ∈ space.volPeriod ∧ params.volWeight ∈ space.volWeight ∧
  params.volEnabled ∈ space.volEnabled ∧ params.minCmf ∈ space.minCmf ∧
  params.minVolumeRatio ∈ space.minVolumeRatio ∧
  params.volRequirePriceAlign ∈ space.volRequirePriceAlign ∧
  params.msPivotBars ∈ space.msPivotBars ∧
  params.msWeight ∈ space.msWeight ∧ params.msEnabled ∈ space.msEnabled ∧
  params.msRequireBos ∈ space.msRequireBos ∧ params.msRequireTrend ∈ space.msRequireTrend

end TrialParams

namespace SearchSpace

open Sampling

variable (space : SearchSpace)

/-- `enforce_family` of `generate_trials` -/
def enforceFamily (requireCompatibleFamily : Option Bool) : Bool :=
  requireCompatibleFamily.getD space.requiresFamilyFilter

/-- The combinations that are valid. -/
def validCombos (requireCompatibleFamily : Option Bool) : List TrialParams :=
  space.allCombos.filter
    (·.isValidProviderTrial (space.enforceFamily requireCompatibleFamily))

/-- `generate_trials`. The keys it has seen are those of the combinations it has picked; `seeded` is
the state of the random numbers for a seed. -/
def generateTrials (source : Source) (seeded : Option ℤ → source.State) (maxTrials : ℤ := 40)
    (seed : Option ℤ := none) (requireCompatibleFamily : Option Bool := none) :
    Except PyError (List TrialParams) := do
  let allCombos := space.validCombos requireCompatibleFamily
  if allCombos = [] then
    throw (.valueError "Optimization space has no valid provider combinations")
  if allCombos.length ≤ maxTrials then return allCombos
  if maxTrials = 0 then throw .zeroDivisionError
  let stride := max 1 ((allCombos.length : ℤ).fdiv maxTrials)
  let picked := pickFresh maxTrials [] (strided stride.toNat allCombos)
  return topUp source maxTrials picked (allCombos.filter (· ∉ picked)) (seeded seed)

variable {space} {params : TrialParams}

theorem mem_allCombos : params ∈ space.allCombos ↔ params.DrawnFrom space := by
  rw [allCombos, List.mem_map]
  constructor
  · rintro ⟨x, hx, rfl⟩
    simp only [List.mem_product_iff] at hx
    exact hx
  · intro h
    refine ⟨⟨params.minConfidence, params.minRiskReward, params.minAgreeingProviders,
      params.slAtrMult, params.tpAtrMult, params.maxBarsInTrade, params.oversold,
      params.overbought, params.riskPctPerTrade, params.minAtrPct, params.sessionPreset,
      params.maxSignalsPerDay, params.emaFast, params.emaSlow, params.rsiPeriod, params.emaWeight,
      params.rsiWeight, params.emaEnabled, params.rsiEnabled, params.macdFast, params.macdSlow,
      params.macdSignalPeriod, params.macdWeight, params.macdEnabled, params.requireSignalAlign,
      params.minHistogramSlope, params.adxPeriod, params.adxWeight, params.adxEnabled,
      params.minAdx, params.minDiSpread, params.adxRequireTrend, params.bbPeriod, params.bbStd,
      params.bbWeight, params.bbEnabled, params.bbAvoidHighVol, params.bbMaxAdx, params.stPeriod,
      params.stMultiplier, params.stWeight, params.stEnabled, params.stRequireTrend,
      params.volPeriod, params.volWeight, params.volEnabled, params.minCmf, params.minVolumeRatio,
      params.volRequirePriceAlign, params.msPivotBars, params.msWeight, params.msEnabled,
      params.msRequireBos, params.msRequireTrend⟩, ?_, rfl⟩
    simp only [List.mem_product_iff]
    exact h

theorem nodup_allCombos (h : space.Nodup) : space.allCombos.Nodup := by
  refine List.Nodup.map (fun x y hxy => ?_) ?_
  · simpa only [Prod.ext_iff, TrialParams.mk.injEq] using hxy
  · repeat
      refine h.1.product ?_
      replace h := h.2
    exact h

variable {family : Option Bool}

theorem nodup_validCombos (h : space.Nodup) : (space.validCombos family).Nodup :=
  (nodup_allCombos h).filter _

theorem mem_validCombos : params ∈ space.validCombos family ↔
    params.DrawnFrom space ∧ params.isValidProviderTrial (space.enforceFamily family) := by
  rw [validCombos, List.mem_filter, mem_allCombos]

theorem length_validCombos (h : space.Nodup) : (space.validCombos family).length =
    {params : TrialParams | params.DrawnFrom space ∧
      params.isValidProviderTrial (space.enforceFamily family)}.ncard := by
  have hset : {params : TrialParams | params.DrawnFrom space ∧
      params.isValidProviderTrial (space.enforceFamily family)} =
      ((space.validCombos family).toFinset : Set TrialParams) := by
    ext params
    rw [List.coe_toFinset]
    exact mem_validCombos.symm
  rw [hset, Set.ncard_coe_finset, List.toFinset_card_of_nodup (nodup_validCombos h)]

theorem mul_stride_le {n maxTrials : ℤ} (hmax : 1 ≤ maxTrials) (hmany : maxTrials < n) :
    maxTrials * max 1 (n.fdiv maxTrials) ≤ n := by
  rw [Int.fdiv_eq_ediv_of_nonneg _ (by omega)]
  have hone : 1 ≤ n / maxTrials := (Int.le_ediv_iff_mul_le (by omega)).mpr (by omega)
  rw [max_eq_right hone]
  exact Int.mul_ediv_self_le (by omega)

/-- Where there are too many valid combinations, the first ones at the distances are returned. -/
theorem generateTrials_eq_strided (source : Source) (seeded : Option ℤ → source.State)
    {maxTrials : ℤ} (seed : Option ℤ) (h : space.Nodup) (hmax : 1 ≤ maxTrials)
    (hmany : maxTrials < (space.validCombos family).length) :
    ∃ stride, 0 < stride ∧ maxTrials.toNat * stride ≤ (space.validCombos family).length ∧
      space.generateTrials source seeded maxTrials seed family =
        .ok ((strided stride (space.validCombos family)).take maxTrials.toNat) := by
  have hnodup : (space.validCombos family).Nodup := nodup_validCombos h
  set combos := space.validCombos family with hcombos
  set stride := (max 1 ((combos.length : ℤ).fdiv maxTrials)).toNat with hstride
  have hpos : 0 < stride := by omega
  have hfits : maxTrials.toNat * stride ≤ combos.length := by
    have hle := mul_stride_le hmax hmany
    zify
    rw [Int.toNat_of_nonneg (by omega), hstride, Int.toNat_of_nonneg (by omega)]
    exact hle
  refine ⟨stride, hpos, hfits, ?_⟩
  have hpicked : pickFresh maxTrials [] (strided stride combos) =
      (strided stride combos).take maxTrials.toNat :=
    pickFresh_eq (by rw [List.length_nil]; omega) (nodup_strided hpos hnodup)
  have hfull : maxTrials ≤ ((strided stride combos).take maxTrials.toNat).length := by
    have := le_length_strided hpos hfits
    rw [List.length_take]
    omega
  have hne : combos ≠ [] := fun hnil => by
    rw [hnil, List.length_nil] at hmany
    omega
  rw [generateTrials, if_neg hne, if_neg (not_le.mpr hmany), if_neg (by omega)]
  exact congrArg Except.ok ((topUp_of_full _ _ _ (hpicked ▸ hfull)).trans hpicked)

/-- As many valid combinations as there are, but at most `maxTrials`, are returned, and none of them
twice. -/
theorem generateTrials_spec (source : Source) (seeded : Option ℤ → source.State)
    (space : SearchSpace) (maxTrials : ℤ) (seed : Option ℤ) (family : Option Bool)
    (hspace : space.Nodup) (hmax : 1 ≤ maxTrials)
    (hvalid : ∃ params : TrialParams, params.DrawnFrom space ∧
      params.isValidProviderTrial (space.enforceFamily family)) :
    ∃ trials, space.generateTrials source seeded maxTrials seed family = .ok trials ∧
      trials.Nodup ∧
      (trials.length : ℤ) = min maxTrials
        {params : TrialParams | params.DrawnFrom space ∧
          params.isValidProviderTrial (space.enforceFamily family)}.ncard ∧
      ∀ params ∈ trials, params.DrawnFrom space ∧
        params.isValidProviderTrial (space.enforceFamily family) := by
  have hnodup : (space.validCombos family).Nodup := nodup_validCombos hspace
  have hne : space.validCombos family ≠ [] := by
    obtain ⟨params, hparams⟩ := hvalid
    exact List.ne_nil_of_mem (mem_validCombos.mpr hparams)
  rw [← length_validCombos hspace]
  rcases le_or_gt ((space.validCombos family).length : ℤ) maxTrials with hfew | hmany
  · refine ⟨space.validCombos family, ?_, hnodup, (min_eq_right hfew).symm,
      fun params => mem_validCombos.mp⟩
    rw [generateTrials, if_neg hne, if_pos hfew]
    rfl
  · obtain ⟨stride, hstride, hfits, heq⟩ := generateTrials_eq_strided source seeded seed hspace
      hmax hmany
    refine ⟨_, heq, (nodup_strided hstride hnodup).sublist (List.take_sublist _ _), ?_,
      fun params hparams => mem_validCombos.mp (mem_of_mem_strided (List.mem_of_mem_take hparams))⟩
    have := le_length_strided hstride hfits
    rw [List.length_take]
    omega

theorem nodup_default : ({} : SearchSpace).Nodup := by
  repeat
    refine ⟨by decide +kernel, ?_⟩
  decide

theorem firstTrial_drawnFrom_default : firstTrial.DrawnFrom {} := by
  repeat
    refine ⟨by decide +kernel, ?_⟩
  decide

/-- Random numbers that always draw the first element. -/
def firstDrawn : Source where
  State := Unit
  below _ _ h := (⟨0, h⟩, ())

theorem generateTrials_spec_default : ∃ trials,
    ({} : SearchSpace).generateTrials firstDrawn (fun _ => ()) 40 none none = .ok trials ∧
      trials.Nodup ∧
      (trials.length : ℤ) = min (40 : ℤ)
        {params : TrialParams | params.DrawnFrom {} ∧
          params.isValidProviderTrial (({} : SearchSpace).enforceFamily none)}.ncard ∧
      ∀ params ∈ trials, params.DrawnFrom {} ∧
        params.isValidProviderTrial (({} : SearchSpace).enforceFamily none) :=
  generateTrials_spec firstDrawn (fun _ => ()) {} 40 none none nodup_default (by decide)
    ⟨firstTrial, firstTrial_drawnFrom_default, by decide⟩

end SearchSpace

end TradingPlatform
