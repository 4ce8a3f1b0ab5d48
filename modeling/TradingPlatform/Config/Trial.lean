import TradingPlatform.Config.Service

/-!
# Trials

The parameters of a trial are turned into configurations in two ways: for a sweep they are put into
copies of the loaded configurations, and for the trial that is applied they become patches of the
files. The provider overrides serve both.
-/

namespace TradingPlatform

/-- The parameters of a trial, one for each of `TRIAL_PARAM_KEYS`, of the types
`OptimizationSpace` declares. -/
structure TrialParams where
  minConfidence : ℚ
  minRiskReward : ℚ
  minAgreeingProviders : ℤ
  slAtrMult : ℚ
  tpAtrMult : ℚ
  maxBarsInTrade : ℤ
  oversold : ℚ
  overbought : ℚ
  riskPctPerTrade : ℚ
  minAtrPct : ℚ
  sessionPreset : String
  maxSignalsPerDay : ℤ
  emaFast : ℤ
  emaSlow : ℤ
  rsiPeriod : ℤ
  emaWeight : ℚ
  rsiWeight : ℚ
  emaEnabled : ℤ
  rsiEnabled : ℤ
  macdFast : ℤ
  macdSlow : ℤ
  macdSignalPeriod : ℤ
  macdWeight : ℚ
  macdEnabled : ℤ
  requireSignalAlign : ℤ
  minHistogramSlope : ℚ
  adxPeriod : ℤ
  adxWeight : ℚ
  adxEnabled : ℤ
  minAdx : ℚ
  minDiSpread : ℚ
  adxRequireTrend : ℤ
  bbPeriod : ℤ
  bbStd : ℚ
  bbWeight : ℚ
  bbEnabled : ℤ
  bbAvoidHighVol : ℤ
  bbMaxAdx : ℚ
  stPeriod : ℤ
  stMultiplier : ℚ
  stWeight : ℚ
  stEnabled : ℤ
  stRequireTrend : ℤ
  volPeriod : ℤ
  volWeight : ℚ
  volEnabled : ℤ
  minCmf : ℚ
  minVolumeRatio : ℚ
  volRequirePriceAlign : ℤ
  msPivotBars : ℤ
  msWeight : ℚ
  msEnabled : ℤ
  msRequireBos : ℤ
  msRequireTrend : ℤ
  deriving DecidableEq

def sessionPresets : List (String × List String) :=
  [("eu_us", ["EUROPE", "US", "OVERLAP"]), ("us_only", ["US"]),
    ("all", ["ASIA", "EUROPE", "US", "OVERLAP"])]

/-- `_session_preset` -/
def sessionPreset (preset : String) : List String :=
  match sessionPresets.find? fun e => decide (e.1 = preset) with
  | some sessions => sessions.2
  | none => ["EUROPE", "US", "OVERLAP"]

/-- `bool(int(value))` -/
def flag (value : ℤ) : Yaml := .bool (decide (value ≠ 0))

namespace TrialParams

variable (trial : TrialParams)

/-! ## In memory -/

def buildEngineConfigFromTrial (base : EngineConfig) : EngineValues :=
  { base.values with
    minAgreeingProviders := trial.minAgreeingProviders
    minConfidence := trial.minConfidence
    minRiskReward := trial.minRiskReward
    maxSignalsPerDay := trial.maxSignalsPerDay
    minAtrPct := trial.minAtrPct
    allowedSessions := TradingPlatform.sessionPreset trial.sessionPreset }

/-- `build_execution_config_from_trial`; a trial has no keys for the other two fields. -/
def buildExecutionConfigFromTrial (base : ValidationExecutionConfig) : ExecutionValues :=
  { base.values with
    maxBarsInTrade := trial.maxBarsInTrade
    riskPctPerTrade := trial.riskPctPerTrade }

/-- The entries every provider gets. -/
def sharedOverride : Yaml.Entries :=
  [("min_confidence", .float trial.minConfidence), ("sl_atr_mult", .float trial.slAtrMult),
    ("tp_atr_mult", .float trial.tpAtrMult)]

/-- `build_provider_overrides`. A trial has no keys `require_trend`, `avoid_high_vol` and
`macd_require_trend`, so their defaults stand. -/
def buildProviderOverrides : List (String × Yaml.Entries) :=
  [("ema_crossover", trial.sharedOverride ++
      [("weight", .float trial.emaWeight), ("enabled", flag trial.emaEnabled),
        ("require_trend", flag 1)]),
    ("rsi_divergence", trial.sharedOverride ++
      [("oversold", .float trial.oversold), ("overbought", .float trial.overbought),
        ("weight", .float trial.rsiWeight), ("enabled", flag trial.rsiEnabled),
        ("avoid_high_vol", flag 1)]),
    ("macd_momentum", trial.sharedOverride ++
      [("weight", .float trial.macdWeight), ("enabled", flag trial.macdEnabled),
        ("require_signal_align", flag trial.requireSignalAlign),
        ("min_histogram_slope", .float trial.minHistogramSlope), ("require_trend", flag 0)]),
    ("adx_trend_strength", trial.sharedOverride ++
      [("weight", .float trial.adxWeight), ("enabled", flag trial.adxEnabled),
        ("min_adx", .float trial.minAdx), ("min_di_spread", .float trial.minDiSpread),
        ("require_trend", flag trial.adxRequireTrend)]),
    ("bollinger_reversion", trial.sharedOverride ++
      [("weight", .float trial.bbWeight), ("enabled", flag trial.bbEnabled),
        ("avoid_high_vol", flag trial.bbAvoidHighVol), ("max_adx", .float trial.bbMaxAdx)]),
    ("supertrend_trend", trial.sharedOverride ++
      [("weight", .float trial.stWeight), ("enabled", flag trial.stEnabled),
        ("require_trend", flag trial.stRequireTrend)]),
    ("volume_order_flow", trial.sharedOverride ++
      [("weight", .float trial.volWeight), ("enabled", flag trial.volEnabled),
        ("period", .int trial.volPeriod), ("min_cmf", .float trial.minCmf),
        ("min_volume_ratio", .float trial.minVolumeRatio),
        ("require_price_align", flag trial.volRequirePriceAlign)]),
    ("market_structure", trial.sharedOverride ++
      [("weight", .float trial.msWeight), ("enabled", flag trial.msEnabled),
        ("pivot_bars", .int trial.msPivotBars), ("require_bos", flag trial.msRequireBos),
        ("require_trend", flag trial.msRequireTrend)])]

/-- `build_features_write_kwargs`, which are the parameters of `build_features_config_from_trial`
too. -/
def buildFeaturesWriteKwargs : FeatureParams where
  emaFast := trial.emaFast
  emaSlow := trial.emaSlow
  rsiPeriod := trial.rsiPeriod
  macdFast := trial.macdFast
  macdSlow := trial.macdSlow
  macdSignalPeriod := trial.macdSignalPeriod
  adxPeriod := trial.adxPeriod
  bbPeriod := trial.bbPeriod
  bbStd := trial.bbStd
  stPeriod := trial.stPeriod
  stMultiplier := trial.stMultiplier
  volPeriod := trial.volPeriod
  msPivotBars := trial.msPivotBars

end TrialParams

/-- An indicator of `build_features_config_from_trial`. The two averages and the RSI are built anew,
without what the base has; the others keep their type and their other parameters. -/
def IndicatorDef.fromTrial (params : FeatureParams) (indicator : IndicatorDef) : IndicatorDef :=
  if indicator.name = "ema_12" then ⟨"ema_12", "ema", [("period", .int params.emaFast)]⟩
  else if indicator.name = "ema_26" then ⟨"ema_26", "ema", [("period", .int params.emaSlow)]⟩
  else if indicator.name = "rsi_14" then ⟨"rsi_14", "rsi", [("period", .int params.rsiPeriod)]⟩
  else
    match params.patch indicator.name with
    | some patch => { indicator with params := Yaml.update patch indicator.params }
    | none => indicator

def TrialParams.buildFeaturesConfigFromTrial (trial : TrialParams) (base : FeaturesConfig) :
    FeaturesConfig :=
  { base with
    indicators := base.indicators.map (IndicatorDef.fromTrial trial.buildFeaturesWriteKwargs) }

namespace ConfigLibrary

variable {Text : Type} (lib : ConfigLibrary Text)

/-- The entries of an override that are parameters. -/
def overrideParams (override : Yaml.Entries) : Yaml.Entries :=
  override.filter fun e => e.1 ∉ ["enabled", "weight"]

/-- A provider's configuration under an override, which may lack `enabled` and `weight`. -/
def overridden (cfg : ProviderConfig) (override : Yaml.Entries) :
    Except PyError ProviderConfig := do
  let weight ← lib.toFloat ((Yaml.get? override "weight").getD (.float cfg.weight))
  return { cfg with
    enabled := ((Yaml.get? override "enabled").getD (.bool cfg.enabled)).truthy
    weight
    params := Yaml.update (overrideParams override) cfg.params }

/-- A discovered provider, under the override of its `provider_id` if there is one. -/
def overriddenBy (overrides : List (String × Yaml.Entries)) (cfg : ProviderConfig) :
    Except PyError ProviderConfig :=
  match overrides.find? fun e => decide (e.1 = cfg.providerId) with
  | some override => lib.overridden cfg override.2
  | none => .ok cfg

/-- The turn of `build_providers_from_overrides` on a discovered provider. -/
def buildProvider (overrides : List (String × Yaml.Entries)) (cfg : ProviderConfig) :
    Except PyError (Option ProviderConfig) := do
  let cfg ← lib.overriddenBy overrides cfg
  if cfg.enabled then return some (← instantiateProvider cfg)
  else return none

def buildProvidersFromOverrides (overrides : List (String × Yaml.Entries))
    (dir : ConfigDir Text) : Except PyError (List ProviderConfig) := do
  let built ← (← lib.discoverProviderConfigs dir).mapM fun file =>
    lib.buildProvider overrides file.2
  return built.reduceOption

/-! ## On disk -/

end ConfigLibrary

namespace TrialParams

variable (trial : TrialParams)

def buildEngineWritePatch : List (String × Yaml.Entries) :=
  [("aggregation", [("min_agreeing_providers", .int trial.minAgreeingProviders)]),
    ("filter", [("min_atr_pct", .float trial.minAtrPct),
      ("allowed_sessions",
        .list ((TradingPlatform.sessionPreset trial.sessionPreset).map Yaml.str))]),
    ("risk", [("min_confidence", .float trial.minConfidence),
      ("min_risk_reward", .float trial.minRiskReward),
      ("max_signals_per_day", .int trial.maxSignalsPerDay)])]

def buildValidationSettingsPatch : Yaml.Entries :=
  [("max_bars_in_trade", .int trial.maxBarsInTrade),
    ("risk_pct_per_trade", .float trial.riskPctPerTrade)]

end TrialParams

namespace ConfigLibrary

variable {Text : Type} (lib : ConfigLibrary Text)

/-- The patch of `build_provider_write_patches` for an override. -/
def providerWritePatch (override : Yaml.Entries) : Except PyError ProviderPatch := do
  let enabled ← (Yaml.map override).item "enabled"
  let weight ← lib.toFloat (← (Yaml.map override).item "weight")
  return {
    fields := [("enabled", .bool enabled.truthy), ("weight", .float weight)]
    params := some (overrideParams override) }

/-- One write after another, until one raises. -/
def writes {α : Type} (write : ConfigDir Text → α → ConfigDir Text × Except PyError Unit) :
    ConfigDir Text → List α → ConfigDir Text × Except PyError Unit
  | dir, [] => (dir, .ok ())
  | dir, a :: rest =>
    match write dir a with
    | (dir, .ok ()) => writes write dir rest
    | (dir, .error e) => (dir, .error e)

def writeProviderPatches (overrides : List (String × Yaml.Entries)) (dir : ConfigDir Text) :
    ConfigDir Text × Except PyError Unit :=
  match overrides.mapM fun e => (lib.providerWritePatch e.2).map fun patch => (e.1, patch) with
  | .error e => (dir, .error e)
  | .ok patches => writes (fun dir patch => lib.writeProviderConfig dir patch.1 patch.2) dir patches

/-- `_apply_trial_params` -/
def applyTrialParams (trial : TrialParams) (dir : ConfigDir Text) :
    ConfigDir Text × Except PyError Unit :=
  writes (fun dir write => write dir) dir [
    (lib.writeEngineConfig · trial.buildEngineWritePatch),
    lib.writeProviderPatches trial.buildProviderOverrides,
    (lib.writeValidationSettings · trial.buildValidationSettingsPatch),
    (lib.writeFeaturesConfig · trial.buildFeaturesWriteKwargs)]

end ConfigLibrary

end TradingPlatform
