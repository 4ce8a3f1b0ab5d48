import TradingPlatform.Config.Process

/-!
# The configuration of a validation run

`run_validation_job` takes the configuration of the engine, of the providers and of the features
from its arguments where these are given, as a strategy preset gives them, and else from the files.
The files of the engine and of the features are read through `lru_cache`, and another process may
have written them since.
-/

namespace TradingPlatform

variable {Text : Type}

/-- What a run executes. Of the providers only those enabled are called. -/
structure RunConfig where
  engine : EngineValues
  features : FeaturesConfig
  providers : List ProviderConfig

/-- The configurations among the arguments of `run_validation_job`. -/
structure RunOverrides where
  engineConfig : Option EngineValues := none
  providerOverrides : Option (List (String × Yaml.Entries)) := none
  featuresConfig : Option FeaturesConfig := none

/-! ## Presets -/

/-- The arguments a preset gives. -/
structure RunKwargs extends RunOverrides where
  executionConfig : Option ExecutionValues := none
  riskLimits : Option RiskLimits := none

def baselineProviders : List String :=
  ["ema_crossover", "rsi_divergence", "macd_momentum", "adx_trend_strength", "bollinger_reversion",
    "supertrend_trend", "volume_order_flow", "market_structure"]

/-- `_managed_long_core`, of the features in `features.core_long.yaml`. -/
def managedLongCore (features : FeaturesConfig) : RunKwargs where
  engineConfig := some {
    minAgreeingProviders := 1
    method := .weightedMajority
    minAtrPct := 0
    allowedSessions := ["ASIA", "EUROPE", "US", "OVERLAP"]
    maxDailyDrawdownPct := 100
    maxSignalsPerDay := 100
    minConfidence := 3 / 5
    minRiskReward := 0
    maxOpenPositions := 1
    maxExposurePct := 100
    volTargetAtrPct := 5 / 2
    volTargetCap := 3 / 2 }
  providerOverrides := some (
    (baselineProviders.map fun providerId => (providerId, [("enabled", .bool false)])) ++
      [("core_long", [("enabled", .bool true), ("sma_indicator", .str "sma_150"),
        ("confidence", .float (9 / 10)), ("min_confidence", .float (3 / 5)),
        ("regime_off_side", .str "SELL"), ("use_atr_stops", .bool true),
        ("sl_atr_mult", .float 1000), ("tp_atr_mult", .float 1000)])])
  featuresConfig := some features
  executionConfig := some {
    maxBarsInTrade := 1000000
    riskPctPerTrade := 1
    longOnly := true
    exposurePctPerTrade := 100 }
  riskLimits := some {
    maxDailyDrawdownPct := 100
    maxOpenPositions := 1
    maxExposurePct := 100
    maxConsecutiveLosses := 100000 }

structure StrategyPreset where
  key : String
  timeframe : String := "1h"
  /-- `run_kwargs`, of what `features.core_long.yaml` loads to. -/
  runKwargs : Except PyError FeaturesConfig → Except PyError RunKwargs := fun _ => .ok {}

namespace StrategyPreset

def baseline : StrategyPreset where
  key := "baseline"

def managedLongCore : StrategyPreset where
  key := "managed_long_core"
  timeframe := "1d"
  runKwargs coreLong := coreLong.map TradingPlatform.managedLongCore

end StrategyPreset

/-- `resolve_preset` -/
def resolvePreset (key : Option String) : StrategyPreset :=
  if key = some "managed_long_core" then .managedLongCore else .baseline

/-! ## Files and arguments -/

namespace ConfigLibrary

variable (lib : ConfigLibrary Text)

/-- The providers of a run. -/
def runProviders (dir : ConfigDir Text) (overrides : Option (List (String × Yaml.Entries))) :
    Except PyError (List ProviderConfig) :=
  match overrides with
  | some overrides => lib.buildProvidersFromOverrides overrides dir
  | none => (lib.loadProviders dir).map (List.filter (·.enabled))

end ConfigLibrary

/-- The loads of a process that are cached. -/
inductive ConfigLoad
  | engine
  | features
  | fillModel

/-- A process that reads the files, with what it keeps of them. Where another process has written a
file since, a cache is not current. -/
structure ConfigReader (Text : Type) where
  dir : ConfigDir Text
  engineCache : Option EngineConfig := none
  featuresCache : Option FeaturesConfig := none
  /-- The settings the default fill model was loaded from. -/
  settingsCache : Option (Option Text) := none

namespace ConfigReader

variable (lib : ConfigLibrary Text) (r : ConfigReader Text)

/-- `engine_config or load_engine_config()` -/
def engineConfig (override : Option EngineValues) :
    ConfigReader Text × Except PyError EngineValues :=
  match override with
  | some config => (r, .ok config)
  | none =>
    ({ r with engineCache := cacheAfter r.engineCache (lib.loadEngineConfig r.dir) },
      (cachedLoad r.engineCache (lib.loadEngineConfig r.dir)).map EngineConfig.values)

/-- The features a `DefaultFeatureBuilder` is built with. -/
def featuresConfig (override : Option FeaturesConfig) :
    ConfigReader Text × Except PyError FeaturesConfig :=
  match override with
  | some config => (r, .ok config)
  | none =>
    ({ r with featuresCache := cacheAfter r.featuresCache (lib.loadFeaturesConfig r.dir) },
      cachedLoad r.featuresCache (lib.loadFeaturesConfig r.dir))

/-- What `run_validation_job` builds its runtime of. -/
def runConfig (overrides : RunOverrides) : ConfigReader Text × Except PyError RunConfig :=
  match lib.runProviders r.dir overrides.providerOverrides with
  | .error e => (r, .error e)
  | .ok providers =>
    match r.featuresConfig lib overrides.featuresConfig with
    | (r, .error e) => (r, .error e)
    | (r, .ok features) =>
      match r.engineConfig lib overrides.engineConfig with
      | (r, .error e) => (r, .error e)
      | (r, .ok engine) => (r, .ok { engine, features, providers })

/-- The files a revision is computed of: of the settings it has the fill model only. -/
def hashed : ConfigDir Text := { r.dir with settings := r.settingsCache.getD r.dir.settings }

/-- The settings are kept once the fill model is loaded from them. -/
def keepSettings : ConfigReader Text := { r with settingsCache := some r.hashed.settings }

/-- `load_default_fill_model` -/
def loadFillModel : ConfigReader Text × Except PyError FillModel :=
  match lib.loadDefaultFillModel r.hashed with
  | .error e => (r, .error e)
  | .ok fillModel => (r.keepSettings, .ok fillModel)

/-- A load by any part of the process. -/
def load : ConfigLoad → ConfigReader Text
  | .engine => (r.engineConfig lib none).1
  | .features => (r.featuresConfig lib none).1
  | .fillModel => (r.loadFillModel lib).1

/-- The files after a write. A process drops from its caches what it writes itself. -/
def write (dir : ConfigDir Text) (dropsEngine dropsFeatures : Bool) : ConfigReader Text :=
  { r with
    dir
    engineCache := if dropsEngine then none else r.engineCache
    featuresCache := if dropsFeatures then none else r.featuresCache }

variable {lib r} {overrides : RunOverrides} {config : RunConfig}

theorem engineConfig_featuresConfig (lib : ConfigLibrary Text) (features : Option FeaturesConfig)
    (engine : Option EngineValues) :
    ((r.featuresConfig lib features).1.engineConfig lib engine).2 =
      (r.engineConfig lib engine).2 := by
  cases features <;> cases engine <;> rfl

/-- The files are the same, and so are the settings that are kept. -/
def SameFiles (r r' : ConfigReader Text) : Prop :=
  r'.dir = r.dir ∧ r'.settingsCache = r.settingsCache

theorem SameFiles.trans {r r' r'' : ConfigReader Text} (h : r.SameFiles r')
    (h' : r'.SameFiles r'') : r.SameFiles r'' := ⟨h'.1.trans h.1, h'.2.trans h.2⟩

theorem sameFiles_engineConfig (override : Option EngineValues) :
    r.SameFiles (r.engineConfig lib override).1 := by
  cases override <;> exact ⟨rfl, rfl⟩

theorem sameFiles_featuresConfig (override : Option FeaturesConfig) :
    r.SameFiles (r.featuresConfig lib override).1 := by
  cases override <;> exact ⟨rfl, rfl⟩

/-- The caches hold what the files load to. -/
structure Current (lib : ConfigLibrary Text) (r : ConfigReader Text) : Prop where
  engine : ∀ config, r.engineCache = some config → lib.loadEngineConfig r.dir = .ok config
  features : ∀ config, r.featuresCache = some config → lib.loadFeaturesConfig r.dir = .ok config

/-- Loads leave the files. -/
theorem sameFiles_runConfig : r.SameFiles (r.runConfig lib overrides).1 := by
  have hfeatures : r.SameFiles (r.featuresConfig lib overrides.featuresConfig).1 :=
    sameFiles_featuresConfig _
  rw [runConfig]
  cases lib.runProviders r.dir overrides.providerOverrides with
  | error e => exact ⟨rfl, rfl⟩
  | ok providers =>
    generalize r.featuresConfig lib overrides.featuresConfig = result at hfeatures ⊢
    obtain ⟨r', e | features⟩ := result
    · exact hfeatures
    · have hengine : r'.SameFiles (r'.engineConfig lib overrides.engineConfig).1 :=
        sameFiles_engineConfig _
      dsimp only
      generalize r'.engineConfig lib overrides.engineConfig = result at hengine ⊢
      obtain ⟨r'', e | engine⟩ := result <;> exact hfeatures.trans hengine

/-- A run is configured from the providers, the features and the engine, each for itself. -/
theorem runConfig_eq_ok : (r.runConfig lib overrides).2 = .ok config ↔
    (r.engineConfig lib overrides.engineConfig).2 = .ok config.engine ∧
      (r.featuresConfig lib overrides.featuresConfig).2 = .ok config.features ∧
      lib.runProviders r.dir overrides.providerOverrides = .ok config.providers := by
  have hengine := r.engineConfig_featuresConfig lib overrides.featuresConfig
    overrides.engineConfig
  rw [← hengine, runConfig]
  cases lib.runProviders r.dir overrides.providerOverrides with
  | error e => simp
  | ok providers =>
    cases hfeatures : r.featuresConfig lib overrides.featuresConfig with
    | mk r' features =>
    cases features with
    | error e => simp
    | ok features =>
      cases hengine : r'.engineConfig lib overrides.engineConfig with
      | mk r'' engine =>
      cases engine with
      | error e => simp [hengine]
      | ok engine =>
        simp only [hengine, Except.ok.injEq]
        constructor
        · rintro rfl
          exact ⟨rfl, rfl, rfl⟩
        · rintro ⟨rfl, rfl, rfl⟩
          rfl

end ConfigReader

end TradingPlatform
