import TradingPlatform.Config.Trial

/-!
# The configuration of a process

A process loads the engine's and the features' configuration through `lru_cache`, and the writes of
the configuration service drop what they replace from the caches. So a cache holds what its file
loads to, whatever the order of loads and writes; the fields of `ConfigProcess` say so.
-/

namespace TradingPlatform

variable {Text : Type}

/-- An empty cache is current. -/
theorem current_none {α : Type} {load : Except PyError α} (config : α)
    (h : none = some config) : load = .ok config := nomatch h

/-- The configuration directory, with what `load_engine_config` and `load_features_config` keep. -/
structure ConfigProcess (lib : ConfigLibrary Text) where
  dir : ConfigDir Text
  engineCache : Option EngineConfig := none
  featuresCache : Option FeaturesConfig := none
  engine_current : ∀ config, engineCache = some config →
    lib.loadEngineConfig dir = .ok config
  features_current : ∀ config, featuresCache = some config →
    lib.loadFeaturesConfig dir = .ok config

/-- A load through a cache. -/
def cachedLoad {α : Type} (cache : Option α) (load : Except PyError α) : Except PyError α :=
  match cache with
  | some config => .ok config
  | none => load

/-- A cache after a load through it. -/
def cacheAfter {α : Type} (cache : Option α) (load : Except PyError α) : Option α :=
  cache <|> load.toOption

/-- A current cache gives what a load gives. -/
theorem cachedLoad_eq {α : Type} {cache : Option α} {load : Except PyError α}
    (h : ∀ config, cache = some config → load = .ok config) : cachedLoad cache load = load := by
  cases cache with
  | none => rfl
  | some config => exact (h config rfl).symm

theorem cacheAfter_current {α : Type} {cache : Option α} {load : Except PyError α}
    (h : ∀ config, cache = some config → load = .ok config) (config : α)
    (hafter : cacheAfter cache load = some config) : load = .ok config := by
  cases cache with
  | some config' =>
    cases hafter
    exact h config rfl
  | none =>
    cases load with
    | error e => cases hafter
    | ok config' =>
      cases hafter
      rfl

namespace ConfigProcess

variable {lib : ConfigLibrary Text} (p : ConfigProcess lib)

/-- A process that has loaded nothing yet. -/
def started (dir : ConfigDir Text) : ConfigProcess lib where
  dir := dir
  engine_current := current_none
  features_current := current_none

/-! ## Loads -/

/-- `load_engine_config()` -/
def loadEngineConfig : ConfigProcess lib × Except PyError EngineConfig :=
  ({ p with
    engineCache := cacheAfter p.engineCache (lib.loadEngineConfig p.dir)
    engine_current := cacheAfter_current p.engine_current },
    cachedLoad p.engineCache (lib.loadEngineConfig p.dir))

/-- `load_features_config()` -/
def loadFeaturesConfig : ConfigProcess lib × Except PyError FeaturesConfig :=
  ({ p with
    featuresCache := cacheAfter p.featuresCache (lib.loadFeaturesConfig p.dir)
    features_current := cacheAfter_current p.features_current },
    cachedLoad p.featuresCache (lib.loadFeaturesConfig p.dir))

@[simp] theorem dir_loadEngineConfig : p.loadEngineConfig.1.dir = p.dir := rfl

@[simp] theorem dir_loadFeaturesConfig : p.loadFeaturesConfig.1.dir = p.dir := rfl

@[simp] theorem loadEngineConfig_eq : p.loadEngineConfig.2 = lib.loadEngineConfig p.dir :=
  cachedLoad_eq p.engine_current

@[simp] theorem loadFeaturesConfig_eq : p.loadFeaturesConfig.2 = lib.loadFeaturesConfig p.dir :=
  cachedLoad_eq p.features_current

/-! ## Writes -/

/-- `write_engine_config`; the cache is dropped once the file is written. -/
def writeEngineConfig (patch : List (String × Yaml.Entries)) :
    ConfigProcess lib × Except PyError Unit :=
  match lib.rewrite (engineDocument patch) p.dir.engine with
  | .error e => (p, .error e)
  | .ok text =>
    let dir := { p.dir with engine := some text }
    ({ p with dir, engineCache := none, engine_current := current_none },
      (lib.loadEngineConfig dir).map fun _ => ())

/-- `write_features_config` -/
def writeFeaturesConfig (params : FeatureParams) : ConfigProcess lib × Except PyError Unit :=
  match lib.rewrite (featuresDocument params) p.dir.features with
  | .error e => (p, .error e)
  | .ok text =>
    ({ p with
      dir := { p.dir with features := some text }
      featuresCache := none
      features_current := current_none }, .ok ())

/-- `write_validation_settings` -/
def writeValidationSettings (patch : Yaml.Entries) : ConfigProcess lib × Except PyError Unit :=
  match lib.rewrite (validationDocument patch) p.dir.settings with
  | .error e => (p, .error e)
  | .ok text => ({ p with dir := { p.dir with settings := some text } }, .ok ())

/-- `write_provider_config` -/
def writeProviderConfig (providerId : String) (patch : ProviderPatch) :
    ConfigProcess lib × Except PyError Unit :=
  if h : providerId ∈ p.dir.providers.keys then
    match lib.rewrite (providerDocument patch) (p.dir.providers.get? providerId) with
    | .error e => (p, .error e)
    | .ok text =>
      ({ p with
        dir := p.dir.setProvider text h
        engine_current := p.engine_current
        features_current := p.features_current }, (lib.loadProviderYaml text).map fun _ => ())
  else (p, .error (.raised "FileNotFoundError"))

/-- One write after another, until one raises. -/
def writes : ConfigProcess lib →
    List (ConfigProcess lib → ConfigProcess lib × Except PyError Unit) →
    ConfigProcess lib × Except PyError Unit
  | p, [] => (p, .ok ())
  | p, write :: rest =>
    match write p with
    | (p, .ok ()) => writes p rest
    | (p, .error e) => (p, .error e)

def writeProviderPatches (overrides : List (String × Yaml.Entries)) :
    ConfigProcess lib × Except PyError Unit :=
  match overrides.mapM fun e => (lib.providerWritePatch e.2).map fun patch => (e.1, patch) with
  | .error e => (p, .error e)
  | .ok patches => p.writes (patches.map fun patch p => p.writeProviderConfig patch.1 patch.2)

/-- `_apply_trial_params` -/
def applyTrialParams (trial : TrialParams) : ConfigProcess lib × Except PyError Unit :=
  p.writes [
    (·.writeEngineConfig trial.buildEngineWritePatch),
    (·.writeProviderPatches trial.buildProviderOverrides),
    (·.writeValidationSettings trial.buildValidationSettingsPatch),
    (·.writeFeaturesConfig trial.buildFeaturesWriteKwargs)]

end ConfigProcess

/-- A write of the configuration service, or the writes of a sweep that is applied. -/
inductive ConfigWrite
  | engine (patch : List (String × Yaml.Entries))
  | provider (providerId : String) (patch : ProviderPatch)
  | validation (patch : Yaml.Entries)
  | features (params : FeatureParams)
  | sweep (trial : TrialParams)

/-- The process after a write, which may have raised. -/
def ConfigProcess.write {lib : ConfigLibrary Text} (p : ConfigProcess lib) :
    ConfigWrite → ConfigProcess lib
  | .engine patch => (p.writeEngineConfig patch).1
  | .provider providerId patch => (p.writeProviderConfig providerId patch).1
  | .validation patch => (p.writeValidationSettings patch).1
  | .features params => (p.writeFeaturesConfig params).1
  | .sweep trial => (p.applyTrialParams trial).1

end TradingPlatform
