import TradingPlatform.Config.Files

/-!
# The configuration service

`write_engine_config`, `write_provider_config`, `write_validation_settings` and
`write_features_config` load a file, put the entries of a patch into its document and dump it again.
A write that raises may have written its file: the engine's and the providers' are loaded back
afterwards, and only then found to be out of bounds.
-/

namespace TradingPlatform

/-- The patch of `write_provider_config`: its entries for `enabled`, `weight` and `version`, and the
parameters. -/
structure ProviderPatch where
  fields : Yaml.Entries
  params : Option Yaml.Entries

/-- The arguments of `write_features_config`. -/
structure FeatureParams where
  emaFast : ℤ
  emaSlow : ℤ
  rsiPeriod : ℤ
  macdFast : ℤ := 12
  macdSlow : ℤ := 26
  macdSignalPeriod : ℤ := 9
  adxPeriod : ℤ := 14
  bbPeriod : ℤ := 20
  bbStd : ℚ := 2
  stPeriod : ℤ := 10
  stMultiplier : ℚ := 3
  volPeriod : ℤ := 20
  msPivotBars : ℤ := 5

def macdNames : List String := ["macd", "macd_signal", "macd_histogram", "macd_histogram_slope"]
def adxNames : List String := ["adx_14", "plus_di_14", "minus_di_14"]
def bbNames : List String := ["bb_upper", "bb_lower", "bb_middle"]
def stNames : List String := ["supertrend", "supertrend_direction"]
def volNames : List String := ["cmf_20", "volume_ratio_20"]
def msNames : List String := ["ms_bias", "ms_bos"]

/-- The parameters put into an indicator, by its name. -/
def FeatureParams.patch (params : FeatureParams) (name : String) : Option Yaml.Entries :=
  if name = "ema_12" then some [("period", .int params.emaFast)]
  else if name = "ema_26" then some [("period", .int params.emaSlow)]
  else if name = "rsi_14" then some [("period", .int params.rsiPeriod)]
  else if name ∈ macdNames then
    some [("fast", .int params.macdFast), ("slow", .int params.macdSlow),
      ("signal", .int params.macdSignalPeriod)]
  else if name ∈ adxNames then some [("period", .int params.adxPeriod)]
  else if name ∈ bbNames then some [("period", .int params.bbPeriod), ("std", .float params.bbStd)]
  else if name ∈ stNames then
    some [("period", .int params.stPeriod), ("multiplier", .float params.stMultiplier)]
  else if name ∈ volNames then some [("period", .int params.volPeriod)]
  else if name ∈ msNames then some [("pivot_bars", .int params.msPivotBars)]
  else none

/-! ## The documents written -/

/-- `entries.setdefault(key, {}).update(patch)` -/
def updateSection (key : String) (patch entries : Yaml.Entries) : Except PyError Yaml.Entries := do
  let old ← ((Yaml.get? entries key).getD (.map [])).entries
  return Yaml.put key (.map (Yaml.update patch old)) entries

/-- The document of `write_engine_config`; the patch has the entries of each section. -/
def engineDocument (patch : List (String × Yaml.Entries)) (raw : Yaml) : Except PyError Yaml := do
  let top ← raw.entries
  let engine ← ((Yaml.get? top "engine").getD (.map [])).entries
  let engine ← ["aggregation", "filter", "risk"].foldlM (fun engine sectionName =>
    match patch.find? fun e => decide (e.1 = sectionName) with
    | some values => updateSection sectionName values.2 engine
    | none => return engine) engine
  return .map (Yaml.put "engine" (.map engine) top)

/-- `for key in keys: if key in patch: entries[key] = patch[key]` -/
def putGiven (keys : List String) (patch entries : Yaml.Entries) : Yaml.Entries :=
  keys.foldl (fun entries key =>
    match Yaml.get? patch key with
    | some value => Yaml.put key value entries
    | none => entries) entries

/-- The document of `write_provider_config`. -/
def providerDocument (patch : ProviderPatch) (raw : Yaml) : Except PyError Yaml := do
  let entries := putGiven ["enabled", "weight", "version"] patch.fields (← raw.entries)
  match patch.params with
  | some params => return .map (← updateSection "params" params entries)
  | none => return .map entries

/-- The document of `write_validation_settings`. -/
def validationDocument (patch : Yaml.Entries) (raw : Yaml) : Except PyError Yaml := do
  let top ← raw.entries
  let validation ← ((Yaml.get? top "validation").getD (.map [])).entries
  return .map (Yaml.put "validation"
    (.map (putGiven ["max_bars_in_trade", "risk_pct_per_trade"] patch validation)) top)

/-- An indicator as `write_features_config` leaves it. -/
def indicatorDocument (params : FeatureParams) (indicator : Yaml) : Except PyError Yaml := do
  let entries ← indicator.entries
  match Yaml.get? entries "name" with
  | some (.str name) =>
    match params.patch name with
    | some patch => return .map (← updateSection "params" patch entries)
    | none => return indicator
  | _ => return indicator

/-- The document of `write_features_config`. -/
def featuresDocument (params : FeatureParams) (raw : Yaml) : Except PyError Yaml := do
  let top ← raw.entries
  match Yaml.get? top "indicators" with
  | none => return raw
  | some indicators =>
    let items ← (← indicators.elements).mapM (indicatorDocument params)
    match indicators with
    | .list _ => return .map (Yaml.put "indicators" (.list items) top)
    | _ => return raw

/-! ## The writes -/

namespace ConfigLibrary

variable {Text : Type} (lib : ConfigLibrary Text) (dir : ConfigDir Text)

/-- A file with its document replaced. -/
def rewrite (document : Yaml → Except PyError Yaml) (file : Option Text) : Except PyError Text := do
  return lib.safeDump (← document (← lib.loadFile file))

def writeEngineConfig (patch : List (String × Yaml.Entries)) :
    ConfigDir Text × Except PyError Unit :=
  match lib.rewrite (engineDocument patch) dir.engine with
  | .error e => (dir, .error e)
  | .ok text =>
    let dir := { dir with engine := some text }
    (dir, (lib.loadEngineConfig dir).map fun _ => ())

def writeValidationSettings (patch : Yaml.Entries) : ConfigDir Text × Except PyError Unit :=
  match lib.rewrite (validationDocument patch) dir.settings with
  | .error e => (dir, .error e)
  | .ok text => ({ dir with settings := some text }, .ok ())

def writeFeaturesConfig (params : FeatureParams) : ConfigDir Text × Except PyError Unit :=
  match lib.rewrite (featuresDocument params) dir.features with
  | .error e => (dir, .error e)
  | .ok text => ({ dir with features := some text }, .ok ())

end ConfigLibrary

namespace ConfigDir

variable {Text : Type} (dir : ConfigDir Text) {name : String} (text : Text)

theorem sorted_set (h : name ∈ dir.providers.keys) :
    ((dir.providers.set name text).keys.map fun name => (name ++ ".yaml").toList).Pairwise
      (· < ·) := by
  rw [Dict.keys_set, if_pos h]
  exact dir.sorted

/-- A provider file with a new text. -/
def setProvider (h : name ∈ dir.providers.keys) : ConfigDir Text :=
  { dir with
    providers := dir.providers.set name text
    sorted := dir.sorted_set text h }

end ConfigDir

namespace ConfigLibrary

variable {Text : Type} (lib : ConfigLibrary Text)

def writeProviderConfig (dir : ConfigDir Text) (providerId : String) (patch : ProviderPatch) :
    ConfigDir Text × Except PyError Unit :=
  if h : providerId ∈ dir.providers.keys then
    match lib.rewrite (providerDocument patch) (dir.providers.get? providerId) with
    | .error e => (dir, .error e)
    | .ok text =>
      (dir.setProvider text h, (lib.loadProviderYaml text).map fun _ => ())
  else (dir, .error (.raised "FileNotFoundError"))

end ConfigLibrary

end TradingPlatform
