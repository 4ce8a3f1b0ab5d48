import TradingPlatform.Engine.Aggregator
import TradingPlatform.Execution.Engine
import TradingPlatform.Lib.Outcome
import TradingPlatform.Lib.Yaml

/-!
# The configuration files

The files of the configuration directory and their loaders: `load_engine_config`,
`load_features_config`, `load_validation_execution_config`, `load_default_fill_model` and the
discovery of the providers. PyYAML and pydantic are parameters. A configuration that has been loaded
is within its bounds; a copy with updated fields need not be, so the values of a configuration are
records of their own.
-/

namespace TradingPlatform

/-! ## The values of configurations -/

/-- The fields of an `EngineConfig`, within their bounds or not. -/
structure EngineValues where
  minAgreeingProviders : ℤ
  method : AggregationMethod
  minAtrPct : ℚ
  allowedSessions : List String
  maxDailyDrawdownPct : ℚ
  maxSignalsPerDay : ℤ
  minConfidence : ℚ
  minRiskReward : ℚ
  maxOpenPositions : ℤ
  maxExposurePct : ℚ
  volTargetAtrPct : ℚ
  volTargetCap : ℚ
  deriving DecidableEq

def EngineConfig.values (config : EngineConfig) : EngineValues where
  minAgreeingProviders := config.aggregation.minAgreeingProviders
  method := config.aggregation.method
  minAtrPct := config.filter.minAtrPct
  allowedSessions := config.filter.allowedSessions
  maxDailyDrawdownPct := config.risk.maxDailyDrawdownPct
  maxSignalsPerDay := config.risk.maxSignalsPerDay
  minConfidence := config.risk.minConfidence
  minRiskReward := config.risk.minRiskReward
  maxOpenPositions := config.risk.maxOpenPositions
  maxExposurePct := config.risk.maxExposurePct
  volTargetAtrPct := config.risk.volTargetAtrPct
  volTargetCap := config.risk.volTargetCap

/-- The fields of a `ValidationExecutionConfig`. -/
structure ExecutionValues where
  maxBarsInTrade : ℤ
  riskPctPerTrade : ℚ
  longOnly : Bool
  exposurePctPerTrade : ℚ
  deriving DecidableEq

def ValidationExecutionConfig.values (config : ValidationExecutionConfig) : ExecutionValues where
  maxBarsInTrade := config.maxBarsInTrade
  riskPctPerTrade := config.riskPctPerTrade
  longOnly := config.longOnly
  exposurePctPerTrade := config.exposurePctPerTrade

structure IndicatorDef where
  name : String
  type : String
  params : Yaml.Entries

structure FlagDef where
  name : String
  expr : String
  deriving DecidableEq

/-- `ContextConfig`, less the methods and the timezone, which admit one value each. -/
structure ContextConfig where
  fast : String
  slow : String
  atr : String
  low : ℚ
  high : ℚ
  deriving DecidableEq

structure FeaturesConfig where
  version : String
  indicators : List IndicatorDef
  flags : List FlagDef
  context : ContextConfig

structure ProviderConfig where
  providerId : String
  version : String
  enabled : Bool
  weight : ℚ
  params : Yaml.Entries

/-! ## The libraries -/

/-- PyYAML, and the values pydantic takes for a field of each type. -/
structure ConfigLibrary (Text : Type) where
  safeLoad : Text → Except PyError Yaml
  safeDump : Yaml → Text
  /-- `yaml.safe_dump` with the keys of mappings sorted. -/
  safeDumpSorted : Yaml → Text
  intField : Yaml → Option ℤ
  floatField : Yaml → Option ℚ
  boolField : Yaml → Option Bool
  strField : Yaml → Option String
  /-- `float` of a text. -/
  parseFloat : String → Option ℚ

/-- Documents survive a dump, and a field takes a value of its own type; a text field takes no
other. -/
structure ConfigLibrary.Lawful {Text : Type} (lib : ConfigLibrary Text) : Prop where
  load_dump : ∀ y, y.Plain → lib.safeLoad (lib.safeDump y) = .ok y
  plain : ∀ text y, lib.safeLoad text = .ok y → y.Plain
  int : ∀ n, lib.intField (.int n) = some n
  float : ∀ q, lib.floatField (.float q) = some q
  bool : ∀ b, lib.boolField (.bool b) = some b
  str : ∀ y s, lib.strField y = some s ↔ y = .str s

end TradingPlatform

/-! ## Python on documents -/

namespace Yaml

open TradingPlatform

/-- The entries of a mapping. On anything else a subscript or an unpacking raises a `TypeError`, and
a method of `dict` an `AttributeError`; nothing here tells the two apart. -/
def entries : Yaml → Except PyError Entries
  | .map entries => .ok entries
  | _ => .error (.raised "TypeError")

/-- `y[key]` -/
def item (y : Yaml) (key : String) : Except PyError Yaml := do
  let entries ← y.entries
  match get? entries key with
  | some value => .ok value
  | none => .error (.keyError key)

/-- `y.get(key, default)` -/
def getD (y : Yaml) (key : String) (default : Yaml) : Except PyError Yaml := do
  return (get? (← y.entries) key).getD default

/-- The elements of `tuple(y)`. -/
def elements : Yaml → Except PyError (List Yaml)
  | .list items => .ok items
  | .map entries => .ok (entries.map fun e => .str e.1)
  | .str s => .ok (s.toList.map fun c => .str (String.ofList [c]))
  | _ => .error (.raised "TypeError")

/-- `bool(y)` -/
def truthy : Yaml → Bool
  | .null => false
  | .bool b => b
  | .int n => n ≠ 0
  | .float q => q ≠ 0
  | .str s => s ≠ ""
  | .date _ => true
  | .list items => !items.isEmpty
  | .map entries => !entries.isEmpty

end Yaml

namespace TradingPlatform

namespace ConfigLibrary

variable {Text : Type} (lib : ConfigLibrary Text)

/-- `float(y)` -/
def toFloat : Yaml → Except PyError ℚ
  | .bool b => .ok (if b then 1 else 0)
  | .int n => .ok n
  | .float q => .ok q
  | .str s =>
    match lib.parseFloat s with
    | some q => .ok q
    | none => .error (.valueError ("could not convert string to float: " ++ s))
  | _ => .error (.raised "TypeError")

end ConfigLibrary

section Fields

variable {α : Type} (model : String) (entries : Yaml.Entries)

/-- The value of a field of a pydantic model, validated by `conv`. -/
def validated (conv : Yaml → Option α) (field : String) (value : Yaml) : Except PyError α :=
  match conv value with
  | some a => .ok a
  | none => .error (.validationError model field)

/-- A field without a default. -/
def required (conv : Yaml → Option α) (field : String) : Except PyError α :=
  match Yaml.get? entries field with
  | some value => validated model conv field value
  | none => .error (.validationError model field)

/-- A field with a default. -/
def defaulted (conv : Yaml → Option α) (field : String) (default : α) : Except PyError α :=
  match Yaml.get? entries field with
  | some value => validated model conv field value
  | none => .ok default

/-- The bound of a field. -/
def within (field : String) (p : α → Prop) [DecidablePred p] (value : Except PyError α) :
    Except PyError { a // p a } :=
  value.bind fun a => if h : p a then .ok ⟨a, h⟩ else .error (.validationError model field)

/-- A field without a default, and its bound. -/
def requiredIn (conv : Yaml → Option α) (field : String) (p : α → Prop) [DecidablePred p] :
    Except PyError { a // p a } := within model field p (required model entries conv field)

/-- A field with a default, and its bound. -/
def defaultedIn (conv : Yaml → Option α) (field : String) (default : α) (p : α → Prop)
    [DecidablePred p] : Except PyError { a // p a } :=
  within model field p (defaulted model entries conv field default)

end Fields

/-! ## The files -/

/-- The files of the configuration directory. Those of `providers/` are given by their names without
`.yaml`, in the order of the names. -/
structure ConfigDir (Text : Type) where
  engine : Option Text
  features : Option Text
  settings : Option Text
  providers : Dict String Text
  sorted : (providers.keys.map fun name => (name ++ ".yaml").toList).Pairwise (· < ·)

namespace ConfigLibrary

variable {Text : Type} (lib : ConfigLibrary Text)

/-- `yaml.safe_load` of an open file. -/
def loadFile (file : Option Text) : Except PyError Yaml :=
  match file with
  | some text => lib.safeLoad text
  | none => .error (.raised "FileNotFoundError")

/-! ## The engine -/

/-- The field `method` of `AggregationConfig`. -/
def methodField (y : Yaml) : Option AggregationMethod := do
  let literal ← lib.strField y
  [AggregationMethod.weightedMajority, .majority, .unanimous].find? (·.literal = literal)

def aggregationConfig (entries : Yaml.Entries) : Except PyError AggregationConfig := do
  let model := "AggregationConfig"
  let minAgreeing ← requiredIn model entries lib.intField "min_agreeing_providers" (1 ≤ ·.toNat)
  let method ← defaulted model entries lib.methodField "method" .weightedMajority
  return {
    minAgreeingProviders := minAgreeing.1.toNat
    method
    minAgreeingProviders_ge := minAgreeing.2 }

def filterConfig (filter : Yaml) : Except PyError FilterConfig := do
  let model := "FilterConfig"
  let atrPct ← filter.item "min_atr_pct"
  let minAtrPct ← within model "min_atr_pct" (0 ≤ ·)
    (validated model lib.floatField "min_atr_pct" atrPct)
  let sessions ← (← filter.item "allowed_sessions").elements
  let allowedSessions ← sessions.mapM (validated model lib.strField "allowed_sessions")
  return { minAtrPct := minAtrPct.1, allowedSessions, minAtrPct_nonneg := minAtrPct.2 }

def riskConfig (entries : Yaml.Entries) : Except PyError RiskConfig := do
  let model := "RiskConfig"
  let maxDailyDrawdownPct ←
    requiredIn model entries lib.floatField "max_daily_drawdown_pct" (0 ≤ ·)
  let maxSignalsPerDay ← requiredIn model entries lib.intField "max_signals_per_day" (1 ≤ ·)
  let minConfidence ←
    requiredIn model entries lib.floatField "min_confidence" fun q => 0 ≤ q ∧ q ≤ 1
  let minRiskReward ← requiredIn model entries lib.floatField "min_risk_reward" (0 ≤ ·)
  let maxOpenPositions ← requiredIn model entries lib.intField "max_open_positions" (0 ≤ ·)
  let maxExposurePct ← requiredIn model entries lib.floatField "max_exposure_pct" (0 ≤ ·)
  let volTargetAtrPct ← defaultedIn model entries lib.floatField "vol_target_atr_pct" 0 (0 ≤ ·)
  let volTargetCap ← defaultedIn model entries lib.floatField "vol_target_cap" (3 / 2) (0 ≤ ·)
  return {
    maxDailyDrawdownPct := maxDailyDrawdownPct.1
    maxSignalsPerDay := maxSignalsPerDay.1
    minConfidence := minConfidence.1
    minRiskReward := minRiskReward.1
    maxOpenPositions := maxOpenPositions.1
    maxExposurePct := maxExposurePct.1
    volTargetAtrPct := volTargetAtrPct.1
    volTargetCap := volTargetCap.1
    maxDailyDrawdownPct_nonneg := maxDailyDrawdownPct.2
    maxSignalsPerDay_ge := maxSignalsPerDay.2
    minConfidence_mem := minConfidence.2
    minRiskReward_nonneg := minRiskReward.2
    maxOpenPositions_nonneg := maxOpenPositions.2
    maxExposurePct_nonneg := maxExposurePct.2
    volTargetAtrPct_nonneg := volTargetAtrPct.2
    volTargetCap_nonneg := volTargetCap.2 }

/-- `load_engine_config` on the document. -/
def engineConfig (raw : Yaml) : Except PyError EngineConfig := do
  let engine ← raw.item "engine"
  let aggregation ← lib.aggregationConfig (← (← engine.item "aggregation").entries)
  let filter ← lib.filterConfig (← engine.item "filter")
  let risk ← lib.riskConfig (← (← engine.item "risk").entries)
  return { aggregation, filter, risk }

def loadEngineConfig (dir : ConfigDir Text) : Except PyError EngineConfig :=
  (lib.loadFile dir.engine).bind lib.engineConfig

/-! ## The features -/

/-- `IndicatorDef(**item)` -/
def indicatorDef (item : Yaml) : Except PyError IndicatorDef := do
  let entries ← item.entries
  let name ← required "IndicatorDef" entries lib.strField "name"
  let type ← required "IndicatorDef" entries lib.strField "type"
  let params ← defaulted "IndicatorDef" entries (·.entries.toOption) "params" []
  return { name, type, params }

/-- `FlagDef(**item)` -/
def flagDef (item : Yaml) : Except PyError FlagDef := do
  let entries ← item.entries
  let name ← required "FlagDef" entries lib.strField "name"
  let expr ← required "FlagDef" entries lib.strField "expr"
  return { name, expr }

/-- A text field that admits one value, which is its default. -/
def literalField (model field literal : String) (entries : Yaml.Entries) : Except PyError Unit :=
  (defaulted model entries lib.strField field literal).bind fun s =>
    if s = literal then .ok () else .error (.validationError model field)

/-- `ContextConfig(**raw["context"])` -/
def contextConfig (entries : Yaml.Entries) : Except PyError ContextConfig := do
  let trend ← required "ContextConfig" entries (·.entries.toOption) "trend"
  lib.literalField "TrendContextConfig" "method" "ema_compare" trend
  let fast ← required "TrendContextConfig" trend lib.strField "fast"
  let slow ← required "TrendContextConfig" trend lib.strField "slow"
  let volatility ← required "ContextConfig" entries (·.entries.toOption) "volatility"
  lib.literalField "VolatilityContextConfig" "method" "atr_pct" volatility
  let atr ← required "VolatilityContextConfig" volatility lib.strField "atr"
  let low ← requiredIn "VolatilityContextConfig" volatility lib.floatField "low" (0 ≤ ·)
  let high ← requiredIn "VolatilityContextConfig" volatility lib.floatField "high" (0 ≤ ·)
  let session ← defaulted "ContextConfig" entries (·.entries.toOption) "session" []
  lib.literalField "SessionContextConfig" "timezone" "UTC" session
  return { fast, slow, atr, low := low.1, high := high.1 }

/-- `_parse_features_yaml` on the document. -/
def featuresConfig (raw : Yaml) : Except PyError FeaturesConfig := do
  let version ← validated "FeaturesConfig" lib.strField "version" (← raw.item "version")
  let indicators ← (← (← raw.item "indicators").elements).mapM lib.indicatorDef
  let flags ← (← (← raw.getD "flags" (.list [])).elements).mapM lib.flagDef
  let context ← lib.contextConfig (← (← raw.item "context").entries)
  return { version, indicators, flags, context }

def loadFeaturesConfig (dir : ConfigDir Text) : Except PyError FeaturesConfig :=
  (lib.loadFile dir.features).bind lib.featuresConfig

/-! ## The settings -/

/-- `load_validation_execution_config` on the document. -/
def executionConfig (raw : Yaml) : Except PyError ValidationExecutionConfig := do
  let model := "ValidationExecutionConfig"
  let validation ← (← raw.getD "validation" (.map [])).entries
  let longOnly := ((Yaml.get? validation "long_only").getD (.bool false)).truthy
  let exposure ← lib.toFloat ((Yaml.get? validation "exposure_pct_per_trade").getD (.float 0))
  let maxBarsInTrade ←
    defaultedIn model validation lib.intField "max_bars_in_trade" 48 (1 ≤ ·.toNat)
  let riskPctPerTrade ←
    defaultedIn model validation lib.floatField "risk_pct_per_trade" 1 fun q => 0 < q ∧ q ≤ 10
  let exposurePctPerTrade ←
    within model "exposure_pct_per_trade" (fun q => 0 ≤ q ∧ q ≤ 100) (.ok exposure)
  return {
    maxBarsInTrade := maxBarsInTrade.1.toNat
    riskPctPerTrade := riskPctPerTrade.1
    longOnly
    exposurePctPerTrade := exposurePctPerTrade.1
    maxBarsInTrade_ge := maxBarsInTrade.2
    riskPctPerTrade_mem := riskPctPerTrade.2
    exposurePctPerTrade_mem := exposurePctPerTrade.2 }

def loadValidationExecutionConfig (dir : ConfigDir Text) :
    Except PyError ValidationExecutionConfig :=
  (lib.loadFile dir.settings).bind lib.executionConfig

/-- The field `fill_at` of `FillModel`. -/
def fillAtField (s : String) : Option FillAt :=
  if s = "close" then some .close
  else if s = "next_open" then some .nextOpen
  else if s = "mid" then some .mid
  else none

/-- `load_default_fill_model` on the document. -/
def fillModel (raw : Yaml) : Except PyError FillModel := do
  let fillModels ← (← raw.getD "fill_models" (.map [])).entries
  let modelId ← validated "FillModel" lib.strField "model_id"
    ((Yaml.get? fillModels "default").getD (.str "close_price_v1"))
  let specs ← ((Yaml.get? fillModels "models").getD (.map [])).entries
  let spec ← ((Yaml.get? specs modelId).getD (.map [("slippage_bps", .int 5), ("fee_bps", .int 10),
    ("fill_at", .str "close")])).entries
  let slippageBps ← defaulted "FillModelSpec" spec lib.floatField "slippage_bps" 0
  let feeBps ← defaulted "FillModelSpec" spec lib.floatField "fee_bps" 0
  let fillAt ← defaulted "FillModelSpec" spec lib.strField "fill_at" "close"
  match fillAtField fillAt with
  | some fillAt => return { modelId, slippageBps, feeBps, fillAt }
  | none => throw (.validationError "FillModel" "fill_at")

def loadDefaultFillModel (dir : ConfigDir Text) : Except PyError FillModel :=
  (lib.loadFile dir.settings).bind lib.fillModel

/-! ## The providers -/

/-- `ProviderConfig(**raw)` -/
def providerConfig (raw : Yaml) : Except PyError ProviderConfig := do
  let model := "ProviderConfig"
  let entries ← raw.entries
  let providerId ← required model entries lib.strField "provider_id"
  let version ← defaulted model entries lib.strField "version" "v1"
  let enabled ← defaulted model entries lib.boolField "enabled" true
  let weight ← defaultedIn model entries lib.floatField "weight" 1 (0 ≤ ·)
  let params ← defaulted model entries (·.entries.toOption) "params" []
  return { providerId, version, enabled, weight := weight.1, params }

/-- `load_provider_yaml` -/
def loadProviderYaml (text : Text) : Except PyError ProviderConfig :=
  (lib.safeLoad text).bind lib.providerConfig

/-- `discover_provider_configs`, each with the name of its file. -/
def discoverProviderConfigs (dir : ConfigDir Text) :
    Except PyError (List (String × ProviderConfig)) :=
  dir.providers.entries.mapM fun file => (lib.loadProviderYaml file.2).map fun cfg => (file.1, cfg)

end ConfigLibrary

/-- The keys of `_PROVIDER_CLASSES`. -/
def providerClasses : List String :=
  ["ema_crossover", "rsi_divergence", "macd_momentum", "adx_trend_strength", "bollinger_reversion",
    "supertrend_trend", "volume_order_flow", "market_structure", "core_long"]

/-- `instantiate_provider`; a provider is given by its configuration. -/
def instantiateProvider (config : ProviderConfig) : Except PyError ProviderConfig :=
  if config.providerId ∈ providerClasses then .ok config
  else .error (.valueError ("Unknown provider_id '" ++ config.providerId ++ "'. Known: " ++
    ", ".intercalate (providerClasses.mergeSort fun a b => decide (a.toList ≤ b.toList))))

namespace ConfigLibrary

variable {Text : Type} (lib : ConfigLibrary Text)

def loadProviders (dir : ConfigDir Text) : Except PyError (List ProviderConfig) := do
  (← lib.discoverProviderConfigs dir).mapM fun file => instantiateProvider file.2

end ConfigLibrary

end TradingPlatform
