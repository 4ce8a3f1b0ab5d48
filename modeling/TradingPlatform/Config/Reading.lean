import TradingPlatform.Config.Files

/-!
# What the loaders read

A loader that returns has found its entries, and the configuration it returns has the values read
from them; conversely a configuration whose values are the ones read is returned, since a
configuration is within its bounds.
-/

namespace Yaml

variable {y : Yaml} {es : Entries} {key : String} {value : Yaml}

theorem entries_eq_ok : y.entries = .ok es ↔ y = .map es := by
  constructor
  · intro h
    cases y with
    | map es' => exact congrArg Yaml.map (Except.ok.inj h)
    | _ => cases h
  · rintro rfl
    rfl

theorem item_eq_ok :
    y.item key = .ok value ↔ ∃ es, y = .map es ∧ get? es key = some value := by
  rw [item]
  constructor
  · intro h
    obtain ⟨es, hes, h⟩ := Except.bind_eq_ok.mp h
    refine ⟨es, entries_eq_ok.mp hes, ?_⟩
    split at h
    · rename_i hget
      cases h
      exact hget
    · cases h
  · rintro ⟨es, rfl, hget⟩
    refine Except.bind_eq_ok.mpr ⟨es, rfl, ?_⟩
    rw [hget]

theorem map_item (h : get? es key = some value) : (Yaml.map es).item key = .ok value :=
  item_eq_ok.mpr ⟨es, rfl, h⟩

end Yaml

namespace TradingPlatform

/-! ## Fields -/

section Fields

variable {α : Type} {model field : String} {entries entries' : Yaml.Entries}
  {conv : Yaml → Option α} {value : Yaml} {a default : α}

theorem validated_eq_ok : validated model conv field value = .ok a ↔ conv value = some a := by
  unfold validated
  cases conv value with
  | none => exact ⟨fun h => (nomatch h), fun h => (nomatch h)⟩
  | some b => exact ⟨fun h => congrArg some (Except.ok.inj h), fun h => congrArg Except.ok
      (Option.some.inj h)⟩

theorem required_eq_ok : required model entries conv field = .ok a ↔
    ∃ value, Yaml.get? entries field = some value ∧ conv value = some a := by
  unfold required
  cases Yaml.get? entries field with
  | none => exact ⟨fun h => (nomatch h), fun ⟨_, h, _⟩ => (nomatch h)⟩
  | some value =>
    rw [validated_eq_ok]
    exact ⟨fun h => ⟨value, rfl, h⟩, fun ⟨_, hvalue, h⟩ => by cases hvalue; exact h⟩

theorem defaulted_of_get? (h : Yaml.get? entries field = some value) :
    defaulted model entries conv field default = validated model conv field value := by
  rw [defaulted, h]

/-- A field is read from its own entry. -/
theorem required_congr (h : Yaml.get? entries' field = Yaml.get? entries field) :
    required model entries' conv field = required model entries conv field := by
  rw [required, required, h]

theorem defaulted_congr (h : Yaml.get? entries' field = Yaml.get? entries field) :
    defaulted model entries' conv field default = defaulted model entries conv field default := by
  rw [defaulted, defaulted, h]

theorem within_eq_ok {p : α → Prop} [DecidablePred p] {x : Except PyError α} {a : { a // p a }} :
    within model field p x = .ok a ↔ x = .ok a.1 := by
  rw [within, Except.bind_eq_ok]
  constructor
  · rintro ⟨b, rfl, h⟩
    split at h
    · cases h
      rfl
    · cases h
  · exact fun h => ⟨a.1, h, dif_pos a.2⟩

end Fields

namespace ConfigLibrary

variable {Text : Type} {lib : ConfigLibrary Text} {raw : Yaml} {entries : Yaml.Entries}

/-! ## The engine -/

theorem aggregationConfig_eq_ok {cfg : AggregationConfig} :
    lib.aggregationConfig entries = .ok cfg ↔
      required "AggregationConfig" entries lib.intField "min_agreeing_providers" =
          .ok (cfg.minAgreeingProviders : ℤ) ∧
        defaulted "AggregationConfig" entries lib.methodField "method" .weightedMajority =
          .ok cfg.method := by
  constructor
  · intro h
    obtain ⟨⟨n, hn⟩, hmin, h⟩ := Except.bind_eq_ok.mp h
    obtain ⟨method, hmethod, h⟩ := Except.bind_eq_ok.mp h
    cases h
    have hn' : ((n.toNat : ℕ) : ℤ) = n := Int.toNat_of_nonneg (by omega)
    exact ⟨(within_eq_ok.mp hmin).trans (congrArg Except.ok hn'.symm), hmethod⟩
  · rintro ⟨hmin, hmethod⟩
    have hge : 1 ≤ (cfg.minAgreeingProviders : ℤ).toNat := cfg.minAgreeingProviders_ge
    refine Except.bind_eq_ok.mpr ⟨⟨_, hge⟩, within_eq_ok.mpr hmin, ?_⟩
    exact Except.bind_eq_ok.mpr ⟨_, hmethod, rfl⟩

theorem filterConfig_eq_ok {filter : Yaml} {cfg : FilterConfig} :
    lib.filterConfig filter = .ok cfg ↔ ∃ entries, filter = .map entries ∧
      required "FilterConfig" entries lib.floatField "min_atr_pct" = .ok cfg.minAtrPct ∧
      ∃ y sessions, Yaml.get? entries "allowed_sessions" = some y ∧ y.elements = .ok sessions ∧
        sessions.mapM (validated "FilterConfig" lib.strField "allowed_sessions") =
          .ok cfg.allowedSessions := by
  constructor
  · intro h
    obtain ⟨atrPct, hatr, h⟩ := Except.bind_eq_ok.mp h
    obtain ⟨minAtrPct, hmin, h⟩ := Except.bind_eq_ok.mp h
    obtain ⟨y, hy, h⟩ := Except.bind_eq_ok.mp h
    obtain ⟨sessions, hsessions, h⟩ := Except.bind_eq_ok.mp h
    obtain ⟨allowed, hallowed, h⟩ := Except.bind_eq_ok.mp h
    cases h
    obtain ⟨entries, rfl, hget⟩ := Yaml.item_eq_ok.mp hatr
    obtain ⟨_, heq, hy⟩ := Yaml.item_eq_ok.mp hy
    cases heq
    exact ⟨entries, rfl,
      required_eq_ok.mpr ⟨atrPct, hget, validated_eq_ok.mp (within_eq_ok.mp hmin)⟩,
      y, sessions, hy, hsessions, hallowed⟩
  · rintro ⟨entries, rfl, hatr, y, sessions, hy, hsessions, hallowed⟩
    obtain ⟨atrPct, hget, hconv⟩ := required_eq_ok.mp hatr
    refine Except.bind_eq_ok.mpr ⟨atrPct, Yaml.map_item hget, ?_⟩
    refine Except.bind_eq_ok.mpr ⟨⟨_, cfg.minAtrPct_nonneg⟩,
      within_eq_ok.mpr (validated_eq_ok.mpr hconv), ?_⟩
    refine Except.bind_eq_ok.mpr ⟨y, Yaml.map_item hy, ?_⟩
    refine Except.bind_eq_ok.mpr ⟨sessions, hsessions, ?_⟩
    exact Except.bind_eq_ok.mpr ⟨_, hallowed, rfl⟩

theorem riskConfig_eq_ok {cfg : RiskConfig} : lib.riskConfig entries = .ok cfg ↔
    required "RiskConfig" entries lib.floatField "max_daily_drawdown_pct" =
        .ok cfg.maxDailyDrawdownPct ∧
      required "RiskConfig" entries lib.intField "max_signals_per_day" =
        .ok cfg.maxSignalsPerDay ∧
      required "RiskConfig" entries lib.floatField "min_confidence" = .ok cfg.minConfidence ∧
      required "RiskConfig" entries lib.floatField "min_risk_reward" = .ok cfg.minRiskReward ∧
      required "RiskConfig" entries lib.intField "max_open_positions" = .ok cfg.maxOpenPositions ∧
      required "RiskConfig" entries lib.floatField "max_exposure_pct" = .ok cfg.maxExposurePct ∧
      defaulted "RiskConfig" entries lib.floatField "vol_target_atr_pct" 0 =
        .ok cfg.volTargetAtrPct ∧
      defaulted "RiskConfig" entries lib.floatField "vol_target_cap" (3 / 2) =
        .ok cfg.volTargetCap := by
  constructor
  · intro h
    obtain ⟨_, hdrawdown, h⟩ := Except.bind_eq_ok.mp h
    obtain ⟨_, hsignals, h⟩ := Except.bind_eq_ok.mp h
    obtain ⟨_, hconfidence, h⟩ := Except.bind_eq_ok.mp h
    obtain ⟨_, hreward, h⟩ := Except.bind_eq_ok.mp h
    obtain ⟨_, hopen, h⟩ := Except.bind_eq_ok.mp h
    obtain ⟨_, hexposure, h⟩ := Except.bind_eq_ok.mp h
    obtain ⟨_, hatr, h⟩ := Except.bind_eq_ok.mp h
    obtain ⟨_, hcap, h⟩ := Except.bind_eq_ok.mp h
    cases h
    exact ⟨within_eq_ok.mp hdrawdown, within_eq_ok.mp hsignals, within_eq_ok.mp hconfidence,
      within_eq_ok.mp hreward, within_eq_ok.mp hopen, within_eq_ok.mp hexposure,
      within_eq_ok.mp hatr, within_eq_ok.mp hcap⟩
  · rintro ⟨hdrawdown, hsignals, hconfidence, hreward, hopen, hexposure, hatr, hcap⟩
    refine Except.bind_eq_ok.mpr ⟨⟨_, cfg.maxDailyDrawdownPct_nonneg⟩,
      within_eq_ok.mpr hdrawdown, ?_⟩
    refine Except.bind_eq_ok.mpr ⟨⟨_, cfg.maxSignalsPerDay_ge⟩, within_eq_ok.mpr hsignals, ?_⟩
    refine Except.bind_eq_ok.mpr ⟨⟨_, cfg.minConfidence_mem⟩, within_eq_ok.mpr hconfidence, ?_⟩
    refine Except.bind_eq_ok.mpr ⟨⟨_, cfg.minRiskReward_nonneg⟩, within_eq_ok.mpr hreward, ?_⟩
    refine Except.bind_eq_ok.mpr ⟨⟨_, cfg.maxOpenPositions_nonneg⟩, within_eq_ok.mpr hopen, ?_⟩
    refine Except.bind_eq_ok.mpr ⟨⟨_, cfg.maxExposurePct_nonneg⟩, within_eq_ok.mpr hexposure, ?_⟩
    refine Except.bind_eq_ok.mpr ⟨⟨_, cfg.volTargetAtrPct_nonneg⟩, within_eq_ok.mpr hatr, ?_⟩
    exact Except.bind_eq_ok.mpr ⟨⟨_, cfg.volTargetCap_nonneg⟩, within_eq_ok.mpr hcap, rfl⟩

/-- The engine's three sections, where the loader finds them. -/
def EngineSections (raw : Yaml) (aggregation filter risk : Yaml.Entries) : Prop :=
  ∃ top engine, raw = .map top ∧ Yaml.get? top "engine" = some (.map engine) ∧
    Yaml.get? engine "aggregation" = some (.map aggregation) ∧
    Yaml.get? engine "filter" = some (.map filter) ∧
    Yaml.get? engine "risk" = some (.map risk)

theorem engineConfig_eq_ok {cfg : EngineConfig} : lib.engineConfig raw = .ok cfg ↔
    ∃ aggregation filter risk, EngineSections raw aggregation filter risk ∧
      lib.aggregationConfig aggregation = .ok cfg.aggregation ∧
      lib.filterConfig (.map filter) = .ok cfg.filter ∧
      lib.riskConfig risk = .ok cfg.risk := by
  constructor
  · intro h
    obtain ⟨engine, hengine, h⟩ := Except.bind_eq_ok.mp h
    obtain ⟨aggY, haggY, h⟩ := Except.bind_eq_ok.mp h
    obtain ⟨agg, hagg, h⟩ := Except.bind_eq_ok.mp h
    obtain ⟨aggregation, haggregation, h⟩ := Except.bind_eq_ok.mp h
    obtain ⟨filterY, hfilterY, h⟩ := Except.bind_eq_ok.mp h
    obtain ⟨filter, hfilter, h⟩ := Except.bind_eq_ok.mp h
    obtain ⟨riskY, hriskY, h⟩ := Except.bind_eq_ok.mp h
    obtain ⟨risk, hrisk, h⟩ := Except.bind_eq_ok.mp h
    obtain ⟨riskC, hriskC, h⟩ := Except.bind_eq_ok.mp h
    cases h
    cases Yaml.entries_eq_ok.mp hagg
    cases Yaml.entries_eq_ok.mp hrisk
    obtain ⟨fil, rfl, _⟩ := filterConfig_eq_ok.mp hfilter
    obtain ⟨top, rfl, htop⟩ := Yaml.item_eq_ok.mp hengine
    obtain ⟨eng, rfl, hgetAgg⟩ := Yaml.item_eq_ok.mp haggY
    obtain ⟨_, heq, hgetFilter⟩ := Yaml.item_eq_ok.mp hfilterY
    cases heq
    obtain ⟨_, heq, hgetRisk⟩ := Yaml.item_eq_ok.mp hriskY
    cases heq
    exact ⟨agg, fil, risk, ⟨top, eng, rfl, htop, hgetAgg, hgetFilter, hgetRisk⟩, haggregation,
      hfilter, hriskC⟩
  · rintro ⟨agg, fil, risk, ⟨top, eng, rfl, htop, haggY, hfilterY, hriskY⟩, haggregation,
      hfilter, hrisk⟩
    refine Except.bind_eq_ok.mpr ⟨.map eng, Yaml.map_item htop, ?_⟩
    refine Except.bind_eq_ok.mpr ⟨.map agg, Yaml.map_item haggY, ?_⟩
    refine Except.bind_eq_ok.mpr ⟨agg, rfl, ?_⟩
    refine Except.bind_eq_ok.mpr ⟨_, haggregation, ?_⟩
    refine Except.bind_eq_ok.mpr ⟨.map fil, Yaml.map_item hfilterY, ?_⟩
    refine Except.bind_eq_ok.mpr ⟨_, hfilter, ?_⟩
    refine Except.bind_eq_ok.mpr ⟨.map risk, Yaml.map_item hriskY, ?_⟩
    refine Except.bind_eq_ok.mpr ⟨risk, rfl, ?_⟩
    exact Except.bind_eq_ok.mpr ⟨_, hrisk, rfl⟩

/-! ## The settings -/

theorem executionConfig_eq_ok {cfg : ValidationExecutionConfig} :
    lib.executionConfig raw = .ok cfg ↔ ∃ top validation, raw = .map top ∧
      (Yaml.get? top "validation").getD (.map []) = .map validation ∧
      cfg.longOnly = ((Yaml.get? validation "long_only").getD (.bool false)).truthy ∧
      lib.toFloat ((Yaml.get? validation "exposure_pct_per_trade").getD (.float 0)) =
        .ok cfg.exposurePctPerTrade ∧
      defaulted "ValidationExecutionConfig" validation lib.intField "max_bars_in_trade" 48 =
        .ok (cfg.maxBarsInTrade : ℤ) ∧
      defaulted "ValidationExecutionConfig" validation lib.floatField "risk_pct_per_trade" 1 =
        .ok cfg.riskPctPerTrade := by
  constructor
  · intro h
    obtain ⟨y, hy, h⟩ := Except.bind_eq_ok.mp h
    obtain ⟨validation, hvalidation, h⟩ := Except.bind_eq_ok.mp h
    obtain ⟨exposure, hexposure, h⟩ := Except.bind_eq_ok.mp h
    obtain ⟨⟨n, hn⟩, hbars, h⟩ := Except.bind_eq_ok.mp h
    obtain ⟨_, hrisk, h⟩ := Except.bind_eq_ok.mp h
    obtain ⟨exposure', hexposure', h⟩ := Except.bind_eq_ok.mp h
    cases h
    obtain ⟨top, htop, hy⟩ := Except.bind_eq_ok.mp hy
    cases Yaml.entries_eq_ok.mp htop
    cases hy
    have hn' : ((n.toNat : ℕ) : ℤ) = n := Int.toNat_of_nonneg (by omega)
    have heq : exposure = exposure'.1 := Except.ok.inj (within_eq_ok.mp hexposure')
    exact ⟨top, validation, rfl, Yaml.entries_eq_ok.mp hvalidation, rfl, heq ▸ hexposure,
      (within_eq_ok.mp hbars).trans (congrArg Except.ok hn'.symm), within_eq_ok.mp hrisk⟩
  · rintro ⟨top, validation, rfl, hvalidation, hlong, hexposure, hbars, hrisk⟩
    have hge : 1 ≤ (cfg.maxBarsInTrade : ℤ).toNat := cfg.maxBarsInTrade_ge
    rw [executionConfig, Yaml.getD]
    refine Except.bind_eq_ok.mpr ⟨Yaml.map validation, congrArg Except.ok hvalidation, ?_⟩
    refine Except.bind_eq_ok.mpr ⟨validation, rfl, ?_⟩
    refine Except.bind_eq_ok.mpr ⟨_, hexposure, ?_⟩
    refine Except.bind_eq_ok.mpr ⟨⟨_, hge⟩, within_eq_ok.mpr hbars, ?_⟩
    refine Except.bind_eq_ok.mpr ⟨⟨_, cfg.riskPctPerTrade_mem⟩, within_eq_ok.mpr hrisk, ?_⟩
    refine Except.bind_eq_ok.mpr ⟨⟨_, cfg.exposurePctPerTrade_mem⟩, within_eq_ok.mpr rfl, ?_⟩
    cases cfg
    cases hlong
    rfl

/-! ## The features -/

theorem indicatorDef_eq_ok {item : Yaml} {indicator : IndicatorDef} :
    lib.indicatorDef item = .ok indicator ↔ ∃ entries, item = .map entries ∧
      required "IndicatorDef" entries lib.strField "name" = .ok indicator.name ∧
      required "IndicatorDef" entries lib.strField "type" = .ok indicator.type ∧
      defaulted "IndicatorDef" entries (·.entries.toOption) "params" [] =
        .ok indicator.params := by
  constructor
  · intro h
    obtain ⟨entries, hentries, h⟩ := Except.bind_eq_ok.mp h
    obtain ⟨name, hname, h⟩ := Except.bind_eq_ok.mp h
    obtain ⟨type, htype, h⟩ := Except.bind_eq_ok.mp h
    obtain ⟨params, hparams, h⟩ := Except.bind_eq_ok.mp h
    cases h
    exact ⟨entries, Yaml.entries_eq_ok.mp hentries, hname, htype, hparams⟩
  · rintro ⟨entries, rfl, hname, htype, hparams⟩
    refine Except.bind_eq_ok.mpr ⟨_, hname, ?_⟩
    refine Except.bind_eq_ok.mpr ⟨_, htype, ?_⟩
    exact Except.bind_eq_ok.mpr ⟨_, hparams, rfl⟩

theorem featuresConfig_eq_ok {cfg : FeaturesConfig} :
    lib.featuresConfig raw = .ok cfg ↔ ∃ top, raw = .map top ∧
      required "FeaturesConfig" top lib.strField "version" = .ok cfg.version ∧
      (∃ y items, Yaml.get? top "indicators" = some y ∧ y.elements = .ok items ∧
        items.mapM lib.indicatorDef = .ok cfg.indicators) ∧
      (∃ items, ((Yaml.get? top "flags").getD (.list [])).elements = .ok items ∧
        items.mapM lib.flagDef = .ok cfg.flags) ∧
      ∃ context, Yaml.get? top "context" = some (.map context) ∧
        lib.contextConfig context = .ok cfg.context := by
  constructor
  · intro h
    obtain ⟨y, hy, h⟩ := Except.bind_eq_ok.mp h
    obtain ⟨version, hversion, h⟩ := Except.bind_eq_ok.mp h
    obtain ⟨indicatorsY, hindicatorsY, h⟩ := Except.bind_eq_ok.mp h
    obtain ⟨items, hitems, h⟩ := Except.bind_eq_ok.mp h
    obtain ⟨indicators, hindicators, h⟩ := Except.bind_eq_ok.mp h
    obtain ⟨flagsY, hflagsY, h⟩ := Except.bind_eq_ok.mp h
    obtain ⟨flagItems, hflagItems, h⟩ := Except.bind_eq_ok.mp h
    obtain ⟨flags, hflags, h⟩ := Except.bind_eq_ok.mp h
    obtain ⟨contextY, hcontextY, h⟩ := Except.bind_eq_ok.mp h
    obtain ⟨contextE, hcontextE, h⟩ := Except.bind_eq_ok.mp h
    obtain ⟨context, hcontext, h⟩ := Except.bind_eq_ok.mp h
    cases h
    obtain ⟨top, rfl, hget⟩ := Yaml.item_eq_ok.mp hy
    obtain ⟨_, heq, hgetIndicators⟩ := Yaml.item_eq_ok.mp hindicatorsY
    cases heq
    obtain ⟨_, heq, hgetContext⟩ := Yaml.item_eq_ok.mp hcontextY
    cases heq
    cases Yaml.entries_eq_ok.mp hcontextE
    cases hflagsY
    exact ⟨top, rfl, required_eq_ok.mpr ⟨y, hget, validated_eq_ok.mp hversion⟩,
      ⟨indicatorsY, items, hgetIndicators, hitems, hindicators⟩, ⟨flagItems, hflagItems, hflags⟩,
      contextE, hgetContext, hcontext⟩
  · rintro ⟨top, rfl, hversion, ⟨indicatorsY, items, hindicatorsY, hitems, hindicators⟩,
      ⟨flagItems, hflagItems, hflags⟩, contextE, hcontextE, hcontext⟩
    obtain ⟨y, hget, hconv⟩ := required_eq_ok.mp hversion
    refine Except.bind_eq_ok.mpr ⟨y, Yaml.map_item hget, ?_⟩
    refine Except.bind_eq_ok.mpr ⟨_, validated_eq_ok.mpr hconv, ?_⟩
    refine Except.bind_eq_ok.mpr ⟨indicatorsY, Yaml.map_item hindicatorsY, ?_⟩
    refine Except.bind_eq_ok.mpr ⟨items, hitems, ?_⟩
    refine Except.bind_eq_ok.mpr ⟨_, hindicators, ?_⟩
    refine Except.bind_eq_ok.mpr ⟨_, rfl, ?_⟩
    refine Except.bind_eq_ok.mpr ⟨flagItems, hflagItems, ?_⟩
    refine Except.bind_eq_ok.mpr ⟨_, hflags, ?_⟩
    refine Except.bind_eq_ok.mpr ⟨.map contextE, Yaml.map_item hcontextE, ?_⟩
    refine Except.bind_eq_ok.mpr ⟨contextE, rfl, ?_⟩
    exact Except.bind_eq_ok.mpr ⟨_, hcontext, rfl⟩

/-! ## The providers -/

theorem providerConfig_eq_ok {cfg : ProviderConfig} :
    lib.providerConfig raw = .ok cfg ↔ ∃ entries, raw = .map entries ∧
      required "ProviderConfig" entries lib.strField "provider_id" = .ok cfg.providerId ∧
      defaulted "ProviderConfig" entries lib.strField "version" "v1" = .ok cfg.version ∧
      defaulted "ProviderConfig" entries lib.boolField "enabled" true = .ok cfg.enabled ∧
      defaulted "ProviderConfig" entries lib.floatField "weight" 1 = .ok cfg.weight ∧
      defaulted "ProviderConfig" entries (·.entries.toOption) "params" [] = .ok cfg.params ∧
      0 ≤ cfg.weight := by
  constructor
  · intro h
    obtain ⟨entries, hentries, h⟩ := Except.bind_eq_ok.mp h
    obtain ⟨providerId, hid, h⟩ := Except.bind_eq_ok.mp h
    obtain ⟨version, hversion, h⟩ := Except.bind_eq_ok.mp h
    obtain ⟨enabled, henabled, h⟩ := Except.bind_eq_ok.mp h
    obtain ⟨weight, hweight, h⟩ := Except.bind_eq_ok.mp h
    obtain ⟨params, hparams, h⟩ := Except.bind_eq_ok.mp h
    cases h
    exact ⟨entries, Yaml.entries_eq_ok.mp hentries, hid, hversion, henabled,
      within_eq_ok.mp hweight, hparams, weight.2⟩
  · rintro ⟨entries, rfl, hid, hversion, henabled, hweight, hparams, hnonneg⟩
    refine Except.bind_eq_ok.mpr ⟨_, hid, ?_⟩
    refine Except.bind_eq_ok.mpr ⟨_, hversion, ?_⟩
    refine Except.bind_eq_ok.mpr ⟨_, henabled, ?_⟩
    refine Except.bind_eq_ok.mpr ⟨⟨_, hnonneg⟩, within_eq_ok.mpr hweight, ?_⟩
    exact Except.bind_eq_ok.mpr ⟨_, hparams, rfl⟩

section Discovered

variable {dir : ConfigDir Text} {files : List (String × ProviderConfig)} {name : String}
  {cfg : ProviderConfig} {text : Text}

theorem discoverProviderConfigs_eq_ok : lib.discoverProviderConfigs dir = .ok files ↔
    List.Forall₂ (fun file f => lib.loadProviderYaml file.2 = .ok f.2 ∧ file.1 = f.1)
      dir.providers.entries files := by
  rw [discoverProviderConfigs, Except.mapM_eq_ok]
  refine iff_of_eq (congrArg (List.Forall₂ · dir.providers.entries files) ?_)
  funext file f
  rw [Except.map_eq_ok]
  refine propext ⟨?_, fun ⟨hload, hname⟩ => ⟨f.2, hload, by rw [hname]⟩⟩
  rintro ⟨cfg, hload, rfl⟩
  exact ⟨hload, rfl⟩

theorem discovered_text (h : lib.discoverProviderConfigs dir = .ok files)
    (hmem : (name, cfg) ∈ files) :
    ∃ text, dir.providers.get? name = some text ∧ lib.loadProviderYaml text = .ok cfg := by
  obtain ⟨⟨name', text⟩, hfile, hload⟩ := Except.mem_of_mapM_eq_ok h hmem
  obtain ⟨cfg', hload, heq⟩ := Except.map_eq_ok.mp hload
  cases heq
  exact ⟨text, Dict.mem_entries_iff.mp hfile, hload⟩

theorem keys_discovered (h : lib.discoverProviderConfigs dir = .ok files) :
    files.map Prod.fst = dir.providers.keys := by
  rw [discoverProviderConfigs_eq_ok] at h
  rw [Dict.keys]
  generalize dir.providers.entries = entries at h
  induction h with
  | nil => rfl
  | cons hfile _ ih => rw [List.map_cons, List.map_cons, ih, hfile.2]

end Discovered

end ConfigLibrary

end TradingPlatform
