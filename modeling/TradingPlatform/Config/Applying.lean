import TradingPlatform.Config.Rewriting
import TradingPlatform.Engine.Decision

/-!
# Applying a trial

A trial that is applied should leave on disk the configurations it was scored with. The builders of
a sweep put its values into the loaded configurations and do not check them, build the two averages
and the RSI anew, and pass over providers that have no file; the writes check what they have written
when they load it back, keep the types and parameters of the indicators, and need the file of each
provider.
-/

namespace TradingPlatform

variable {Text : Type} {lib : ConfigLibrary Text} {dir : ConfigDir Text} {trial : TrialParams}

/-- What the loaders read from a directory they can load. -/
structure Base (lib : ConfigLibrary Text) (dir : ConfigDir Text) where
  engine : EngineConfig
  execution : ValidationExecutionConfig
  features : FeaturesConfig
  /-- The provider configurations, with the names of their files. -/
  files : List (String × ProviderConfig)
  loadEngine : lib.loadEngineConfig dir = .ok engine
  loadExecution : lib.loadValidationExecutionConfig dir = .ok execution
  loadFeatures : lib.loadFeaturesConfig dir = .ok features
  discovered : lib.discoverProviderConfigs dir = .ok files
  known : ∀ f ∈ files, f.2.providerId ∈ providerClasses

/-- The trial has been written, and what is loaded then is what a sweep builds from the trial over
the directory as it was. -/
structure Reproduces (base : Base lib dir) (trial : TrialParams) : Prop where
  returned : (lib.applyTrialParams trial dir).2 = .ok ()
  engine : (lib.loadEngineConfig (lib.applyTrialParams trial dir).1).map EngineConfig.values =
    .ok (trial.buildEngineConfigFromTrial base.engine)
  execution : (lib.loadValidationExecutionConfig (lib.applyTrialParams trial dir).1).map
      ValidationExecutionConfig.values =
    .ok (trial.buildExecutionConfigFromTrial base.execution)
  indicators : (lib.loadFeaturesConfig (lib.applyTrialParams trial dir).1).map
      FeaturesConfig.indicators =
    .ok (trial.buildFeaturesConfigFromTrial base.features).indicators
  providers : (lib.loadProviders (lib.applyTrialParams trial dir).1).map
      (List.filter fun provider => provider.enabled) =
    lib.buildProvidersFromOverrides trial.buildProviderOverrides dir

/-- The averages and the RSI have their types, and no parameter but the period. -/
def IndicatorDef.Standard (indicator : IndicatorDef) : Prop :=
  ∀ type, (indicator.name, type) ∈ [("ema_12", "ema"), ("ema_26", "ema"), ("rsi_14", "rsi")] →
    indicator.type = type ∧ ∀ e ∈ indicator.params, e.1 = "period"

def TrialParams.weights (trial : TrialParams) : List ℚ :=
  [trial.emaWeight, trial.rsiWeight, trial.macdWeight, trial.adxWeight, trial.bbWeight,
    trial.stWeight, trial.volWeight, trial.msWeight]

/-- The providers a trial has an override for. -/
def trialProviders : List String :=
  ["ema_crossover", "rsi_divergence", "macd_momentum", "adx_trend_strength", "bollinger_reversion",
    "supertrend_trend", "volume_order_flow", "market_structure"]

/-- The trial is within the bounds of the configurations, each of its providers has a file, the
indicators are standard, and the enabled providers are the same whether the overrides are put in
under the names of the files or under the providers' own. -/
structure Reproducible (base : Base lib dir) (trial : TrialParams) : Prop where
  engine : trial.EngineInBounds
  execution : trial.ExecutionInBounds
  weights : ∀ weight ∈ trial.weights, 0 ≤ weight
  files : ∀ name ∈ trialProviders, name ∈ dir.providers.keys
  indicators : ∀ indicator ∈ base.features.indicators, indicator.Standard
  names : (base.files.map fun f => f.2.overrideAs trial.buildProviderOverrides f.1).filter
      (fun provider => provider.enabled) =
    (base.files.map fun f => f.2.overrideAs trial.buildProviderOverrides f.2.providerId).filter
      fun provider => provider.enabled

/-! ## The overrides of a trial -/

theorem TrialParams.names_buildProviderOverrides :
    trial.buildProviderOverrides.map Prod.fst = trialProviders := rfl

theorem TrialParams.nodup_buildProviderOverrides (trial : TrialParams) :
    (trial.buildProviderOverrides.map Prod.fst).Nodup := by
  rw [names_buildProviderOverrides]
  decide

theorem TrialParams.fullOverride (trial : TrialParams) :
    ∀ o ∈ trial.buildProviderOverrides, FullOverride o.2 := by
  intro o ho
  simp only [buildProviderOverrides, List.mem_cons, List.not_mem_nil, or_false] at ho
  rcases ho with rfl | rfl | rfl | rfl | rfl | rfl | rfl | rfl
  all_goals
    refine ⟨rfl, rfl, ?_⟩
    simp [sharedOverride, flag, Yaml.Plain.int, Yaml.Plain.float, Yaml.Plain.bool]

theorem TrialParams.weights_buildProviderOverrides :
    trial.buildProviderOverrides.map (overrideWeight ·.2) = trial.weights := rfl

theorem TrialParams.overrides_ok_iff : (∀ o ∈ trial.buildProviderOverrides,
      o.1 ∈ dir.providers.keys ∧ 0 ≤ overrideWeight o.2) ↔
    (∀ name ∈ trialProviders, name ∈ dir.providers.keys) ∧
      ∀ weight ∈ trial.weights, 0 ≤ weight := by
  rw [← trial.names_buildProviderOverrides, ← trial.weights_buildProviderOverrides,
    List.forall_mem_map, List.forall_mem_map]
  exact forall₂_and

/-! ## The indicators -/

section Indicators

variable {indicator : IndicatorDef} {params : FeatureParams}

theorem put_eq_singleton_iff {key : String} {value : Yaml} {entries : Yaml.Entries}
    (hkeys : (entries.map Prod.fst).Nodup) :
    Yaml.put key value entries = [(key, value)] ↔ ∀ e ∈ entries, e.1 = key := by
  constructor
  · intro h e he
    have hmem : e.1 ∈ (Yaml.put key value entries).map Prod.fst := by
      rw [Yaml.put, Dict.map_fst_setEntries]
      have hmem : e.1 ∈ entries.map Prod.fst := List.mem_map_of_mem he
      split
      · exact hmem
      · exact List.mem_append_left _ hmem
    rw [h] at hmem
    exact List.mem_singleton.mp hmem
  · intro h
    cases entries with
    | nil => rfl
    | cons e rest =>
      have hrest : rest = [] := by
        cases rest with
        | nil => rfl
        | cons e' rest =>
          have heq : e.1 = e'.1 := (h e List.mem_cons_self).trans
            (h e' (List.mem_cons_of_mem _ List.mem_cons_self)).symm
          rw [List.map_cons, List.nodup_cons] at hkeys
          exact absurd (List.mem_map.mpr ⟨e', List.mem_cons_self, heq.symm⟩) hkeys.1
      rw [hrest, Yaml.put, Dict.setEntries, if_pos (h e List.mem_cons_self)]

/-- An indicator that a sweep builds anew. -/
theorem patched_eq_anew_iff {name type : String} {n : ℤ}
    (hkeys : (indicator.params.map Prod.fst).Nodup) (hname : indicator.name = name)
    (hpatch : params.patch indicator.name = some [("period", .int n)]) :
    indicator.patched params = ⟨name, type, [("period", .int n)]⟩ ↔
      indicator.type = type ∧ ∀ e ∈ indicator.params, e.1 = "period" := by
  rw [IndicatorDef.patched, hpatch, ← @put_eq_singleton_iff "period" (.int n) _ hkeys]
  simp only [IndicatorDef.mk.injEq, hname, true_and]
  rfl

/-- The two sides patch an indicator alike exactly if it is standard. -/
theorem patched_eq_fromTrial_iff (hkeys : (indicator.params.map Prod.fst).Nodup) :
    indicator.patched params = indicator.fromTrial params ↔ indicator.Standard := by
  by_cases hfast : indicator.name = "ema_12"
  · rw [IndicatorDef.fromTrial, if_pos hfast,
      patched_eq_anew_iff hkeys hfast (by rw [hfast]; rfl), IndicatorDef.Standard, hfast]
    simp
  by_cases hslow : indicator.name = "ema_26"
  · rw [IndicatorDef.fromTrial, if_neg hfast, if_pos hslow,
      patched_eq_anew_iff hkeys hslow (by rw [hslow]; rfl), IndicatorDef.Standard, hslow]
    simp
  by_cases hrsi : indicator.name = "rsi_14"
  · rw [IndicatorDef.fromTrial, if_neg hfast, if_neg hslow, if_pos hrsi,
      patched_eq_anew_iff hkeys hrsi (by rw [hrsi]; rfl), IndicatorDef.Standard, hrsi]
    simp
  · have hother : indicator.fromTrial params = indicator.patched params := by
      rw [IndicatorDef.fromTrial, if_neg hfast, if_neg hslow, if_neg hrsi]
      rfl
    refine iff_of_true hother.symm fun type htype => ?_
    simp [hfast, hslow, hrsi] at htype

/-- The parameters of a loaded indicator have distinct keys. -/
theorem nodup_params (hlib : lib.Lawful) {base : FeaturesConfig}
    (hload : lib.loadFeaturesConfig dir = .ok base) (h : indicator ∈ base.indicators) :
    (indicator.params.map Prod.fst).Nodup := by
  obtain ⟨raw, hraw, hcfg⟩ := Except.bind_eq_ok.mp hload
  have hplain : raw.Plain := hlib.plain_loadFile hraw
  obtain ⟨top, rfl, -, ⟨y, items, hget, hitems, hindicators⟩, -, -⟩ :=
    ConfigLibrary.featuresConfig_eq_ok.mp hcfg
  rcases ConfigLibrary.elements_of_indicators hitems hindicators with rfl | ⟨rfl, -⟩
  · obtain ⟨item, hitem, hread⟩ := Except.mem_of_mapM_eq_ok hindicators h
    have hitemPlain := Yaml.plain_list.mp (hplain.get? hget) item hitem
    obtain ⟨entries, rfl, -, -, hparams⟩ := ConfigLibrary.indicatorDef_eq_ok.mp hread
    rcases (ConfigLibrary.updateSection_default [] hparams).2 with hparams | hparams
    · exact (Yaml.plain_map.mp (hitemPlain.get? hparams)).1
    · rw [hparams]
      exact List.nodup_nil
  · have hnil : base.indicators = [] := (Except.ok.inj hindicators).symm
    rw [hnil] at h
    cases h

end Indicators

/-! ## The providers -/

namespace ConfigLibrary

theorem loadProviders_eq {files : List (String × ProviderConfig)}
    (hfiles : lib.discoverProviderConfigs dir = .ok files)
    (hknown : ∀ f ∈ files, f.2.providerId ∈ providerClasses) :
    lib.loadProviders dir = .ok (files.map Prod.snd) := by
  refine Except.bind_eq_ok.mpr ⟨files, hfiles, Except.mapM_eq_ok.mpr ?_⟩
  rw [List.forall₂_map_right_iff, List.forall₂_same]
  exact fun f hf => if_pos (hknown f hf)

theorem overriddenBy_eq {overrides : List (String × Yaml.Entries)} {cfg : ProviderConfig}
    (h : ∀ o ∈ overrides, FullOverride o.2) :
    lib.overriddenBy overrides cfg = .ok (cfg.overrideAs overrides cfg.providerId) := by
  rw [overriddenBy, ProviderConfig.overrideAs]
  cases hfind : overrides.find? fun e => decide (e.1 = cfg.providerId) with
  | none => rfl
  | some o => exact overridden_eq (h o (List.mem_of_find?_eq_some hfind))

/-- The providers of a sweep. -/
theorem buildProvidersFromOverrides_eq {overrides : List (String × Yaml.Entries)}
    (h : ∀ o ∈ overrides, FullOverride o.2) {files : List (String × ProviderConfig)}
    (hfiles : lib.discoverProviderConfigs dir = .ok files)
    (hknown : ∀ f ∈ files, f.2.providerId ∈ providerClasses) :
    lib.buildProvidersFromOverrides overrides dir =
      .ok ((files.map fun f => f.2.overrideAs overrides f.2.providerId).filter
        fun provider => provider.enabled) := by
  have hturn : ∀ f ∈ files, lib.buildProvider overrides f.2 =
      .ok (Option.guard (fun provider : ProviderConfig => provider.enabled)
        (f.2.overrideAs overrides f.2.providerId)) := by
    intro f hf
    have hinstantiate : instantiateProvider (f.2.overrideAs overrides f.2.providerId) =
        .ok (f.2.overrideAs overrides f.2.providerId) :=
      if_pos (by rw [ProviderConfig.providerId_overrideAs]; exact hknown f hf)
    refine Except.bind_eq_ok.mpr ⟨_, overriddenBy_eq h, ?_⟩
    rw [Option.guard, hinstantiate]
    split <;> rfl
  refine Except.bind_eq_ok.mpr ⟨files, hfiles, Except.bind_eq_ok.mpr ⟨files.map fun f =>
    Option.guard (fun provider : ProviderConfig => provider.enabled)
      (f.2.overrideAs overrides f.2.providerId), ?_, ?_⟩⟩
  · rw [Except.mapM_eq_ok, List.forall₂_map_right_iff, List.forall₂_same]
    exact hturn
  · rw [← List.filterMap_eq_filter, List.filterMap_map, List.reduceOption, List.filterMap_map]
    rfl

end ConfigLibrary

/-! ## The run of the writes -/

/-- Once the bounds hold and the files are there, every write goes through. -/
theorem applyTrialParams_ok (hlib : lib.Lawful) (base : Base lib dir)
    (hengine : trial.EngineInBounds) (hexecution : trial.ExecutionInBounds)
    (hok : ∀ o ∈ trial.buildProviderOverrides,
      o.1 ∈ dir.providers.keys ∧ 0 ≤ overrideWeight o.2) :
    ∃ dir', lib.applyTrialParams trial dir = (dir', .ok ()) ∧
      lib.loadEngineConfig dir' = .ok (hengine.config base.engine) ∧
      lib.loadValidationExecutionConfig dir' = .ok (hexecution.config base.execution) ∧
      lib.loadFeaturesConfig dir' =
        .ok { base.features with
          indicators := base.features.indicators.map
            (IndicatorDef.patched trial.buildFeaturesWriteKwargs) } ∧
      lib.discoverProviderConfigs dir' =
        .ok (base.files.map fun f => (f.1, f.2.overrideAs trial.buildProviderOverrides f.1)) := by
  obtain ⟨text₁, hwrite₁, hload₁⟩ := ConfigLibrary.writeEngineConfig_eq hlib trial base.loadEngine
  have hengine₁ := hload₁ hengine
  rw [hengine₁] at hwrite₁
  change _ = (_, Except.ok ()) at hwrite₁
  set dir₁ : ConfigDir Text := { dir with engine := some text₁ } with hdir₁
  have hfiles₁ : lib.discoverProviderConfigs dir₁ = .ok base.files := base.discovered
  obtain ⟨dir₂, hwrite₂, hother, hfiles₂⟩ := ConfigLibrary.writeProviderPatches_ok hlib
    trial.fullOverride trial.nodup_buildProviderOverrides hfiles₁ hok
  have hexecution₂ : lib.loadValidationExecutionConfig dir₂ = .ok base.execution := by
    rw [ConfigLibrary.loadValidationExecutionConfig, hother.settings]
    exact base.loadExecution
  obtain ⟨text₃, hwrite₃, hload₃⟩ :=
    ConfigLibrary.writeValidationSettings_eq hlib trial hexecution₂
  set dir₃ : ConfigDir Text := { dir₂ with settings := some text₃ } with hdir₃
  have hfeatures₃ : lib.loadFeaturesConfig dir₃ = .ok base.features := by
    rw [ConfigLibrary.loadFeaturesConfig, hdir₃, hother.features]
    exact base.loadFeatures
  obtain ⟨text₄, hwrite₄, hload₄⟩ :=
    ConfigLibrary.writeFeaturesConfig_eq trial.buildFeaturesWriteKwargs hlib hfeatures₃
  refine ⟨{ dir₃ with features := some text₄ }, ?_, ?_, hload₃ hexecution, hload₄, hfiles₂⟩
  · simp only [ConfigLibrary.applyTrialParams, ConfigLibrary.writes, hwrite₁, hwrite₂, hwrite₃,
      hwrite₄]
  · rw [ConfigLibrary.loadEngineConfig, hdir₃]
    change (lib.loadFile dir₂.engine).bind _ = _
    rw [hother.engine]
    exact hengine₁

/-- When every write went through, the files were there and the weights were not negative. -/
theorem of_applyTrialParams_ok (hlib : lib.Lawful) (base : Base lib dir)
    (hengine : trial.EngineInBounds) (h : (lib.applyTrialParams trial dir).2 = .ok ()) :
    ∀ o ∈ trial.buildProviderOverrides, o.1 ∈ dir.providers.keys ∧ 0 ≤ overrideWeight o.2 := by
  obtain ⟨text₁, hwrite₁, hload₁⟩ := ConfigLibrary.writeEngineConfig_eq hlib trial base.loadEngine
  rw [hload₁ hengine] at hwrite₁
  change _ = (_, Except.ok ()) at hwrite₁
  simp only [ConfigLibrary.applyTrialParams, ConfigLibrary.writes, hwrite₁] at h
  split at h
  · next dir₂ hwrite₂ =>
    have hfiles₁ : lib.discoverProviderConfigs { dir with engine := some text₁ } =
        .ok base.files := base.discovered
    have hok := ConfigLibrary.of_writeProviderPatches_ok hlib trial.fullOverride hfiles₁
      (congrArg Prod.snd hwrite₂)
    exact hok
  · cases h

/-- After a run whose writes all went through, what is left to compare are the indicators and the
providers. -/
theorem reproduces_iff_of_ok (hlib : lib.Lawful) (base : Base lib dir)
    (hengine : trial.EngineInBounds) (hexecution : trial.ExecutionInBounds)
    (hok : ∀ o ∈ trial.buildProviderOverrides,
      o.1 ∈ dir.providers.keys ∧ 0 ≤ overrideWeight o.2) :
    Reproduces base trial ↔
      (∀ indicator ∈ base.features.indicators, indicator.Standard) ∧
        (base.files.map fun f => f.2.overrideAs trial.buildProviderOverrides f.1).filter
            (fun provider => provider.enabled) =
          (base.files.map fun f =>
            f.2.overrideAs trial.buildProviderOverrides f.2.providerId).filter
              fun provider => provider.enabled := by
  obtain ⟨dir', hrun, hengine', hexecution', hfeatures', hfiles'⟩ :=
    applyTrialParams_ok hlib base hengine hexecution hok
  have hknown : ∀ f ∈ base.files.map fun f =>
      (f.1, f.2.overrideAs trial.buildProviderOverrides f.1),
      f.2.providerId ∈ providerClasses := List.forall_mem_map.mpr fun f hf => by
    rw [ProviderConfig.providerId_overrideAs]
    exact base.known f hf
  have hproviders := ConfigLibrary.loadProviders_eq hfiles' hknown
  rw [List.map_map] at hproviders
  have hsweep := ConfigLibrary.buildProvidersFromOverrides_eq trial.fullOverride base.discovered
    base.known
  have hstandard : base.features.indicators.map
        (IndicatorDef.patched trial.buildFeaturesWriteKwargs) =
      base.features.indicators.map (IndicatorDef.fromTrial trial.buildFeaturesWriteKwargs) ↔
      ∀ indicator ∈ base.features.indicators, indicator.Standard := by
    rw [List.map_inj_left]
    exact forall₂_congr fun indicator h =>
      patched_eq_fromTrial_iff (nodup_params hlib base.loadFeatures h)
  constructor
  · rintro ⟨-, -, -, hindicators, hsame⟩
    rw [hrun, hfeatures'] at hindicators
    rw [hrun, hproviders, hsweep] at hsame
    exact ⟨hstandard.mp (Except.ok.inj hindicators), Except.ok.inj hsame⟩
  · rintro ⟨hindicators, hsame⟩
    refine ⟨by rw [hrun], ?_, ?_, ?_, ?_⟩
    · rw [hrun, hengine', ← hengine.values_config base.engine]
      rfl
    · rw [hrun, hexecution', ← hexecution.values_config base.execution]
      rfl
    · rw [hrun, hfeatures']
      exact congrArg Except.ok (hstandard.mpr hindicators)
    · rw [hrun, hproviders, hsweep]
      exact congrArg Except.ok hsame

theorem applyTrialParams_reproduces_iff (hlib : lib.Lawful) (base : Base lib dir)
    (trial : TrialParams) : Reproduces base trial ↔ Reproducible base trial := by
  constructor
  · intro h
    obtain ⟨cfg, -, hcfg⟩ := Except.map_eq_ok.mp h.engine
    obtain ⟨exec, -, hexec⟩ := Except.map_eq_ok.mp h.execution
    have hengine := TrialParams.EngineInBounds.of_values hcfg
    have hexecution := TrialParams.ExecutionInBounds.of_values hexec
    have hok := of_applyTrialParams_ok hlib base hengine h.returned
    obtain ⟨hfiles, hweights⟩ := TrialParams.overrides_ok_iff.mp hok
    obtain ⟨hindicators, hnames⟩ := (reproduces_iff_of_ok hlib base hengine hexecution hok).mp h
    exact ⟨hengine, hexecution, hweights, hfiles, hindicators, hnames⟩
  · intro h
    have hok := TrialParams.overrides_ok_iff.mpr ⟨h.files, h.weights⟩
    exact (reproduces_iff_of_ok hlib base h.engine h.execution hok).mpr ⟨h.indicators, h.names⟩

/-- Where each file is named after its provider, the overrides go to the same providers. -/
theorem filter_overrideAs_of_names {files : List (String × ProviderConfig)}
    (h : ∀ f ∈ files, f.1 = f.2.providerId) (overrides : List (String × Yaml.Entries)) :
    (files.map fun f => f.2.overrideAs overrides f.1).filter (fun provider => provider.enabled) =
      (files.map fun f => f.2.overrideAs overrides f.2.providerId).filter
        fun provider => provider.enabled := by
  rw [List.map_congr_left fun f hf => by rw [h f hf]]

/-! ## A small directory -/

/-- The document of a flat mapping with its keys sorted. -/
def sortedKeys : Yaml → Yaml
  | .map entries => .map (entries.mergeSort fun a b => decide (a.1.toList ≤ b.1.toList))
  | y => y

/-- A library whose texts are the documents. -/
def treeLibrary : ConfigLibrary Yaml where
  safeLoad y := if y.Plain then .ok y else .error (.raised "YAMLError")
  safeDump := id
  safeDumpSorted := sortedKeys
  intField
    | .int n => some n
    | _ => none
  floatField
    | .float q => some q
    | .int n => some n
    | _ => none
  boolField
    | .bool b => some b
    | _ => none
  strField
    | .str s => some s
    | _ => none
  parseFloat _ := none

theorem treeLibrary_lawful : treeLibrary.Lawful where
  load_dump y h := if_pos h
  plain text y h := by
    simp only [treeLibrary] at h
    split at h
    · next hplain =>
      cases h
      exact hplain
    · cases h
  int _ := rfl
  float _ := rfl
  bool _ := rfl
  str y s := by
    cases y with
    | str s' => exact ⟨fun h => congrArg Yaml.str (Option.some.inj h), fun h => by cases h; rfl⟩
    | _ => exact ⟨fun h => (nomatch h), fun h => (nomatch h)⟩

def sampleEngine : Yaml :=
  .map [("engine", .map [
    ("aggregation", .map [("min_agreeing_providers", .int 1)]),
    ("filter", .map [("min_atr_pct", .float (3 / 10)), ("allowed_sessions", .list [.str "US"])]),
    ("risk", .map [("max_daily_drawdown_pct", .float 5), ("max_signals_per_day", .int 10),
      ("min_confidence", .float (1 / 2)), ("min_risk_reward", .float 2),
      ("max_open_positions", .int 1), ("max_exposure_pct", .float 100)])])]

/-- Features with a fast average of the given type. -/
def sampleFeatures (type : String) : Yaml :=
  .map [("version", .str "v2"),
    ("indicators", .list [
      .map [("name", .str "ema_12"), ("type", .str type), ("params", .map [("period", .int 12)])],
      .map [("name", .str "atr_14"), ("type", .str "atr"),
        ("params", .map [("period", .int 14)])]]),
    ("context", .map [
      ("trend", .map [("fast", .str "ema_12"), ("slow", .str "ema_12")]),
      ("volatility", .map [("atr", .str "atr_14"), ("low", .float 0), ("high", .float 1)])])]

def sampleProvider (providerId : String) : Yaml := .map [("provider_id", .str providerId)]

def sampleNames : List String :=
  ["adx_trend_strength", "bollinger_reversion", "ema_crossover", "macd_momentum",
    "market_structure", "rsi_divergence", "supertrend_trend", "volume_order_flow"]

/-- The directory with a file for each provider of a trial. -/
def sampleDir (type : String) : ConfigDir Yaml where
  engine := some sampleEngine
  features := some (sampleFeatures type)
  settings := some (.map [])
  providers := {
    entries := sampleNames.map fun name => (name, sampleProvider name)
    nodup := by decide }
  sorted := by decide

def sampleTrial : TrialParams where
  minConfidence := 3 / 5
  minRiskReward := 2
  minAgreeingProviders := 1
  slAtrMult := 3 / 2
  tpAtrMult := 3
  maxBarsInTrade := 48
  oversold := 30
  overbought := 70
  riskPctPerTrade := 1
  minAtrPct := 3 / 10
  sessionPreset := "us_only"
  maxSignalsPerDay := 10
  emaFast := 9
  emaSlow := 21
  rsiPeriod := 14
  emaWeight := 1
  rsiWeight := 1
  emaEnabled := 1
  rsiEnabled := 1
  macdFast := 12
  macdSlow := 26
  macdSignalPeriod := 9
  macdWeight := 1
  macdEnabled := 0
  requireSignalAlign := 0
  minHistogramSlope := 0
  adxPeriod := 14
  adxWeight := 1
  adxEnabled := 0
  minAdx := 25
  minDiSpread := 5
  adxRequireTrend := 0
  bbPeriod := 20
  bbStd := 2
  bbWeight := 1
  bbEnabled := 0
  bbAvoidHighVol := 0
  bbMaxAdx := 0
  stPeriod := 10
  stMultiplier := 3
  stWeight := 1
  stEnabled := 0
  stRequireTrend := 0
  volPeriod := 20
  volWeight := 1
  volEnabled := 0
  minCmf := 1 / 20
  minVolumeRatio := 6 / 5
  volRequirePriceAlign := 0
  msPivotBars := 5
  msWeight := 1
  msEnabled := 0
  msRequireBos := 0
  msRequireTrend := 0

def sampleConfig : EngineConfig :=
  { EngineConfig.solo with
    filter := { minAtrPct := 3 / 10, allowedSessions := ["US"] }
    risk := { EngineConfig.solo.risk with
      minConfidence := 1 / 2, minConfidence_mem := by norm_num
      minRiskReward := 2, minRiskReward_nonneg := by norm_num
      maxOpenPositions := 1, maxOpenPositions_nonneg := by decide
      maxExposurePct := 100, maxExposurePct_nonneg := by norm_num } }

theorem sampleEngine_loads :
    (treeLibrary.safeLoad sampleEngine).bind treeLibrary.engineConfig = .ok sampleConfig := by
  decide +kernel

def sampleBase (type : String) : Base treeLibrary (sampleDir type) where
  engine := sampleConfig
  execution := .default
  features :=
    { version := "v2"
      indicators := [⟨"ema_12", type, [("period", .int 12)]⟩,
        ⟨"atr_14", "atr", [("period", .int 14)]⟩]
      flags := []
      context := { fast := "ema_12", slow := "ema_12", atr := "atr_14", low := 0, high := 1 } }
  files := sampleNames.map fun name => (name, ⟨name, "v1", true, 1, []⟩)
  loadEngine := sampleEngine_loads
  loadExecution := rfl
  loadFeatures := rfl
  discovered := rfl
  known := by decide

theorem sampleTrial_engine : sampleTrial.EngineInBounds :=
  ⟨by decide, by decide +kernel, by decide +kernel, by decide +kernel, by decide⟩

theorem sampleTrial_execution : sampleTrial.ExecutionInBounds := ⟨by decide, by decide +kernel⟩

theorem sampleTrial_weights : ∀ weight ∈ sampleTrial.weights, 0 ≤ weight := by decide +kernel

theorem sampleNames_files : ∀ name ∈ trialProviders, name ∈ sampleNames := by decide

theorem sampleBase_names (type : String) : ∀ f ∈ (sampleBase type).files, f.1 = f.2.providerId :=
  List.forall_mem_map.mpr fun _ _ => rfl

/-- Where `ema_12` is a simple average, the sweep scores an exponential one, and the file keeps the
simple one. -/
theorem not_reproduces_sma :
    treeLibrary.Lawful ∧ ¬ Reproduces (sampleBase "sma") sampleTrial := by
  refine ⟨treeLibrary_lawful, fun h => ?_⟩
  have hok := (@TrialParams.overrides_ok_iff Yaml (sampleDir "sma") sampleTrial).mpr
    ⟨sampleNames_files, sampleTrial_weights⟩
  have hstandard := ((reproduces_iff_of_ok treeLibrary_lawful (sampleBase "sma")
    sampleTrial_engine sampleTrial_execution hok).mp h).1
  have htype := (hstandard _ List.mem_cons_self "ema" List.mem_cons_self).1
  exact absurd htype (by decide)

/-- A trial applied to a directory with the indicators of the sweep. -/
theorem reproduces_sample : Reproduces (sampleBase "ema") sampleTrial := by
  refine (applyTrialParams_reproduces_iff treeLibrary_lawful (sampleBase "ema") sampleTrial).mpr
    ⟨sampleTrial_engine, sampleTrial_execution, sampleTrial_weights, sampleNames_files, ?_,
      filter_overrideAs_of_names (sampleBase_names "ema") _⟩
  intro indicator hindicator
  rcases List.mem_cons.mp hindicator with rfl | hindicator
  · intro type htype
    simp at htype
    subst htype
    exact ⟨rfl, by decide⟩
  · cases List.mem_singleton.mp hindicator
    intro type htype
    simp at htype

end TradingPlatform
