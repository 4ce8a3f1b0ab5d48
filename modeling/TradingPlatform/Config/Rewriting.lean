import TradingPlatform.Config.Reading
import TradingPlatform.Config.Trial

/-!
# What a rewritten file loads to

Each write puts a patch into one document. The patched document is as plain as the old one, and the
loader reads from it the configuration it read before, with the patch's values in the fields the
patch names, unless these are out of bounds.
-/

namespace TradingPlatform

/-! ## Trials within the bounds of the configurations -/

structure TrialParams.EngineInBounds (trial : TrialParams) : Prop where
  minAgreeingProviders : 1 ≤ trial.minAgreeingProviders
  minAtrPct : 0 ≤ trial.minAtrPct
  minConfidence : 0 ≤ trial.minConfidence ∧ trial.minConfidence ≤ 1
  minRiskReward : 0 ≤ trial.minRiskReward
  maxSignalsPerDay : 1 ≤ trial.maxSignalsPerDay

structure TrialParams.ExecutionInBounds (trial : TrialParams) : Prop where
  maxBarsInTrade : 1 ≤ trial.maxBarsInTrade
  riskPctPerTrade : 0 < trial.riskPctPerTrade ∧ trial.riskPctPerTrade ≤ 10

section InBounds

variable {trial : TrialParams}

def TrialParams.EngineInBounds.config (h : trial.EngineInBounds) (base : EngineConfig) :
    EngineConfig where
  aggregation :=
    { minAgreeingProviders := trial.minAgreeingProviders.toNat
      method := base.aggregation.method
      minAgreeingProviders_ge := Int.toNat_le_toNat h.minAgreeingProviders }
  filter :=
    { minAtrPct := trial.minAtrPct
      allowedSessions := TradingPlatform.sessionPreset trial.sessionPreset
      minAtrPct_nonneg := h.minAtrPct }
  risk :=
    { base.risk with
      maxSignalsPerDay := trial.maxSignalsPerDay
      minConfidence := trial.minConfidence
      minRiskReward := trial.minRiskReward
      maxSignalsPerDay_ge := h.maxSignalsPerDay
      minConfidence_mem := h.minConfidence
      minRiskReward_nonneg := h.minRiskReward }

def TrialParams.ExecutionInBounds.config (h : trial.ExecutionInBounds)
    (base : ValidationExecutionConfig) : ValidationExecutionConfig :=
  { base with
    maxBarsInTrade := trial.maxBarsInTrade.toNat
    riskPctPerTrade := trial.riskPctPerTrade
    maxBarsInTrade_ge := Int.toNat_le_toNat h.maxBarsInTrade
    riskPctPerTrade_mem := h.riskPctPerTrade }

theorem TrialParams.EngineInBounds.values_config (h : trial.EngineInBounds) (base : EngineConfig) :
    (h.config base).values = trial.buildEngineConfigFromTrial base := by
  have hn : ((trial.minAgreeingProviders.toNat : ℕ) : ℤ) = trial.minAgreeingProviders :=
    Int.toNat_of_nonneg (le_trans zero_le_one h.minAgreeingProviders)
  rw [EngineConfig.values, buildEngineConfigFromTrial]
  simp only [config, hn, EngineConfig.values]

theorem TrialParams.ExecutionInBounds.values_config (h : trial.ExecutionInBounds)
    (base : ValidationExecutionConfig) :
    (h.config base).values = trial.buildExecutionConfigFromTrial base := by
  have hn : ((trial.maxBarsInTrade.toNat : ℕ) : ℤ) = trial.maxBarsInTrade :=
    Int.toNat_of_nonneg (le_trans zero_le_one h.maxBarsInTrade)
  rw [ValidationExecutionConfig.values, buildExecutionConfigFromTrial]
  simp only [config, hn, ValidationExecutionConfig.values]

/-- The values of a configuration are within its bounds. -/
theorem TrialParams.EngineInBounds.of_values {cfg base : EngineConfig}
    (h : cfg.values = trial.buildEngineConfigFromTrial base) : trial.EngineInBounds := by
  have hmin : (cfg.aggregation.minAgreeingProviders : ℤ) = trial.minAgreeingProviders :=
    congrArg EngineValues.minAgreeingProviders h
  have hatr : cfg.filter.minAtrPct = trial.minAtrPct := congrArg EngineValues.minAtrPct h
  have hconfidence : cfg.risk.minConfidence = trial.minConfidence :=
    congrArg EngineValues.minConfidence h
  have hreward : cfg.risk.minRiskReward = trial.minRiskReward :=
    congrArg EngineValues.minRiskReward h
  have hsignals : cfg.risk.maxSignalsPerDay = trial.maxSignalsPerDay :=
    congrArg EngineValues.maxSignalsPerDay h
  refine ⟨?_, hatr ▸ cfg.filter.minAtrPct_nonneg, hconfidence ▸ cfg.risk.minConfidence_mem,
    hreward ▸ cfg.risk.minRiskReward_nonneg, hsignals ▸ cfg.risk.maxSignalsPerDay_ge⟩
  rw [← hmin]
  exact_mod_cast cfg.aggregation.minAgreeingProviders_ge

theorem TrialParams.ExecutionInBounds.of_values {cfg base : ValidationExecutionConfig}
    (h : cfg.values = trial.buildExecutionConfigFromTrial base) : trial.ExecutionInBounds := by
  have hbars : (cfg.maxBarsInTrade : ℤ) = trial.maxBarsInTrade :=
    congrArg ExecutionValues.maxBarsInTrade h
  have hrisk : cfg.riskPctPerTrade = trial.riskPctPerTrade :=
    congrArg ExecutionValues.riskPctPerTrade h
  refine ⟨?_, hrisk ▸ cfg.riskPctPerTrade_mem⟩
  rw [← hbars]
  exact_mod_cast cfg.maxBarsInTrade_ge

end InBounds

variable {Text : Type} {lib : ConfigLibrary Text} {dir : ConfigDir Text} {raw : Yaml}
  {entries patch old : Yaml.Entries} {key : String}

/-- Two directories that differ in the texts of the provider files only. -/
structure ConfigDir.OtherProviders (dir dir' : ConfigDir Text) : Prop where
  engine : dir'.engine = dir.engine
  features : dir'.features = dir.features
  settings : dir'.settings = dir.settings
  names : dir'.providers.keys = dir.providers.keys

theorem ConfigDir.OtherProviders.refl : dir.OtherProviders dir := ⟨rfl, rfl, rfl, rfl⟩

theorem ConfigDir.OtherProviders.trans {dir₁ dir₂ dir₃ : ConfigDir Text}
    (h : dir₁.OtherProviders dir₂) (h' : dir₂.OtherProviders dir₃) : dir₁.OtherProviders dir₃ :=
  ⟨h'.engine.trans h.engine, h'.features.trans h.features, h'.settings.trans h.settings,
    h'.names.trans h.names⟩

theorem ConfigDir.otherProviders_setProvider {name : String} {text : Text}
    (h : name ∈ dir.providers.keys) : dir.OtherProviders (dir.setProvider text h) where
  engine := rfl
  features := rfl
  settings := rfl
  names := by rw [ConfigDir.setProvider, Dict.keys_set, if_pos h]

/-! ## Documents -/

theorem updateSection_eq (h : Yaml.get? entries key = some (.map old)) :
    updateSection key patch entries =
      .ok (Yaml.put key (.map (Yaml.update patch old)) entries) := by
  rw [updateSection, h]
  rfl

theorem updateSection_eq_of_none (h : Yaml.get? entries key = none) :
    updateSection key patch entries =
      .ok (Yaml.put key (.map (Yaml.update patch [])) entries) := by
  rw [updateSection, h]
  rfl

/-- A section that is put in or updated. -/
theorem plain_put_update (h : (Yaml.map entries).Plain)
    (hold : Yaml.get? entries key = some (.map old) ∨ old = [])
    (hpatch : ∀ e ∈ patch, e.2.Plain) :
    (Yaml.map (Yaml.put key (.map (Yaml.update patch old)) entries)).Plain := by
  have hplain : (Yaml.map old).Plain := by
    rcases hold with hold | rfl
    · exact h.get? hold
    · exact .map List.nodup_nil fun e he => (nomatch he)
  exact h.put (hplain.update hpatch)

namespace ConfigLibrary

/-- A dump is loaded as the document. -/
theorem rewrite_eq (hlib : lib.Lawful) {file : Option Text} {document : Yaml → Except PyError Yaml}
    {raw' : Yaml} (hload : lib.loadFile file = .ok raw) (hdocument : document raw = .ok raw')
    (hplain : raw'.Plain) :
    ∃ text, lib.rewrite document file = .ok text ∧ lib.safeLoad text = .ok raw' := by
  refine ⟨lib.safeDump raw', ?_, hlib.load_dump raw' hplain⟩
  rw [rewrite, hload]
  change (document raw).bind _ = _
  rw [hdocument]
  rfl

theorem Lawful.plain_loadFile (hlib : lib.Lawful) {file : Option Text}
    (hload : lib.loadFile file = .ok raw) : raw.Plain := by
  cases file with
  | none => cases hload
  | some text => exact hlib.plain text raw hload

/-! ## The engine -/

/-- The document of a patch with the three sections. -/
theorem engineDocument_eq {agg fil risk : Yaml.Entries} (patchA patchF patchR : Yaml.Entries)
    (h : EngineSections raw agg fil risk) (hplain : raw.Plain)
    (hA : ∀ e ∈ patchA, e.2.Plain) (hF : ∀ e ∈ patchF, e.2.Plain) (hR : ∀ e ∈ patchR, e.2.Plain) :
    ∃ raw', engineDocument [("aggregation", patchA), ("filter", patchF), ("risk", patchR)] raw =
        .ok raw' ∧ raw'.Plain ∧
      EngineSections raw' (Yaml.update patchA agg) (Yaml.update patchF fil)
        (Yaml.update patchR risk) := by
  obtain ⟨top, eng, rfl, htop, hagg, hfil, hrisk⟩ := h
  have hfil' : Yaml.get? (Yaml.put "aggregation" (.map (Yaml.update patchA agg)) eng) "filter" =
      some (.map fil) := (Yaml.get?_put_of_ne (by decide)).trans hfil
  have hrisk' : Yaml.get? (Yaml.put "filter" (.map (Yaml.update patchF fil))
      (Yaml.put "aggregation" (.map (Yaml.update patchA agg)) eng)) "risk" =
      some (.map risk) := by
    rw [Yaml.get?_put_of_ne (by decide), Yaml.get?_put_of_ne (by decide), hrisk]
  refine ⟨.map (Yaml.put "engine" (.map (Yaml.put "risk" (.map (Yaml.update patchR risk))
    (Yaml.put "filter" (.map (Yaml.update patchF fil))
      (Yaml.put "aggregation" (.map (Yaml.update patchA agg)) eng)))) top), ?_, ?_, _, _, rfl,
    Yaml.get?_put_self, ?_, ?_, Yaml.get?_put_self⟩
  · rw [engineDocument]
    refine Except.bind_eq_ok.mpr ⟨top, rfl, ?_⟩
    refine Except.bind_eq_ok.mpr ⟨eng, by rw [htop]; rfl, ?_⟩
    refine Except.bind_eq_ok.mpr ⟨_, ?_, rfl⟩
    simp only [List.foldlM_cons, List.foldlM_nil]
    refine Except.bind_eq_ok.mpr ⟨_, updateSection_eq hagg, ?_⟩
    refine Except.bind_eq_ok.mpr ⟨_, updateSection_eq hfil', ?_⟩
    exact Except.bind_eq_ok.mpr ⟨_, updateSection_eq hrisk', rfl⟩
  · refine hplain.put (plain_put_update (plain_put_update (plain_put_update (hplain.get? htop)
      (.inl hagg) hA) (.inl hfil') hF) (.inl hrisk') hR)
  · rw [Yaml.get?_put_of_ne (by decide), Yaml.get?_put_of_ne (by decide), Yaml.get?_put_self]
  · rw [Yaml.get?_put_of_ne (by decide), Yaml.get?_put_self]

section Engine

variable {trial : TrialParams} {agg fil risk : Yaml.Entries} {base : EngineConfig}

theorem aggregationConfig_update (hlib : lib.Lawful) (h : trial.EngineInBounds)
    (hload : lib.aggregationConfig agg = .ok base.aggregation) :
    lib.aggregationConfig (Yaml.update
        [("min_agreeing_providers", .int trial.minAgreeingProviders)] agg) =
      .ok (h.config base).aggregation := by
  obtain ⟨_, hmethod⟩ := aggregationConfig_eq_ok.mp hload
  have hn : ((trial.minAgreeingProviders.toNat : ℕ) : ℤ) = trial.minAgreeingProviders :=
    Int.toNat_of_nonneg (le_trans zero_le_one h.minAgreeingProviders)
  refine aggregationConfig_eq_ok.mpr ⟨required_eq_ok.mpr ⟨_, Yaml.get?_put_self, ?_⟩, ?_⟩
  · exact (hlib.int _).trans (congrArg some hn.symm)
  · exact (defaulted_congr (Yaml.get?_put_of_ne (by simp))).trans hmethod

theorem filterConfig_update (hlib : lib.Lawful) (h : trial.EngineInBounds) :
    lib.filterConfig (.map (Yaml.update [("min_atr_pct", .float trial.minAtrPct),
        ("allowed_sessions", .list ((sessionPreset trial.sessionPreset).map Yaml.str))] fil)) =
      .ok (h.config base).filter := by
  refine filterConfig_eq_ok.mpr ⟨_, rfl, required_eq_ok.mpr ⟨_, ?_, hlib.float _⟩, _, _,
    Yaml.get?_put_self, rfl, Except.mapM_eq_ok.mpr ?_⟩
  · exact (Yaml.get?_put_of_ne (by simp)).trans Yaml.get?_put_self
  · change List.Forall₂ _ _ (sessionPreset trial.sessionPreset)
    refine List.forall₂_map_left_iff.mpr (List.forall₂_same.mpr fun s _ => ?_)
    exact validated_eq_ok.mpr ((hlib.str _ _).mpr rfl)

theorem riskConfig_update (hlib : lib.Lawful) (h : trial.EngineInBounds)
    (hload : lib.riskConfig risk = .ok base.risk) :
    lib.riskConfig (Yaml.update [("min_confidence", .float trial.minConfidence),
        ("min_risk_reward", .float trial.minRiskReward),
        ("max_signals_per_day", .int trial.maxSignalsPerDay)] risk) =
      .ok (h.config base).risk := by
  obtain ⟨hdrawdown, _, _, _, hopen, hexposure, hatr, hcap⟩ := riskConfig_eq_ok.mp hload
  have hother : ∀ {key}, key ∉ ["min_confidence", "min_risk_reward", "max_signals_per_day"] →
      Yaml.get? (Yaml.update [("min_confidence", .float trial.minConfidence),
        ("min_risk_reward", .float trial.minRiskReward),
        ("max_signals_per_day", .int trial.maxSignalsPerDay)] risk) key =
      Yaml.get? risk key :=
    fun hkey => Yaml.get?_update_of_notMem hkey
  have hself : ∀ {key value}, (key, value) ∈ [("min_confidence", Yaml.float trial.minConfidence),
        ("min_risk_reward", .float trial.minRiskReward),
        ("max_signals_per_day", .int trial.maxSignalsPerDay)] →
      Yaml.get? (Yaml.update [("min_confidence", .float trial.minConfidence),
        ("min_risk_reward", .float trial.minRiskReward),
        ("max_signals_per_day", .int trial.maxSignalsPerDay)] risk) key = some value :=
    Yaml.get?_update_of_mem (by simp)
  refine riskConfig_eq_ok.mpr ⟨?_, ?_, ?_, ?_, ?_, ?_, ?_, ?_⟩
  · exact (required_congr (hother (by decide))).trans hdrawdown
  · exact required_eq_ok.mpr ⟨_, hself (.tail _ (.tail _ (.head _))), hlib.int _⟩
  · exact required_eq_ok.mpr ⟨_, hself (.head _), hlib.float _⟩
  · exact required_eq_ok.mpr ⟨_, hself (.tail _ (.head _)), hlib.float _⟩
  · exact (required_congr (hother (by decide))).trans hopen
  · exact (required_congr (hother (by decide))).trans hexposure
  · exact (defaulted_congr (hother (by decide))).trans hatr
  · exact (defaulted_congr (hother (by decide))).trans hcap

/-- The engine's file with a trial's patch loads to the trial's engine, if that is within
bounds. -/
theorem writeEngineConfig_eq (hlib : lib.Lawful) (trial : TrialParams)
    (hload : lib.loadEngineConfig dir = .ok base) :
    ∃ text, lib.writeEngineConfig dir trial.buildEngineWritePatch =
        ({ dir with engine := some text },
          (lib.loadEngineConfig { dir with engine := some text }).map fun _ => ()) ∧
      ∀ h : trial.EngineInBounds,
        lib.loadEngineConfig { dir with engine := some text } = .ok (h.config base) := by
  obtain ⟨raw, hraw, hcfg⟩ := Except.bind_eq_ok.mp hload
  obtain ⟨agg, fil, risk, hsections, hagg, -, hrisk⟩ := engineConfig_eq_ok.mp hcfg
  obtain ⟨raw', hdocument, hplain, hsections'⟩ := engineDocument_eq
    [("min_agreeing_providers", .int trial.minAgreeingProviders)]
    [("min_atr_pct", .float trial.minAtrPct),
      ("allowed_sessions", .list ((sessionPreset trial.sessionPreset).map Yaml.str))]
    [("min_confidence", .float trial.minConfidence),
      ("min_risk_reward", .float trial.minRiskReward),
      ("max_signals_per_day", .int trial.maxSignalsPerDay)]
    hsections (hlib.plain_loadFile hraw)
    (List.forall_mem_cons.mpr ⟨.int _, List.forall_mem_nil _⟩)
    (List.forall_mem_cons.mpr ⟨.float _, List.forall_mem_cons.mpr
      ⟨.list (List.forall_mem_map.mpr fun s _ => .str s), List.forall_mem_nil _⟩⟩)
    (List.forall_mem_cons.mpr ⟨.float _, List.forall_mem_cons.mpr ⟨.float _,
      List.forall_mem_cons.mpr ⟨.int _, List.forall_mem_nil _⟩⟩⟩)
  obtain ⟨text, htext, hback⟩ := rewrite_eq hlib hraw hdocument hplain
  refine ⟨text, ?_, fun h => ?_⟩
  · rw [writeEngineConfig, TrialParams.buildEngineWritePatch, htext]
  · refine Except.bind_eq_ok.mpr ⟨raw', hback, ?_⟩
    exact engineConfig_eq_ok.mpr ⟨_, _, _, hsections', aggregationConfig_update hlib h hagg,
      filterConfig_update hlib h, riskConfig_update hlib h hrisk⟩

end Engine

/-! ## The settings -/

section Settings

variable {base : ValidationExecutionConfig}

/-- The settings with a trial's patch load to the trial's execution, if that is within bounds. -/
theorem writeValidationSettings_eq (hlib : lib.Lawful) (trial : TrialParams)
    (hload : lib.loadValidationExecutionConfig dir = .ok base) :
    ∃ text, lib.writeValidationSettings dir trial.buildValidationSettingsPatch =
        ({ dir with settings := some text }, .ok ()) ∧
      ∀ h : trial.ExecutionInBounds,
        lib.loadValidationExecutionConfig { dir with settings := some text } =
          .ok (h.config base) := by
  obtain ⟨raw, hraw, hcfg⟩ := Except.bind_eq_ok.mp hload
  obtain ⟨top, validation, rfl, hvalidation, hlong, hexposure, -, -⟩ :=
    executionConfig_eq_ok.mp hcfg
  have hplain : (Yaml.map top).Plain := hlib.plain_loadFile hraw
  have hold : Yaml.get? top "validation" = some (.map validation) ∨ validation = [] := by
    cases hget : Yaml.get? top "validation" with
    | none =>
      rw [hget] at hvalidation
      cases hvalidation
      exact .inr rfl
    | some y =>
      rw [hget] at hvalidation
      exact .inl (congrArg some hvalidation)
  have hdocument : validationDocument trial.buildValidationSettingsPatch (.map top) =
      .ok (.map (Yaml.put "validation"
        (.map (Yaml.update trial.buildValidationSettingsPatch validation)) top)) := by
    rw [validationDocument]
    refine Except.bind_eq_ok.mpr ⟨top, rfl, ?_⟩
    exact Except.bind_eq_ok.mpr ⟨validation, by rw [hvalidation]; rfl, rfl⟩
  obtain ⟨text, htext, hback⟩ := rewrite_eq hlib hraw hdocument
    (plain_put_update hplain hold (List.forall_mem_cons.mpr ⟨.int _,
      List.forall_mem_cons.mpr ⟨.float _, List.forall_mem_nil _⟩⟩))
  refine ⟨text, by rw [writeValidationSettings, htext], fun h => ?_⟩
  refine Except.bind_eq_ok.mpr ⟨_, hback, ?_⟩
  have hother : ∀ key, key ≠ "max_bars_in_trade" → key ≠ "risk_pct_per_trade" →
      Yaml.get? (Yaml.update trial.buildValidationSettingsPatch validation) key =
        Yaml.get? validation key := fun key h₁ h₂ =>
    Yaml.get?_update_of_notMem (by simp [TrialParams.buildValidationSettingsPatch, h₁, h₂])
  have hn : ((trial.maxBarsInTrade.toNat : ℕ) : ℤ) = trial.maxBarsInTrade :=
    Int.toNat_of_nonneg (le_trans zero_le_one h.maxBarsInTrade)
  refine executionConfig_eq_ok.mpr ⟨_, _, rfl, by rw [Yaml.get?_put_self]; rfl, ?_, ?_, ?_, ?_⟩
  · rw [hother _ (by decide) (by decide)]
    exact hlong
  · rw [hother _ (by decide) (by decide)]
    exact hexposure
  · refine (defaulted_of_get? ((Yaml.get?_put_of_ne (by simp)).trans Yaml.get?_put_self)).trans ?_
    exact validated_eq_ok.mpr ((hlib.int _).trans (congrArg some hn.symm))
  · exact (defaulted_of_get? Yaml.get?_put_self).trans (validated_eq_ok.mpr (hlib.float _))

end Settings

/-! ## The features -/

end ConfigLibrary

/-- An indicator with the parameters of its name put in. -/
def IndicatorDef.patched (params : FeatureParams) (indicator : IndicatorDef) : IndicatorDef :=
  match params.patch indicator.name with
  | some patch => { indicator with params := Yaml.update patch indicator.params }
  | none => indicator

theorem FeatureParams.plain_patch {params : FeatureParams} {name : String}
    (h : params.patch name = some patch) : ∀ e ∈ patch, e.2.Plain := by
  unfold FeatureParams.patch at h
  split_ifs at h <;> cases h <;> simp [Yaml.Plain.int, Yaml.Plain.float]

namespace ConfigLibrary

section Features

variable (params : FeatureParams)

/-- What a section that may be missing is read as. -/
theorem updateSection_default (patch : Yaml.Entries) {value : Yaml.Entries} {model : String}
    (h : defaulted model entries (·.entries.toOption) key [] = .ok value) :
    updateSection key patch entries =
        .ok (Yaml.put key (.map (Yaml.update patch value)) entries) ∧
      (Yaml.get? entries key = some (.map value) ∨ value = []) := by
  unfold defaulted at h
  cases hget : Yaml.get? entries key with
  | none =>
    rw [hget] at h
    cases h
    exact ⟨updateSection_eq_of_none hget, .inr rfl⟩
  | some y =>
    rw [hget] at h
    cases y with
    | map old =>
      cases h
      exact ⟨updateSection_eq hget, .inl rfl⟩
    | _ => cases h

theorem indicatorDocument_eq (hlib : lib.Lawful) {item : Yaml} {indicator : IndicatorDef}
    (hplain : item.Plain) (hload : lib.indicatorDef item = .ok indicator) :
    ∃ item', indicatorDocument params item = .ok item' ∧ item'.Plain ∧
      lib.indicatorDef item' = .ok (indicator.patched params) := by
  obtain ⟨entries, rfl, hname, htype, hparams⟩ := indicatorDef_eq_ok.mp hload
  obtain ⟨_, hget, hstr⟩ := required_eq_ok.mp hname
  cases (hlib.str _ _).mp hstr
  cases hpatch : params.patch indicator.name with
  | none =>
    refine ⟨.map entries, ?_, hplain, ?_⟩
    · rw [indicatorDocument]
      refine Except.bind_eq_ok.mpr ⟨entries, rfl, ?_⟩
      simp only [hget, hpatch]
      rfl
    · rw [IndicatorDef.patched, hpatch]
      exact hload
  | some patch =>
    obtain ⟨hsection, hold⟩ := updateSection_default patch hparams
    refine ⟨.map (Yaml.put "params" (.map (Yaml.update patch indicator.params)) entries), ?_,
      plain_put_update hplain hold (params.plain_patch hpatch), ?_⟩
    · rw [indicatorDocument]
      refine Except.bind_eq_ok.mpr ⟨entries, rfl, ?_⟩
      simp only [hget, hpatch]
      exact Except.bind_eq_ok.mpr ⟨_, hsection, rfl⟩
    · rw [IndicatorDef.patched, hpatch]
      refine indicatorDef_eq_ok.mpr ⟨_, rfl, ?_, ?_, ?_⟩
      · exact (required_congr (Yaml.get?_put_of_ne (by decide))).trans hname
      · exact (required_congr (Yaml.get?_put_of_ne (by decide))).trans htype
      · exact (defaulted_of_get? Yaml.get?_put_self).trans (validated_eq_ok.mpr rfl)

/-- The elements that are read as indicators are those of a list, or there are none. -/
theorem elements_of_indicators {y : Yaml} {items : List Yaml} {indicators : List IndicatorDef}
    (hitems : y.elements = .ok items) (h : items.mapM lib.indicatorDef = .ok indicators) :
    y = .list items ∨ items = [] ∧ ∀ items', y ≠ .list items' := by
  have hstr : ∀ s, lib.indicatorDef (.str s) = .error (.raised "TypeError") := fun _ => rfl
  rw [Except.mapM_eq_ok] at h
  cases y with
  | list items' =>
    cases hitems
    exact .inl rfl
  | map es =>
    cases hitems
    cases es with
    | nil => exact .inr ⟨rfl, fun _ h => (nomatch h)⟩
    | cons e es =>
      cases h with
      | cons hread _ => exact nomatch (hstr e.1).symm.trans hread
  | str s =>
    cases hitems
    cases hs : s.toList with
    | nil => exact .inr ⟨rfl, fun _ h => (nomatch h)⟩
    | cons c cs =>
      rw [hs] at h
      cases h with
      | cons hread _ => exact nomatch (hstr _).symm.trans hread
  | _ => cases hitems

/-- The rewritten features load with each indicator patched. -/
theorem writeFeaturesConfig_eq (hlib : lib.Lawful) {base : FeaturesConfig}
    (hload : lib.loadFeaturesConfig dir = .ok base) :
    ∃ text, lib.writeFeaturesConfig dir params = ({ dir with features := some text }, .ok ()) ∧
      lib.loadFeaturesConfig { dir with features := some text } =
        .ok { base with indicators := base.indicators.map (IndicatorDef.patched params) } := by
  obtain ⟨raw, hraw, hcfg⟩ := Except.bind_eq_ok.mp hload
  have hplain : raw.Plain := hlib.plain_loadFile hraw
  obtain ⟨top, rfl, hversion, ⟨y, items, hget, hitems, hindicators⟩, hflags, hcontext⟩ :=
    featuresConfig_eq_ok.mp hcfg
  suffices hdocument : ∃ top', featuresDocument params (.map top) = .ok (.map top') ∧
      (Yaml.map top').Plain ∧ (∀ key, key ≠ "indicators" → Yaml.get? top' key = Yaml.get? top key) ∧
      ∃ y items, Yaml.get? top' "indicators" = some y ∧ y.elements = .ok items ∧
        items.mapM lib.indicatorDef = .ok (base.indicators.map (IndicatorDef.patched params)) by
    obtain ⟨top', hdocument, hplain', hother, hnew⟩ := hdocument
    obtain ⟨text, htext, hback⟩ := rewrite_eq hlib hraw hdocument hplain'
    refine ⟨text, by rw [writeFeaturesConfig, htext], ?_⟩
    refine Except.bind_eq_ok.mpr ⟨_, hback, featuresConfig_eq_ok.mpr ⟨top', rfl, ?_, hnew, ?_, ?_⟩⟩
    · exact (required_congr (hother _ (by decide))).trans hversion
    · rw [hother _ (by decide)]
      exact hflags
    · rw [hother _ (by decide)]
      exact hcontext
  rcases elements_of_indicators hitems hindicators with rfl | ⟨rfl, hlist⟩
  · obtain ⟨items', hwritten, hplain', hread⟩ := Except.mapM_rewritten hindicators
      fun item hitem indicator hload => indicatorDocument_eq params hlib
        (Yaml.plain_list.mp (hplain.get? hget) item hitem) hload
    refine ⟨Yaml.put "indicators" (.list items') top, ?_, hplain.put (.list hplain'),
      fun key hkey => Yaml.get?_put_of_ne (Ne.symm hkey), _, _, Yaml.get?_put_self, rfl, hread⟩
    rw [featuresDocument]
    refine Except.bind_eq_ok.mpr ⟨top, rfl, ?_⟩
    simp only [hget]
    exact Except.bind_eq_ok.mpr ⟨_, rfl, Except.bind_eq_ok.mpr ⟨_, hwritten, rfl⟩⟩
  · have hnil : base.indicators = [] := (Except.ok.inj hindicators).symm
    refine ⟨top, ?_, hplain, fun _ _ => rfl, y, [], hget, hitems, by rw [hnil]; rfl⟩
    rw [featuresDocument]
    refine Except.bind_eq_ok.mpr ⟨top, rfl, ?_⟩
    simp only [hget]
    refine Except.bind_eq_ok.mpr ⟨[], hitems, Except.bind_eq_ok.mpr ⟨[], rfl, ?_⟩⟩
    rfl

end Features

end ConfigLibrary

/-! ## The providers -/

def overrideEnabled (override : Yaml.Entries) : Bool :=
  ((Yaml.get? override "enabled").getD (.bool true)).truthy

def overrideWeight (override : Yaml.Entries) : ℚ :=
  match Yaml.get? override "weight" with
  | some (.float weight) => weight
  | _ => 1

/-- An override that sets `enabled` and `weight`. -/
structure FullOverride (override : Yaml.Entries) : Prop where
  enabled : Yaml.get? override "enabled" = some (.bool (overrideEnabled override))
  weight : Yaml.get? override "weight" = some (.float (overrideWeight override))
  plain : ∀ e ∈ override, e.2.Plain

namespace ProviderConfig

/-- A provider with an override put in. -/
def override (cfg : ProviderConfig) (override : Yaml.Entries) : ProviderConfig :=
  { cfg with
    enabled := overrideEnabled override
    weight := overrideWeight override
    params := Yaml.update (ConfigLibrary.overrideParams override) cfg.params }

/-- A provider with the override of a name put in, if there is one. -/
def overrideAs (overrides : List (String × Yaml.Entries)) (name : String) (cfg : ProviderConfig) :
    ProviderConfig :=
  match overrides.find? fun e => decide (e.1 = name) with
  | some override => cfg.override override.2
  | none => cfg

@[simp] theorem providerId_overrideAs {overrides : List (String × Yaml.Entries)} {name : String}
    {cfg : ProviderConfig} : (cfg.overrideAs overrides name).providerId = cfg.providerId := by
  unfold overrideAs
  split <;> rfl

end ProviderConfig

namespace ConfigLibrary

section Providers

variable {override : Yaml.Entries} {cfg : ProviderConfig}

theorem overridden_eq (h : FullOverride override) :
    lib.overridden cfg override = .ok (cfg.override override) := by
  rw [overridden, h.weight, h.enabled]
  rfl

def writePatch (override : Yaml.Entries) : ProviderPatch where
  fields := [("enabled", .bool (overrideEnabled override)),
    ("weight", .float (overrideWeight override))]
  params := some (overrideParams override)

theorem providerWritePatch_eq (h : FullOverride override) :
    lib.providerWritePatch override = .ok (writePatch override) := by
  rw [providerWritePatch]
  refine Except.bind_eq_ok.mpr ⟨_, Yaml.map_item h.enabled, ?_⟩
  refine Except.bind_eq_ok.mpr ⟨_, Yaml.map_item h.weight, ?_⟩
  exact Except.bind_eq_ok.mpr ⟨_, rfl, rfl⟩

/-- A provider's document with an override's patch. -/
theorem providerDocument_eq (hlib : lib.Lawful) (h : FullOverride override)
    (hplain : raw.Plain) (hload : lib.providerConfig raw = .ok cfg) :
    ∃ raw', providerDocument (writePatch override) raw = .ok raw' ∧ raw'.Plain ∧
      (0 ≤ overrideWeight override → lib.providerConfig raw' = .ok (cfg.override override)) ∧
      ∀ cfg', lib.providerConfig raw' = .ok cfg' → 0 ≤ overrideWeight override := by
  obtain ⟨entries, rfl, hid, hversion, -, -, hparams, -⟩ := providerConfig_eq_ok.mp hload
  set entries' := Yaml.put "weight" (.float (overrideWeight override))
    (Yaml.put "enabled" (.bool (overrideEnabled override)) entries) with hentries
  have hother : ∀ key, key ≠ "enabled" → key ≠ "weight" →
      Yaml.get? entries' key = Yaml.get? entries key := fun key h₁ h₂ => by
    rw [hentries, Yaml.get?_put_of_ne (Ne.symm h₂), Yaml.get?_put_of_ne (Ne.symm h₁)]
  have hparams' : defaulted "ProviderConfig" entries' (·.entries.toOption) "params" [] =
      .ok cfg.params := (defaulted_congr (hother _ (by decide) (by decide))).trans hparams
  obtain ⟨hsection, hold⟩ := updateSection_default (overrideParams override) hparams'
  have hweight' : ∀ value, Yaml.get? (Yaml.put "params" value entries') "weight" =
      some (.float (overrideWeight override)) := fun value =>
    (Yaml.get?_put_of_ne (by decide)).trans Yaml.get?_put_self
  have hplain' : (Yaml.map entries').Plain := (hplain.put (.bool _)).put (.float _)
  refine ⟨.map (Yaml.put "params" (.map (Yaml.update (overrideParams override) cfg.params))
    entries'), ?_, ?_, fun hweight => ?_, fun cfg' hload' => ?_⟩
  · rw [providerDocument]
    refine Except.bind_eq_ok.mpr ⟨entries, rfl, ?_⟩
    exact Except.bind_eq_ok.mpr ⟨_, hsection, rfl⟩
  · exact plain_put_update hplain' hold fun e he => h.plain e (List.mem_filter.mp he).1
  · refine providerConfig_eq_ok.mpr ⟨_, rfl, ?_, ?_, ?_, ?_, ?_, hweight⟩
    · refine (required_congr ?_).trans hid
      exact (Yaml.get?_put_of_ne (by decide)).trans (hother _ (by decide) (by decide))
    · refine (defaulted_congr ?_).trans hversion
      exact (Yaml.get?_put_of_ne (by decide)).trans (hother _ (by decide) (by decide))
    · have hget : Yaml.get? entries' "enabled" = some (.bool (overrideEnabled override)) :=
        (Yaml.get?_put_of_ne (by decide)).trans Yaml.get?_put_self
      refine (defaulted_of_get? ((Yaml.get?_put_of_ne (by decide)).trans hget)).trans ?_
      exact validated_eq_ok.mpr (hlib.bool _)
    · refine (defaulted_of_get? (hweight' _)).trans ?_
      exact validated_eq_ok.mpr (hlib.float _)
    · exact (defaulted_of_get? Yaml.get?_put_self).trans (validated_eq_ok.mpr rfl)
  · obtain ⟨_, heq, -, -, -, hread, -, hnonneg⟩ := providerConfig_eq_ok.mp hload'
    cases heq
    rw [defaulted_of_get? (hweight' _), validated_eq_ok, hlib.float] at hread
    exact Option.some.inj hread ▸ hnonneg

variable {files : List (String × ProviderConfig)} {name : String}

/-- A provider's file with a new text, discovered again. -/
theorem discoverProviderConfigs_setProvider (hfiles : lib.discoverProviderConfigs dir = .ok files)
    (hmem : name ∈ dir.providers.keys) {text : Text} (k : ProviderConfig → ProviderConfig)
    (h : ∀ old cfg, dir.providers.get? name = some old → lib.loadProviderYaml old = .ok cfg →
      lib.loadProviderYaml text = .ok (k cfg)) :
    lib.discoverProviderConfigs (dir.setProvider text hmem) =
      .ok (files.map fun f => if f.1 = name then (f.1, k f.2) else f) := by
  rw [discoverProviderConfigs_eq_ok] at hfiles ⊢
  have hentries : (dir.setProvider text hmem).providers.entries =
      dir.providers.entries.map fun e => if e.1 = name then (name, text) else e :=
    Dict.setEntries_of_mem dir.providers.nodup hmem
  rw [hentries, List.forall₂_map_left_iff, List.forall₂_map_right_iff]
  refine ((List.forall₂_and_left _ _).mpr ⟨fun _ => id, hfiles⟩).imp ?_
  rintro ⟨name', old⟩ ⟨_, cfg⟩ ⟨hfile, hload, rfl⟩
  by_cases hname : name' = name
  · cases hname
    simp only [if_true]
    exact ⟨h old cfg (Dict.mem_entries_iff.mp hfile) hload, trivial⟩
  · simp only [if_neg hname]
    exact ⟨hload, trivial⟩

/-- The write of an override into a provider's file. It raises after the file has been written if
the weight is negative. -/
theorem writeProviderConfig_eq (hlib : lib.Lawful) (h : FullOverride override)
    (hfiles : lib.discoverProviderConfigs dir = .ok files) (hmem : name ∈ dir.providers.keys) :
    ∃ text, lib.writeProviderConfig dir name (writePatch override) =
        (dir.setProvider text hmem, (lib.loadProviderYaml text).map fun _ => ()) ∧
      (0 ≤ overrideWeight override →
        (∃ cfg, lib.loadProviderYaml text = .ok cfg) ∧
        lib.discoverProviderConfigs (dir.setProvider text hmem) =
          .ok (files.map fun f => if f.1 = name then (f.1, f.2.override override) else f)) ∧
      ∀ cfg, lib.loadProviderYaml text = .ok cfg → 0 ≤ overrideWeight override := by
  have hnames : name ∈ files.map Prod.fst := keys_discovered hfiles ▸ hmem
  obtain ⟨⟨name', cfg⟩, hfile, hname⟩ := List.mem_map.mp hnames
  change name' = name at hname
  subst hname
  obtain ⟨old, hold, hload⟩ := discovered_text hfiles hfile
  obtain ⟨raw, hraw, hcfg⟩ := Except.bind_eq_ok.mp hload
  obtain ⟨raw', hdocument, hplain, hnonneg, hneg⟩ :=
    providerDocument_eq hlib h (hlib.plain old raw hraw) hcfg
  have hopen : lib.loadFile (some old) = .ok raw := hraw
  obtain ⟨text, htext, hback⟩ := rewrite_eq hlib hopen hdocument hplain
  have hread : lib.loadProviderYaml text = lib.providerConfig raw' := by
    rw [loadProviderYaml, hback]
    rfl
  refine ⟨text, ?_, fun hweight => ⟨⟨_, hread.trans (hnonneg hweight)⟩, ?_⟩, fun cfg' hcfg' =>
    hneg cfg' (hread.symm.trans hcfg')⟩
  · rw [writeProviderConfig, dif_pos hmem, hold, htext]
  · refine discoverProviderConfigs_setProvider hfiles hmem (·.override override)
      fun old' cfg' hold' hload' => ?_
    rw [hold] at hold'
    cases hold'
    rw [hload] at hload'
    cases hload'
    exact hread.trans (hnonneg hweight)

theorem writeProviderConfig_ok (hlib : lib.Lawful) (h : FullOverride override)
    (hfiles : lib.discoverProviderConfigs dir = .ok files) (hmem : name ∈ dir.providers.keys)
    (hweight : 0 ≤ overrideWeight override) :
    ∃ dir', lib.writeProviderConfig dir name (writePatch override) = (dir', .ok ()) ∧
      dir.OtherProviders dir' ∧ lib.discoverProviderConfigs dir' =
        .ok (files.map fun f => if f.1 = name then (f.1, f.2.override override) else f) := by
  obtain ⟨text, hwrite, hnonneg, -⟩ := writeProviderConfig_eq hlib h hfiles hmem
  obtain ⟨⟨cfg, hread⟩, hfiles'⟩ := hnonneg hweight
  refine ⟨dir.setProvider text hmem, ?_, dir.otherProviders_setProvider hmem, hfiles'⟩
  rw [hwrite, hread]
  rfl

theorem of_writeProviderConfig_ok (hlib : lib.Lawful) (h : FullOverride override)
    (hfiles : lib.discoverProviderConfigs dir = .ok files)
    (hwrite : (lib.writeProviderConfig dir name (writePatch override)).2 = .ok ()) :
    name ∈ dir.providers.keys ∧ 0 ≤ overrideWeight override := by
  by_cases hmem : name ∈ dir.providers.keys
  · obtain ⟨text, heq, -, hneg⟩ := writeProviderConfig_eq hlib h hfiles hmem
    rw [heq] at hwrite
    obtain ⟨cfg, hread, -⟩ := Except.map_eq_ok.mp hwrite
    exact ⟨hmem, hneg cfg hread⟩
  · rw [writeProviderConfig, dif_neg hmem] at hwrite
    cases hwrite

variable {overrides : List (String × Yaml.Entries)}

theorem writeProviderPatches_eq (h : ∀ o ∈ overrides, FullOverride o.2) :
    lib.writeProviderPatches overrides dir =
      writes (fun dir o => lib.writeProviderConfig dir o.1 (writePatch o.2)) dir overrides := by
  have hpatches : overrides.mapM (fun e =>
      (lib.providerWritePatch e.2).map fun patch => (e.1, patch)) =
      .ok (overrides.map fun o => (o.1, writePatch o.2)) := by
    rw [Except.mapM_eq_ok, List.forall₂_map_right_iff, List.forall₂_same]
    intro o ho
    rw [providerWritePatch_eq (h o ho)]
    rfl
  rw [writeProviderPatches, hpatches]
  clear hpatches h
  simp only
  induction overrides generalizing dir with
  | nil => rfl
  | cons o overrides ih =>
    simp only [List.map_cons, writes]
    split
    · exact ih
    · rfl

/-- Once the first override is put in under its name, those of other names follow. -/
theorem overrideAs_cons {o : String × Yaml.Entries} (ho : o.1 ∉ overrides.map Prod.fst)
    (f : String × ProviderConfig) :
    (f.1, f.2.overrideAs (o :: overrides) f.1) =
      (fun f : String × ProviderConfig => (f.1, f.2.overrideAs overrides f.1))
        (if f.1 = o.1 then (f.1, f.2.override o.2) else f) := by
  by_cases hname : f.1 = o.1
  · have hnone : overrides.find? (fun e => decide (e.1 = f.1)) = none := by
      rw [List.find?_eq_none]
      intro e he hkey
      exact ho (List.mem_map.mpr ⟨e, he, (of_decide_eq_true hkey).trans hname⟩)
    have hfound : (o :: overrides).find? (fun e => decide (e.1 = f.1)) = some o := by
      rw [List.find?_cons, decide_eq_true hname.symm]
    rw [if_pos hname]
    change (f.1, _) = (f.1, (f.2.override o.2).overrideAs overrides f.1)
    unfold ProviderConfig.overrideAs
    rw [hfound, hnone]
  · simp [if_neg hname, ProviderConfig.overrideAs, Ne.symm hname]

theorem writeProviderPatches_ok (hlib : lib.Lawful) (h : ∀ o ∈ overrides, FullOverride o.2)
    (hnames : (overrides.map Prod.fst).Nodup)
    (hfiles : lib.discoverProviderConfigs dir = .ok files)
    (hok : ∀ o ∈ overrides, o.1 ∈ dir.providers.keys ∧ 0 ≤ overrideWeight o.2) :
    ∃ dir', lib.writeProviderPatches overrides dir = (dir', .ok ()) ∧ dir.OtherProviders dir' ∧
      lib.discoverProviderConfigs dir' =
        .ok (files.map fun f => (f.1, f.2.overrideAs overrides f.1)) := by
  rw [writeProviderPatches_eq h]
  induction overrides generalizing dir files with
  | nil =>
    refine ⟨dir, rfl, .refl, ?_⟩
    simpa [ProviderConfig.overrideAs] using hfiles
  | cons o overrides ih =>
    rw [List.map_cons, List.nodup_cons] at hnames
    obtain ⟨hmem, hweight⟩ := hok o List.mem_cons_self
    obtain ⟨dir₁, hwrite, hother, hfiles₁⟩ :=
      writeProviderConfig_ok hlib (h o List.mem_cons_self) hfiles hmem hweight
    obtain ⟨dir₂, hwrites, hother', hfiles₂⟩ := ih (fun o' ho' => h o' (List.mem_cons_of_mem _ ho'))
      hnames.2 hfiles₁ fun o' ho' => hother.names ▸ hok o' (List.mem_cons_of_mem _ ho')
    refine ⟨dir₂, ?_, hother.trans hother', ?_⟩
    · rw [writes, hwrite]
      exact hwrites
    · rw [hfiles₂, List.map_map]
      refine congrArg Except.ok (List.map_congr_left fun f _ => ?_)
      exact (overrideAs_cons hnames.1 f).symm

theorem of_writeProviderPatches_ok (hlib : lib.Lawful) (h : ∀ o ∈ overrides, FullOverride o.2)
    (hfiles : lib.discoverProviderConfigs dir = .ok files)
    (hwrite : (lib.writeProviderPatches overrides dir).2 = .ok ()) :
    ∀ o ∈ overrides, o.1 ∈ dir.providers.keys ∧ 0 ≤ overrideWeight o.2 := by
  rw [writeProviderPatches_eq h] at hwrite
  induction overrides generalizing dir files with
  | nil => exact List.forall_mem_nil _
  | cons o overrides ih =>
    rw [writes] at hwrite
    split at hwrite
    · next dir₁ hstep =>
      have hstep' := congrArg Prod.snd hstep
      obtain ⟨hmem, hweight⟩ :=
        of_writeProviderConfig_ok hlib (h o List.mem_cons_self) hfiles hstep'
      obtain ⟨dir₂, hwrite₂, hother, hfiles₂⟩ :=
        writeProviderConfig_ok hlib (h o List.mem_cons_self) hfiles hmem hweight
      rw [hstep] at hwrite₂
      cases hwrite₂
      refine List.forall_mem_cons.mpr ⟨⟨hmem, hweight⟩, ?_⟩
      exact hother.names ▸ ih (fun o' ho' => h o' (List.mem_cons_of_mem _ ho')) hfiles₂ hwrite
    · cases hwrite

end Providers

end ConfigLibrary

end TradingPlatform
