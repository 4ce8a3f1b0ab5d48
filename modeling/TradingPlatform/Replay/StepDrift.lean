import TradingPlatform.Replay.FeatureDrift

/-!
# A step in the prices

A long average and a price that has moved two hundred bars ago: the runtime starts at the new price
and a longer rebuild at the old one. So wherever the rebuild takes more bars than the runtime, the
features of some event drift.
-/

namespace TradingPlatform

/-! ## The files -/

/-- Bars an hour apart, of which the last two hundred stand at another price. -/
def stepRows (bars : ℕ) : Frame :=
  (List.range bars).map fun (k : ℕ) =>
    .flat (ValidationHarness.hours k) (if k + 200 < bars then 100 else 200)

/-- A long average, and a need of `period` bars. -/
def stepFeatures (period : ℕ) : FeaturesConfig where
  version := "v2"
  indicators := [⟨"ema", "ema", [("period", .int 190)]⟩, ⟨"sma", "sma", [("period", .int period)]⟩]
  flags := []
  context := { fast := "ema", slow := "ema", atr := "ema", low := 0, high := 1 }

/-- The file of these features. -/
def stepDocument (period : ℕ) : Yaml :=
  .map [("version", .str "v2"),
    ("indicators", .list [
      .map [("name", .str "ema"), ("type", .str "ema"), ("params", .map [("period", .int 190)])],
      .map [("name", .str "sma"), ("type", .str "sma"),
        ("params", .map [("period", .int period)])]]),
    ("context", .map [
      ("trend", .map [("fast", .str "ema"), ("slow", .str "ema")]),
      ("volatility", .map [("atr", .str "ema"), ("low", .float 0), ("high", .float 1)])])]

/-- The rows in a file, with the configuration on disk. -/
def stepEnvironment (period bars : ℕ) : ReplayEnvironment Yaml where
  library := treeLibrary
  indicatorLibrary := plainLibrary
  digest := sampleDigest
  dir := { sampleDir "ema" with features := some (stepDocument period) }
  backendRoot := "/app"
  isFile _ := false
  readCsv _ := .ok (stepRows bars)
  now := 0
  uuid := 0

/-- A run that decides on the last of the rows only. -/
def stepHarness (period bars : ℕ) : ValidationHarness where
  dataProvider := .load (stepRows bars) "BTC/USDT" "1h"
  config := {
    symbol := "BTC/USDT"
    timeframe := "1h"
    start := ValidationHarness.hours (bars - (period + 2))
    endTime := ValidationHarness.hours (bars - 1) }
  minLookbackBars := period + 1
  isoformat _ := ""
  collaborators _ := {
    now := 0
    getLatest := fun _ _ _ => .ok []
    build := ({ config := stepFeatures period, configHash := "f" } : DefaultFeatureBuilder).build
      plainLibrary 0
    storedContext := fun _ => .ok none
    providers := [] }

section Step

variable {period bars : ℕ}

theorem loads_step : (stepEnvironment period bars).loadFeaturesConfig =
    .ok (stepFeatures period, "f") := rfl

theorem revision_step : ∃ revision, (stepEnvironment period bars).library.computeConfigRevision
    (stepEnvironment period bars).digest (stepEnvironment period bars).dir "auto" none
    (stepEnvironment period bars).now = .ok revision := ⟨_, rfl⟩

theorem lookback_step (hperiod : 190 ≤ period) :
    computeMinLookbackBars plainLibrary.parseInt (stepFeatures period) = .ok (period + 1) := by
  have hlongest : maxPeriod plainLibrary.parseInt (stepFeatures period).indicators 1 =
      .ok (max (max 1 190) period) := rfl
  rw [computeMinLookbackBars, hlongest]
  refine congrArg Except.ok ?_
  omega

theorem validates_step (hperiod : 190 ≤ period) :
    (stepEnvironment period bars).Validates "btc.csv" (stepHarness period bars) where
  path_ne := by decide
  file := ⟨_, _, _, rfl, rfl⟩
  config := ⟨_, _, loads_step, lookback_step hperiod, fun _ => ⟨0, rfl⟩⟩
  revision := revision_step

/-! ## The features -/

/-- The average after a price has moved to another and stood still for `n` bars. -/
theorem averageAfter_step {a x y : ℚ} (n : ℕ) :
    Series.averageAfter a y (List.replicate n x) = x + (1 - a) ^ n * (y - x) := by
  induction n generalizing y with
  | zero =>
    rw [pow_zero, one_mul, add_sub_cancel]
    rfl
  | succ n ih =>
    rw [List.replicate_succ, Series.averageAfter, List.foldl_cons]
    refine (ih (y := Series.blend a y x)).trans ?_
    simp only [Series.blend, smul_eq_mul]
    ring

/-- The short average has a value, or too few bars. -/
theorem sma_step (bars : List Bar) (period : ℕ) :
    (∃ v, sharedAnswer plainLibrary bars ⟨"sma", "sma", [("period", .int period)]⟩ = .ok v) ∨
    ∃ name n, sharedAnswer plainLibrary bars ⟨"sma", "sma", [("period", .int period)]⟩ =
      .error (.insufficientData name n) := by
  have htype : "sma" ≠ "volume_flow" := by decide
  rw [sharedAnswer_of_type_ne htype]
  change (∃ v, SmaIndicator.compute plainLibrary bars [("period", .int period)] = .ok v) ∨
    ∃ name n, SmaIndicator.compute plainLibrary bars [("period", .int period)] =
      .error (.insufficientData name n)
  have hparams : plainLibrary.requiredInt [("period", .int period)] "period" = .ok period := rfl
  rw [SmaIndicator.compute, hparams]
  dsimp only [bind, Except.bind]
  rw [requireBars]
  split_ifs with hshort
  · exact .inr ⟨_, _, rfl⟩
  · rw [rolling, if_neg (by omega)]
    dsimp only
    unfold lastValid
    split
    · exact .inl ⟨_, rfl⟩
    · exact .inr ⟨_, _, rfl⟩

/-- The indicators of these features have the long average. -/
theorem indicators_step {bars : List Bar} {c : ℚ} {rest : List ℚ} (hlength : 190 ≤ bars.length)
    (hcloses : closes bars = c :: rest) (period : ℕ) :
    ∃ indicators, (stepFeatures period).computeIndicators plainLibrary bars = .ok indicators ∧
      indicators.lookup "ema" = some (Series.averageAfter (spanWeight 190) c rest) := by
  have hema : sharedAnswer plainLibrary bars ⟨"ema", "ema", [("period", .int 190)]⟩ =
      .ok (Series.averageAfter (spanWeight 190) c rest) := by
    rw [sharedAnswer_of_type_ne (by decide), computeIndicator_ema rfl]
    exact EmaIndicator.compute_eq rfl (by norm_num) (by exact_mod_cast hlength) hcloses
  have houtcomes : sharedIndicators plainLibrary bars (stepFeatures period).indicators =
      (stepFeatures period).indicators.map (sharedAnswer plainLibrary bars) :=
    MemoM.outcomes_eq (fun _ _ => computeIndicatorShared_answers) MemoM.sound_empty
  rw [FeaturesConfig.computeIndicators, houtcomes, stepFeatures]
  simp only [List.map_cons, List.map_nil, hema, List.zip_cons_cons, List.zip_nil_right]
  rcases sma_step bars period with ⟨v, hsma⟩ | ⟨name, n, hsma⟩
  · rw [hsma]
    exact ⟨_, rfl, rfl⟩
  · rw [hsma]
    exact ⟨_, rfl, rfl⟩

/-- A build of these features returns, and has the long average. -/
theorem build_step {rows : Frame} {c : ℚ} {rest : List ℚ}
    (hsorted : rows.Pairwise fun a b => a.timestamp ≤ b.timestamp) (hlength : 190 ≤ rows.length)
    (hcloses : closes (rows.map (·.bar)) = c :: rest) (period featureSetId : ℕ)
    (symbol timeframe : String) (processingTime : ℤ) : ∃ featureSet context,
      ({ config := stepFeatures period, configHash := "f" } : DefaultFeatureBuilder).build
        plainLibrary featureSetId rows symbol timeframe processingTime =
          .ok (featureSet, context) ∧
      featureSet.indicators.lookup "ema" =
        some (Series.averageAfter (spanWeight 190) c rest) := by
  have hne : rows ≠ [] := List.length_pos_iff.mp (by omega)
  obtain ⟨indicators, hindicators, hvalue⟩ := indicators_step
    (by rw [List.length_map]; exact hlength) hcloses period
  unfold DefaultFeatureBuilder.build
  rw [normalizeOhlcv, if_neg hne, hsorted.insertionSort_eq]
  dsimp only [bind, Except.bind]
  rw [List.getLast?_eq_some_getLast hne]
  dsimp only
  rw [hindicators]
  have hvalue' : ContextConfig.indicator indicators "ema" =
      .ok (Series.averageAfter (spanWeight 190) c rest) := by
    rw [ContextConfig.indicator, hvalue]
  have hcontext : ∃ context, (stepFeatures period).context.derive symbol timeframe
      (rows.getLast hne).bar.close indicators (rows.getLast hne).timestamp = .ok context := by
    rw [ContextConfig.derive, ContextConfig.deriveTrend, ContextConfig.deriveAtrMetrics]
    simp only [stepFeatures, hvalue']
    exact ⟨_, rfl⟩
  obtain ⟨context, hcontext⟩ := hcontext
  dsimp only [FeaturesConfig.evaluateFlags]
  change ∃ featureSet context', (((stepFeatures period).context.derive symbol timeframe
    (rows.getLast hne).bar.close indicators (rows.getLast hne).timestamp).bind _) = _ ∧ _
  rw [hcontext]
  exact ⟨_, _, rfl, hvalue⟩

/-! ## The rows -/

theorem stepRows_sorted (bars : ℕ) :
    (stepRows bars).Pairwise fun a b => a.timestamp ≤ b.timestamp := by
  refine List.pairwise_map.mpr (List.pairwise_lt_range.imp fun {a b} hlt => ?_)
  simp only [Candle.flat, ValidationHarness.hours, seconds]
  omega

theorem df_step : (stepHarness period bars).dataProvider.df = stepRows bars :=
  (stepRows_sorted bars).insertionSort_eq

theorem length_stepRows : (stepRows bars).length = bars := by
  rw [stepRows, List.length_map, List.length_range]

/-- All rows are up to the last one. -/
theorem searchsortedRight_stepRows :
    CsvDataProvider.searchsortedRight (stepRows bars) (ValidationHarness.hours (bars - 1)) =
      bars := by
  have hall : ∀ c ∈ stepRows bars, c.timestamp ≤ ValidationHarness.hours (bars - 1) := by
    intro c hc
    obtain ⟨k, hk, rfl⟩ := List.mem_map.mp hc
    have := List.mem_range.mp hk
    simp only [Candle.flat, ValidationHarness.hours, seconds]
    omega
  rw [CsvDataProvider.searchsortedRight,
    List.takeWhile_eq_self_iff.mpr fun c hc => decide_eq_true (hall c hc), length_stepRows]

/-- The closes of the last rows, of which more than two hundred are left. -/
theorem closes_lastRows {more : ℕ} (hmore : more + 200 ≤ bars) :
    closes ((CsvDataProvider.lastRows (stepRows bars) (ValidationHarness.hours (bars - 1))
      (more + 200)).map (·.bar)) = List.replicate more 100 ++ List.replicate 200 200 := by
  rw [CsvDataProvider.lastRows, searchsortedRight_stepRows,
    List.take_of_length_le length_stepRows.le]
  refine List.ext_getElem ?_ fun i hi _ => ?_
  · simp only [length_closes, List.length_map, List.length_drop, length_stepRows,
      List.length_append, List.length_replicate]
    omega
  · have hclose : bars - (more + 200) + i + 200 < bars ↔ i < more := by omega
    simp only [closes, stepRows, Candle.flat, List.getElem_map, List.getElem_drop,
      List.getElem_range, List.getElem_append, List.length_replicate, List.getElem_replicate,
      hclose]
    split_ifs <;> rfl

/-- What a build on the last rows has for the long average. -/
theorem build_lastRows {more : ℕ} (hmore : more + 200 ≤ bars) (period featureSetId : ℕ)
    (symbol timeframe : String) (processingTime : ℤ) : ∃ featureSet context,
      ({ config := stepFeatures period, configHash := "f" } : DefaultFeatureBuilder).build
        plainLibrary featureSetId (CsvDataProvider.lastRows (stepRows bars)
          (ValidationHarness.hours (bars - 1)) (more + 200)) symbol timeframe processingTime =
          .ok (featureSet, context) ∧
      featureSet.indicators.lookup "ema" = some (if more = 0 then 200 else
        200 + (1 - spanWeight 190) ^ 200 * (100 - 200)) := by
  have hcloses := closes_lastRows hmore
  have hsorted : (CsvDataProvider.lastRows (stepRows bars) (ValidationHarness.hours (bars - 1))
      (more + 200)).Pairwise fun a b => a.timestamp ≤ b.timestamp :=
    (stepRows_sorted bars).sublist ((List.drop_sublist _ _).trans (List.take_sublist _ _))
  have hlength := congrArg List.length hcloses
  rw [length_closes, List.length_map, List.length_append, List.length_replicate,
    List.length_replicate] at hlength
  cases more with
  | zero =>
    obtain ⟨featureSet, context, hbuild, hvalue⟩ := build_step hsorted (by omega) hcloses period
      featureSetId symbol timeframe processingTime
    refine ⟨featureSet, context, hbuild, hvalue.trans ?_⟩
    have hstill := averageAfter_step (a := spanWeight 190) (x := 200) (y := 200) 199
    rw [sub_self, mul_zero, add_zero] at hstill
    rw [if_pos rfl]
    exact congrArg some hstill
  | succ more =>
    obtain ⟨featureSet, context, hbuild, hvalue⟩ := build_step hsorted (by omega) hcloses period
      featureSetId symbol timeframe processingTime
    refine ⟨featureSet, context, hbuild, hvalue.trans ?_⟩
    rw [if_neg (Nat.succ_ne_zero more), ← averageAfter_step]
    exact congrArg some (Series.averageAfter_replicate more)

/-! ## The run -/

/-- The rows of the run: those that it skips, and the last one. -/
theorem rangeSlice_step (early : ℕ) :
    ((stepHarness period (early + (period + 2))).dataProvider.rangeSlice
      (ValidationHarness.hours (((early + (period + 2) : ℕ) : ℤ) - (period + 2)))
      (ValidationHarness.hours (((early + (period + 2) : ℕ) : ℤ) - 1))).map (·.timestamp) =
      (List.range (period + 2)).map fun (k : ℕ) => ValidationHarness.hours (early + k) := by
  rw [CsvDataProvider.rangeSlice_eq_filter, df_step, stepRows, List.range_add, List.map_append,
    List.filter_append, List.filter_append, List.filter_eq_nil_iff.mpr, List.nil_append,
    List.filter_eq_self.mpr, List.filter_eq_self.mpr]
  · rw [List.map_map, List.map_map]
    refine List.map_congr_left fun k _ => ?_
    simp [Candle.flat]
  · intro c hc
    obtain ⟨k, hk, rfl⟩ := List.mem_map.mp hc
    obtain ⟨j, hj, rfl⟩ := List.mem_map.mp hk
    refine decide_eq_true ?_
    simp only [Candle.flat, ValidationHarness.hours, seconds]
    omega
  · intro c hc
    obtain ⟨k, hk, rfl⟩ := List.mem_map.mp (List.mem_of_mem_filter hc)
    obtain ⟨j, hj, rfl⟩ := List.mem_map.mp hk
    have := List.mem_range.mp hj
    refine decide_eq_true ?_
    simp only [Candle.flat, ValidationHarness.hours, seconds]
    omega
  · intro c hc
    obtain ⟨hc, hstart⟩ := List.mem_filter.mp hc
    obtain ⟨k, hk, rfl⟩ := List.mem_map.mp hc
    have := List.mem_range.mp hk
    have hstart := of_decide_eq_true hstart
    simp only [Candle.flat, ValidationHarness.hours, seconds] at hstart
    omega

theorem barTimes_step (hbars : period + 2 ≤ bars) :
    (stepHarness period bars).barTimes = .ok [ValidationHarness.hours (bars - 1)] := by
  obtain ⟨early, rfl⟩ := Nat.exists_eq_add_of_le' hbars
  refine ValidationHarness.barTimes_eq_ok.mpr
    ⟨_, congrArg Except.ok (rangeSlice_step early), ?_, ?_⟩
  · rw [List.length_map, List.length_range]
    exact Nat.lt_succ_self _
  · change _ = List.drop (period + 1) _
    rw [List.range_succ, List.map_append, List.drop_left' (by simp)]
    refine congrArg (fun t => [ValidationHarness.hours t]) ?_
    push_cast
    ring

/-- A runtime that emits events. -/
def stepRuntime : PlatformRuntime :=
  ({ RuntimeSetup.solo .close with emitEvents := true } : RuntimeSetup).start

/-- The run publishes the features of its one bar. -/
theorem publishes_step (hbars : period + 2 ≤ bars)
    (hmore : 200 ≤ bars) : ∃ e, (stepHarness period bars).Publishes stepRuntime e ∧
      e.eventType = .featureSetBuilt ∧ e.eventTime = ValidationHarness.hours (bars - 1) := by
  let t := ValidationHarness.hours (bars - 1)
  let rt := ValidationHarness.setClock t { stepRuntime with published := [] }
  let call := (stepHarness period bars).cycleCall 0 t
  have htimes := @barTimes_step period bars hbars
  have hidx : 0 < CsvDataProvider.searchsortedRight (stepHarness period bars).dataProvider.df
      t := by
    rw [df_step, searchsortedRight_stepRows]
    omega
  obtain ⟨frame, hframe⟩ : ∃ frame, (stepHarness period bars).dataProvider.getLatest "BTC/USDT"
      "1h" 200 (some t) = .ok frame := CsvDataProvider.getLatest_of_pos rfl hidx
  have hrows := (CsvDataProvider.getLatest_ok hframe).2.2
  rw [df_step] at hrows
  have hne : frame ≠ [] := by
    rintro rfl
    have hlength := CsvDataProvider.length_getLatest hframe
    rw [List.length_nil] at hlength
    omega
  obtain ⟨ctx, rt₁, hprepare, hdf⟩ : ∃ ctx rt₁, rt.prepareBar call = .ok (ctx, rt₁) ∧
      ctx.df = frame :=
    PlatformRuntime.prepareBar_of_latest
      (by rw [ValidationHarness.nowEventTime_setClock]; exact hframe) hne
  obtain ⟨featureSet, context, hbuild, -⟩ := @build_lastRows bars 0 (by omega) period 0
    ctx.symbol ctx.timeframe ctx.processingTime
  have hanswers : rt.Answers call ctx := by
    refine ⟨featureSet, context, [], ⟨?_, nofun, rfl⟩, fun _ _ _ _ _ haggregated => ?_⟩
    · rw [hdf, hrows]
      exact hbuild
    · cases haggregated
  obtain ⟨d, rt₂, hdecision⟩ := (PlatformRuntime.runToDecision_returns_iff hprepare).mpr hanswers
  obtain ⟨result, rt₃, hrun⟩ := PlatformRuntime.runCycle_returns hdecision
  obtain ⟨ctx', rt₁', hfeatures⟩ := PlatformRuntime.runCycle_presents hrun
  obtain ⟨e, he, hpresents⟩ := hfeatures.emitted rfl
  refine ⟨e, ⟨_, 0, t, [], _, result, rt₃, htimes, rfl, rfl, hrun, he⟩, ?_, ?_⟩
  · rw [EventEnvelope.eventType, hpresents.payload]
    rfl
  · have hexists := (ValidationHarness.barTimes_ok htimes).2.2 t List.mem_cons_self
    rw [hpresents.eventTime]
    exact ValidationHarness.eventTime_of_prepared hexists hfeatures.prepared

/-- With more than two hundred bars the rebuild starts before the step, and the runtime at it. -/
theorem detected_step {e : EventEnvelope} (hperiod : 190 ≤ period) (hmore : 200 < bars)
    (hpublishes : (stepHarness period bars).Publishes stepRuntime e)
    (htype : e.eventType = .featureSetBuilt)
    (htime : e.eventTime = ValidationHarness.hours (bars - 1)) : ∃ report,
      (stepEnvironment period bars).detectFeatureDrift e (some "btc.csv") = .ok report ∧
      report.detected = true := by
  have hv := @validates_step period bars hperiod
  obtain ⟨config, hash, features, hb⟩ := hv.built hpublishes htype
  cases hb.loads.symm.trans loads_step
  obtain ⟨featureSetId, processingTime, featureSet, context, hmade, rfl⟩ := hb.built
  rw [df_step, htime] at hmade
  obtain ⟨_, _, hstored, hold⟩ := @build_lastRows bars 0 hmore.le period featureSetId e.symbol
    e.timeframe processingTime
  cases hmade.symm.trans hstored
  -- the rebuild has more rows
  obtain ⟨more, hpos, hlimit⟩ : ∃ more, 0 < more ∧
      min bars (max (period + 1 + 10) 200) = more + 200 :=
    ⟨min bars (max (period + 1 + 10) 200) - 200, by omega, by omega⟩
  obtain ⟨rebuilt, _, hrebuilt, hnew⟩ := @build_lastRows bars more (by omega) period 0 e.symbol
    e.timeframe e.processingTime
  have hrows : CsvDataProvider.lastRows (stepRows bars) (ValidationHarness.hours (bars - 1))
      (max (period + 1 + 10) 200) = CsvDataProvider.lastRows (stepRows bars)
        (ValidationHarness.hours (bars - 1)) (more + 200) := by
    rw [← hlimit, ← CsvDataProvider.lastRows_min, searchsortedRight_stepRows]
  have hrebuild := hb.rebuild_eq
  rw [df_step, htime] at hrebuild
  change _ = ((DefaultFeatureBuilder.build _ _ _ (CsvDataProvider.lastRows (stepRows bars)
    (ValidationHarness.hours (bars - 1)) (max (period + 1 + 10) 200)) _ _ _).map _) at hrebuild
  rw [hrows] at hrebuild
  have hsome : ((stepEnvironment period bars).rebuild e "btc.csv" (stepFeatures period)
      "f").toOption = some ⟨rebuilt.indicators, rebuilt.flags⟩ := by
    rw [hrebuild]
    change (Except.map _ (DefaultFeatureBuilder.build _ plainLibrary 0 _ _ _ _)).toOption = _
    rw [hrebuilt]
    rfl
  have hdrift : compareFeatures ⟨featureSet.indicators, featureSet.flags⟩
      ⟨rebuilt.indicators, rebuilt.flags⟩ ≠ [] := by
    refine compareFeatures_ne_nil hold hnew ?_
    rw [if_pos rfl, if_neg hpos.ne', spanWeight]
    norm_num [abs_of_pos]
  refine ⟨_, (hb.detect_eq hv).trans (by rw [hsome]), ?_⟩
  exact decide_eq_true (List.length_pos_iff.mpr hdrift)

end Step

/-- No event of a kind drifts exactly when the rebuild takes no more bars than the runtime: the
lookback is 190 at most, or there are no more than two hundred bars, or none that a run decides
on. -/
theorem neverDrifts_iff (lookback bars : ℕ) :
    NeverDrifts lookback bars ↔ lookback ≤ 190 ∨ bars ≤ 200 ∨ bars ≤ lookback := by
  refine ⟨fun hnever => ?_, neverDrifts_of_le⟩
  by_contra hle
  simp only [not_or, not_le] at hle
  obtain ⟨hlookback, hmore, hskipped⟩ := hle
  obtain ⟨period, rfl⟩ : ∃ period, lookback = period + 1 := ⟨lookback - 1, by omega⟩
  have hperiod : 190 ≤ period := by omega
  obtain ⟨e, hpublishes, htype, htime⟩ := @publishes_step period bars (by omega) hmore.le
  have hclean := hnever Yaml _ _ _ _ e (validates_step hperiod) rfl hpublishes htype
    (by rw [htime, df_step, searchsortedRight_stepRows])
  obtain ⟨report, hreport, hdetected⟩ := detected_step hperiod hmore hpublishes htype htime
  cases hclean.symm.trans hreport
  cases hdetected

/-- With an average over two hundred bars, the last of 250 bars drifts. -/
theorem not_detectFeatureDrift_clean : ¬ ∀ (Text : Type) (env : ReplayEnvironment Text)
    (path : String) (h : ValidationHarness) (rt : PlatformRuntime) (e : EventEnvelope),
    env.Validates path h → h.Publishes rt e → e.eventType = .featureSetBuilt →
    ∃ report, env.detectFeatureDrift e (some path) = .ok report ∧ report.detected = false := by
  intro h
  obtain ⟨e, hpublishes, htype, htime⟩ := @publishes_step 200 250 (by norm_num) (by norm_num)
  obtain ⟨report, hreport, hquiet⟩ := h Yaml (stepEnvironment 200 250) "btc.csv"
    (stepHarness 200 250) stepRuntime e (validates_step (by norm_num)) hpublishes htype
  obtain ⟨report', hreport', hdetected⟩ :=
    detected_step (by norm_num) (by norm_num) hpublishes htype htime
  cases hreport.symm.trans hreport'
  cases hquiet.symm.trans hdetected

end TradingPlatform
