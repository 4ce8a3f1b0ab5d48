import TradingPlatform.Features.Builder
import TradingPlatform.Governance.Revisions
import TradingPlatform.Runtime.BuiltFeatures
import TradingPlatform.Validation.Warmup

/-!
# The drift of the features

`_detect_feature_drift` rebuilds the features of an event from the file and compares them with those
of the event. The runtime has built them from two hundred bars at most, and the rebuild takes ten
bars more than the lookback where that is more than two hundred. No event drifts where the two
windows are the same.
-/

namespace TradingPlatform

/-! ## Comparing features -/

/-- A value in the payload of a `FEATURE_SET_BUILT` event. -/
inductive FeatureValue
  | number (value : ℚ)
  | flag (value : Bool)
  deriving DecidableEq, Repr

/-- `float` of a value. -/
def FeatureValue.toFloat : FeatureValue → ℚ
  | number value => value
  | flag value => if value then 1 else 0

/-- An item of the list of `_compare_maps`. -/
structure FeatureDrift where
  key : String
  stored : Option FeatureValue
  rebuilt : Option FeatureValue
  delta : Option ℚ := none
  reason : Option String := none
  deriving DecidableEq, Repr

/-- The item of a key, if it has drifted. -/
def compareKey (stored rebuilt : List (String × FeatureValue)) (tolerance : ℚ) (key : String) :
    Option FeatureDrift :=
  match stored.lookup key, rebuilt.lookup key with
  | some a, some b =>
    if tolerance < |a.toFloat - b.toFloat| then
      some { key, stored := a, rebuilt := b, delta := some (b.toFloat - a.toFloat) }
    else none
  | a, b => some { key, stored := a, rebuilt := b, reason := some "missing" }

/-- `_compare_maps`, for values that are numbers or truth values. -/
def compareMaps (stored rebuilt : List (String × FeatureValue)) (tolerance : ℚ) :
    List FeatureDrift :=
  let allKeys := (stored.map Prod.fst ++ rebuilt.map Prod.fst).dedup
  (allKeys.mergeSort fun a b => decide (a.toList ≤ b.toList)).filterMap
    (compareKey stored rebuilt tolerance)

structure DriftReport where
  detected : Bool
  driftCount : ℕ
  drifts : List FeatureDrift
  driftedFeatures : List String
  rebuildSkipped : Bool := false
  reason : Option String := none
  /-- `config_hash_stored` and `config_hash_current` -/
  configHashes : Option (String × String) := none
  deriving DecidableEq, Repr

/-- The indicators and the flags of a feature set. -/
structure Features where
  indicators : List (String × ℚ)
  flags : List (String × Bool)
  deriving DecidableEq, Repr

def numbers (indicators : List (String × ℚ)) : List (String × FeatureValue) :=
  indicators.map fun e => (e.1, .number e.2)

def truthValues (flags : List (String × Bool)) : List (String × FeatureValue) :=
  flags.map fun e => (e.1, .flag e.2)

/-- The drifts of `compare_features`, called with flags and the default tolerance. -/
def compareFeatures (stored rebuilt : Features) : List FeatureDrift :=
  compareMaps (numbers stored.indicators) (numbers rebuilt.indicators) (1 / 1000000) ++
    compareMaps (truthValues stored.flags) (truthValues rebuilt.flags) (1 / 1000000)

/-! ## Rebuilding features -/

theorem sorted_rows (rows : Frame) :
    (rows.insertionSort fun a b => a.timestamp ≤ b.timestamp).Pairwise
      fun a b => a.timestamp ≤ b.timestamp := List.pairwise_insertionSort _ _

/-- The rows of a file in a provider, sorted as `_load` sorts them. -/
def CsvDataProvider.load (rows : Frame) (symbol timeframe : String) : CsvDataProvider where
  symbol := symbol
  timeframe := timeframe
  df := rows.insertionSort fun a b => a.timestamp ≤ b.timestamp
  sorted := sorted_rows rows

/-- What a replay finds on disk, and the identifier that a build draws. -/
structure ReplayEnvironment (Text : Type) where
  library : ConfigLibrary Text
  indicatorLibrary : IndicatorLibrary
  digest : Digest Text
  dir : ConfigDir Text
  backendRoot : String
  isFile : String → Bool
  readCsv : String → Except PyError Frame
  now : ℤ
  uuid : ℕ

namespace ReplayEnvironment

variable {Text : Type} (env : ReplayEnvironment Text)

/-- `_resolve_csv_path` -/
def resolveCsvPath (csvPath : Option String) : Option String :=
  match csvPath.filter (· ≠ "") with
  | some path => some path
  | none => [env.backendRoot ++ "/tests/fixtures/sample_btc_1h.csv",
      env.backendRoot ++ "/tests/fixtures/ohlcv_btc_1h.csv",
      "/app/data/ohlcv_btc_1h.csv"].find? env.isFile

/-- `load_features_config` -/
def loadFeaturesConfig : Except PyError (FeaturesConfig × String) :=
  (env.library.loadFeaturesConfig env.dir).map fun config =>
    (config, ConfigLibrary.fileHash env.digest env.dir.features)

/-- What `rebuild_indicators` tries. -/
def rebuild (e : EventEnvelope) (path : String) (featuresConfig : FeaturesConfig)
    (configHash : String) : Except PyError Features := do
  let provider := CsvDataProvider.load (← env.readCsv path) e.symbol e.timeframe
  let (config, _) ← env.loadFeaturesConfig
  let lookback ← computeMinLookbackBars env.indicatorLibrary.parseInt config
  let limit := max (lookback + 10) 200
  let df ← provider.getLatest e.symbol e.timeframe limit (some e.eventTime)
  let builder : DefaultFeatureBuilder := { config := featuresConfig, configHash }
  let (featureSet, _) ←
    builder.build env.indicatorLibrary env.uuid df e.symbol e.timeframe e.processingTime
  return { indicators := featureSet.indicators, flags := featureSet.flags }

/-- `rebuild_indicators`, with a configuration given. -/
def rebuildIndicators (e : EventEnvelope) (csvPath : Option String)
    (featuresConfig : FeaturesConfig) (configHash : String) : Option Features :=
  match env.resolveCsvPath csvPath with
  | none => none
  | some path => (env.rebuild e path featuresConfig configHash).toOption

/-- The features in the payload of an event. -/
def storedFeatures (e : EventEnvelope) : Features × String :=
  match e.payload with
  | .featureSetBuilt _ _ configHash indicators flags => ({ indicators, flags }, configHash)
  | _ => ({ indicators := [], flags := [] }, "")

/-- The comparison of `_detect_feature_drift`. -/
def report (stored : Features) (rebuilt : Option Features) : DriftReport :=
  match rebuilt with
  | some rebuilt =>
    let drifts := compareFeatures stored rebuilt
    { detected := 0 < drifts.length, driftCount := drifts.length, drifts
      driftedFeatures := drifts.map (·.key) }
  | none =>
    { detected := false, driftCount := 0, drifts := [], driftedFeatures := []
      rebuildSkipped := true, reason := some "ohlcv_unavailable" }

/-- `_detect_feature_drift` -/
def detectFeatureDrift (e : EventEnvelope) (csvPath : Option String) :
    Except PyError DriftReport := do
  let (stored, storedHash) := storedFeatures e
  let current ← env.library.computeConfigRevision env.digest env.dir "auto" none env.now
  let (featuresConfig, featuresHash) ← env.loadFeaturesConfig
  let drift := report stored (env.rebuildIndicators e csvPath featuresConfig featuresHash)
  if storedHash ≠ "" ∧ storedHash ≠ current.featuresConfigHash then
    return { drift with
      detected := true
      configHashes := some (storedHash, current.featuresConfigHash)
      reason := some (drift.reason.getD "config_hash_mismatch") }
  else return drift

end ReplayEnvironment

/-! ## Features that are rebuilt alike -/

section Alike

variable {values : List (String × FeatureValue)} {tolerance : ℚ}

theorem compareKey_self (h : 0 ≤ tolerance) {key : String} (hkey : key ∈ values.map Prod.fst) :
    compareKey values values tolerance key = none := by
  obtain ⟨e, he, rfl⟩ := List.mem_map.mp hkey
  cases hvalue : values.lookup e.1 with
  | none => simpa using List.lookup_eq_none_iff.mp hvalue e he
  | some value =>
    rw [compareKey, hvalue]
    dsimp only
    rw [sub_self, abs_zero, if_neg (not_lt.mpr h)]

/-- Nothing has drifted from itself. -/
theorem compareMaps_self (h : 0 ≤ tolerance) : compareMaps values values tolerance = [] := by
  refine List.filterMap_eq_nil_iff.mpr fun key hkey => compareKey_self h ?_
  have hmem := List.mem_dedup.mp (List.mem_mergeSort.mp hkey)
  exact (List.mem_append.mp hmem).elim id id

theorem lookup_numbers {indicators : List (String × ℚ)} {key : String} :
    (numbers indicators).lookup key = (indicators.lookup key).map .number := by
  induction indicators with
  | nil => rfl
  | cons e rest ih =>
    rw [numbers, List.map_cons, List.lookup_cons, List.lookup_cons]
    split
    · rfl
    · exact ih

/-- A value that is further away than the tolerance has drifted. -/
theorem compareFeatures_ne_nil {stored rebuilt : Features} {key : String} {a b : ℚ}
    (hstored : stored.indicators.lookup key = some a)
    (hrebuilt : rebuilt.indicators.lookup key = some b) (h : 1 / 1000000 < |a - b|) :
    compareFeatures stored rebuilt ≠ [] := by
  have hkey : key ∈ (numbers stored.indicators).map Prod.fst := by
    by_contra hmissing
    have hnone : (numbers stored.indicators).lookup key = none :=
      List.lookup_eq_none_iff.mpr fun e he => by
        simpa using fun heq : key = e.1 => hmissing (heq ▸ List.mem_map_of_mem he)
    rw [lookup_numbers, hstored] at hnone
    cases hnone
  have hdrift : compareKey (numbers stored.indicators) (numbers rebuilt.indicators) (1 / 1000000)
      key ≠ none := by
    rw [compareKey, lookup_numbers, lookup_numbers, hstored, hrebuilt]
    dsimp only [Option.map]
    rw [FeatureValue.toFloat, FeatureValue.toFloat, if_pos h]
    exact Option.some_ne_none _
  intro hnil
  have hnone := List.filterMap_eq_nil_iff.mp (List.append_eq_nil_iff.mp hnil).1 key
    (List.mem_mergeSort.mpr (List.mem_dedup.mpr (List.mem_append_left _ hkey)))
  exact hdrift hnone

/-- The report of features that have not drifted. -/
def DriftReport.clean : DriftReport where
  detected := false
  driftCount := 0
  drifts := []
  driftedFeatures := []

theorem report_self (features : Features) :
    ReplayEnvironment.report features (some features) = .clean := by
  have hdrifts : compareFeatures features features = [] := by
    rw [compareFeatures, compareMaps_self (by norm_num), compareMaps_self (by norm_num)]
    rfl
  rw [ReplayEnvironment.report, hdrifts]
  rfl

end Alike

namespace CsvDataProvider

variable {p p' : CsvDataProvider} {symbol timeframe symbol' timeframe' : String} {limit limit' : ℕ}
  {t : ℤ} {frame : Frame}

/-- The last of the rows up to a time. -/
def lastRows (df : Frame) (t : ℤ) (limit : ℕ) : Frame :=
  (df.take (searchsortedRight df t)).drop (searchsortedRight df t - limit)

/-- A limit and a wider one leave the same rows where there are no more. -/
theorem lastRows_of_le {df : Frame} (hle : limit ≤ limit')
    (h : limit' = limit ∨ searchsortedRight df t ≤ limit) :
    lastRows df t limit' = lastRows df t limit := by
  unfold lastRows
  congr 1
  omega

/-- A limit leaves no more rows than there are. -/
theorem lastRows_min {df : Frame} :
    lastRows df t (min (searchsortedRight df t) limit) = lastRows df t limit := by
  unfold lastRows
  congr 1
  omega

theorem getLatest_ok (h : p.getLatest symbol timeframe limit (some t) = .ok frame) :
    p.df ≠ [] ∧ searchsortedRight p.df t ≠ 0 ∧ frame = lastRows p.df t limit := by
  obtain ⟨_, -, h⟩ := Except.bind_eq_ok.mp h
  by_cases hdf : p.df = []
  · simp only [hdf, if_true] at h
    cases h
  by_cases hidx : searchsortedRight p.df t = 0
  · simp only [hdf, hidx, if_true, if_false] at h
    cases h
  simp only [hdf, hidx, if_false] at h
  exact ⟨hdf, hidx, (Except.ok.inj h).symm⟩

/-- A provider of the same rows returns what another limit leaves of them. -/
theorem getLatest_limited (h : p.getLatest symbol timeframe limit (some t) = .ok frame)
    (hdf : p'.df = p.df) (hvalid : p'.validateSymbolTimeframe symbol' timeframe' = .ok ()) :
    p'.getLatest symbol' timeframe' limit' (some t) = .ok (lastRows p.df t limit') := by
  obtain ⟨hne, hidx, -⟩ := getLatest_ok h
  unfold getLatest
  simp only [hvalid, hdf, hne, hidx, if_false]
  rfl

end CsvDataProvider

/-! ## The events of a validation -/

/-- A run of the harness from `rt` comes to a cycle that publishes the event. -/
def ValidationHarness.Publishes (h : ValidationHarness) (rt : PlatformRuntime)
    (e : EventEnvelope) : Prop :=
  ∃ times i t cycles rt₁ result rt₂, h.barTimes = .ok times ∧ times[i]? = some t ∧
    h.runBars (times.zipIdx.take i) { rt with published := [] } = .ok (cycles, rt₁) ∧
    (ValidationHarness.setClock t rt₁).runCycle (h.cycleCall i t) = (.ok result, rt₂) ∧
    e ∈ result.events

namespace ReplayEnvironment

open ConfigLibrary

variable {Text : Type} {env : ReplayEnvironment Text} {path : String} {h : ValidationHarness}

/-- The harness runs on a file with the configuration on disk: its builder has that configuration
and the hash of it, and its runs skip the lookback. -/
structure Validates (env : ReplayEnvironment Text) (path : String) (h : ValidationHarness) :
    Prop where
  path_ne : path ≠ ""
  file : ∃ rows symbol timeframe, env.readCsv path = .ok rows ∧
    h.dataProvider = .load rows symbol timeframe
  config : ∃ config hash, env.loadFeaturesConfig = .ok (config, hash) ∧
    computeMinLookbackBars env.indicatorLibrary.parseInt config = .ok h.minLookbackBars ∧
    ∀ i, ∃ featureSetId, (h.collaborators i).build =
      ({ config, configHash := hash } : DefaultFeatureBuilder).build env.indicatorLibrary
        featureSetId
  revision : ∃ revision,
    env.library.computeConfigRevision env.digest env.dir "auto" none env.now = .ok revision

/-- The directory's features have the hash of its revision. -/
theorem hash_eq {hash : String} {config : FeaturesConfig} {revision : ConfigRevision}
    (hconfig : env.loadFeaturesConfig = .ok (config, hash))
    (hrevision : env.library.computeConfigRevision env.digest env.dir "auto" none env.now =
      .ok revision) : hash = revision.featuresConfigHash := by
  obtain ⟨_, _, hconfig⟩ := Except.map_eq_ok.mp hconfig
  obtain ⟨-, rfl⟩ := Prod.mk.inj hconfig
  obtain ⟨_, _, _, _, _, _, hfeatures, -⟩ := computeConfigRevision_eq_ok hrevision
  exact hfeatures.symm

/-- An event of a validation with its configuration: its features are those of the last two hundred
bars, and the rebuild takes more of them where the lookback asks for more. -/
structure Built (env : ReplayEnvironment Text) (path : String) (h : ValidationHarness)
    (e : EventEnvelope) (config : FeaturesConfig) (hash : String) (features : Features) :
    Prop where
  loads : env.loadFeaturesConfig = .ok (config, hash)
  stored : storedFeatures e = (features, hash)
  lookback : computeMinLookbackBars env.indicatorLibrary.parseInt config = .ok h.minLookbackBars
  skipped : h.minLookbackBars < CsvDataProvider.searchsortedRight h.dataProvider.df e.eventTime
  built : ∃ featureSetId processingTime featureSet context,
    ({ config, configHash := hash } : DefaultFeatureBuilder).build env.indicatorLibrary featureSetId
      (CsvDataProvider.lastRows h.dataProvider.df e.eventTime 200) e.symbol e.timeframe
      processingTime = .ok (featureSet, context) ∧
    features = { indicators := featureSet.indicators, flags := featureSet.flags }
  latest : ∃ rows, env.readCsv path = .ok rows ∧ ∀ limit,
    (CsvDataProvider.load rows e.symbol e.timeframe).getLatest e.symbol e.timeframe limit
      (some e.eventTime) = .ok (CsvDataProvider.lastRows h.dataProvider.df e.eventTime limit)

theorem Validates.built {rt : PlatformRuntime} {e : EventEnvelope} (hv : env.Validates path h)
    (hpublishes : h.Publishes rt e) (htype : e.eventType = .featureSetBuilt) :
    ∃ config hash features, env.Built path h e config hash features := by
  obtain ⟨rows, symbol, timeframe, hrows, hprovider⟩ := hv.file
  obtain ⟨config, hash, hloads, hlookback, hbuilder⟩ := hv.config
  obtain ⟨times, i, t, cycles, rt₁, result, rt₂, htimes, ht, -, hrun, he⟩ := hpublishes
  obtain ⟨ctx, rt₃, hfeatures⟩ := PlatformRuntime.runCycle_presents hrun
  obtain ⟨featureSetId, hbuild⟩ := hbuilder i
  obtain ⟨hpayload, hsymbol, htimeframe, htime⟩ := hfeatures.presents e he htype
  have hmem : t ∈ times := List.mem_of_getElem? ht
  obtain ⟨-, -, hexists⟩ := ValidationHarness.barTimes_ok htimes
  have hbar : ctx.eventTime = t :=
    ValidationHarness.eventTime_of_prepared (hexists t hmem) hfeatures.prepared
  have hlatest := hfeatures.prepared.latest
  rw [ValidationHarness.nowEventTime_setClock] at hlatest
  change h.dataProvider.getLatest h.config.symbol h.config.timeframe 200 (some t) = _ at hlatest
  have hmade := hfeatures.built
  change (h.collaborators i).build _ _ _ _ = _ at hmade
  rw [hbuild, (CsvDataProvider.getLatest_ok hlatest).2.2, ← hbar, ← hsymbol, ← htimeframe,
    ← htime] at hmade
  have hvalid : (CsvDataProvider.load rows e.symbol e.timeframe).validateSymbolTimeframe e.symbol
      e.timeframe = .ok () := by
    rw [CsvDataProvider.validateSymbolTimeframe, CsvDataProvider.load]
    simp only [ne_eq, not_true, if_false]
    rfl
  refine ⟨config, hash, ⟨result.featureSet.indicators, result.featureSet.flags⟩, hloads, ?_,
    hlookback, ?_, ⟨featureSetId, ctx.processingTime, _, _, hmade, rfl⟩,
    ⟨rows, hrows, fun limit => ?_⟩⟩
  · have hhash : result.featureSet.configHash = hash := configHash_of_build hmade
    rw [storedFeatures, hpayload, ← hhash]
    rfl
  · rw [htime, hbar]
    exact ValidationHarness.lookback_lt_searchsortedRight htimes hmem
  · rw [htime, hbar]
    exact CsvDataProvider.getLatest_limited hlatest (by rw [hprovider]; rfl) hvalid

section Built

variable {e : EventEnvelope} {config : FeaturesConfig} {hash : String} {features : Features}

/-- The rebuild is a build of the rows that its own limit leaves. -/
theorem Built.rebuild_eq (hb : env.Built path h e config hash features) :
    env.rebuild e path config hash =
      (({ config, configHash := hash } : DefaultFeatureBuilder).build env.indicatorLibrary env.uuid
        (CsvDataProvider.lastRows h.dataProvider.df e.eventTime (max (h.minLookbackBars + 10) 200))
        e.symbol e.timeframe e.processingTime).map fun built =>
          { indicators := built.1.indicators, flags := built.1.flags } := by
  obtain ⟨rows, hrows, hlatest⟩ := hb.latest
  unfold rebuild
  rw [hrows, hb.loads]
  dsimp only [bind, Except.bind]
  rw [hb.lookback]
  dsimp only
  rw [hlatest]
  dsimp only
  cases DefaultFeatureBuilder.build _ _ _ _ _ _ _ <;> rfl

/-- The hashes are the same, so the report compares the features only. -/
theorem Built.detect_eq (hb : env.Built path h e config hash features)
    (hv : env.Validates path h) : env.detectFeatureDrift e (some path) =
      .ok (report features (env.rebuild e path config hash).toOption) := by
  obtain ⟨revision, hrevision⟩ := hv.revision
  have hhash := hash_eq hb.loads hrevision
  unfold detectFeatureDrift
  rw [hb.stored, hrevision, hb.loads]
  dsimp only [bind, Except.bind]
  rw [if_neg fun hne => hne.2 hhash]
  have hpath : env.resolveCsvPath (some path) = some path := by
    simp [resolveCsvPath, Option.filter, hv.path_ne]
  rw [rebuildIndicators, hpath]
  rfl

/-- Features rebuilt from the same rows have not drifted. -/
theorem Built.clean (hb : env.Built path h e config hash features) (hv : env.Validates path h)
    (hrows : max (h.minLookbackBars + 10) 200 = 200 ∨
      CsvDataProvider.searchsortedRight h.dataProvider.df e.eventTime ≤ 200) :
    env.detectFeatureDrift e (some path) = .ok .clean := by
  obtain ⟨_, _, featureSet, context, hmade, rfl⟩ := hb.built
  have hagain := build_again hmade env.uuid e.processingTime
  rw [hb.detect_eq hv, hb.rebuild_eq,
    CsvDataProvider.lastRows_of_le (le_max_right _ _) hrows, hagain]
  exact congrArg Except.ok (report_self _)

end Built

end ReplayEnvironment

/-! ## When no event drifts -/

/-- No event of a validation drifts whose run skips `lookback` bars and which has `bars` rows of the
file up to it. -/
def NeverDrifts (lookback bars : ℕ) : Prop :=
  ∀ (Text : Type) (env : ReplayEnvironment Text) (path : String) (h : ValidationHarness)
    (rt : PlatformRuntime) (e : EventEnvelope), env.Validates path h →
    h.minLookbackBars = lookback → h.Publishes rt e → e.eventType = .featureSetBuilt →
    CsvDataProvider.searchsortedRight h.dataProvider.df e.eventTime = bars →
    env.detectFeatureDrift e (some path) = .ok .clean

theorem neverDrifts_of_le {lookback bars : ℕ}
    (hle : lookback ≤ 190 ∨ bars ≤ 200 ∨ bars ≤ lookback) : NeverDrifts lookback bars := by
  intro Text env path h rt e hv hlookback hpublishes htype hbars
  obtain ⟨config, hash, features, hb⟩ := hv.built hpublishes htype
  have hskipped := hb.skipped
  rw [hlookback, hbars] at hskipped
  refine hb.clean hv ?_
  rw [hlookback, hbars]
  omega

end TradingPlatform
