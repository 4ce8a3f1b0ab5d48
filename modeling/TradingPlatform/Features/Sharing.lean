import TradingPlatform.Lib.Memo
import TradingPlatform.Features.MarketStructure

/-!
# Shared components

The feature builder computes the columns of a family once for each set of parameters and shares them
between the indicators of a frame. An indicator gives what it gives on its own, but for one: the
difference of the last two closes is computed without the volume columns where components are
shared, and with them, bar check included, where they are not.
-/

namespace TradingPlatform

/-! ## The cache -/

/-- A key of the `shared` dictionary. -/
inductive ComponentKey
  | macd (fast slow signal : ℤ)
  | adx (period : ℤ)
  | bollinger (period : ℤ) (stdMult : ℚ)
  | supertrend (period : ℤ) (multiplier : ℚ)
  | volumeFlow (period : ℤ)
  | marketStructure (pivotBars : ℤ)
  deriving DecidableEq

/-- What the dictionary has at a key. -/
abbrev ComponentKey.Components : ComponentKey → Type
  | macd .. => Macd
  | adx .. => Adx
  | bollinger .. => Bollinger
  | supertrend .. => SuperTrend
  | volumeFlow .. => VolumeFlow
  | marketStructure .. => ℚ × ℚ

abbrev Shared := MemoM ComponentKey.Components IndicatorError

/-- The components of a key. -/
def components (lib : IndicatorLibrary) (bars : List Bar) :
    (key : ComponentKey) → Computed key.Components
  | .macd fast slow signal => macdComponents bars fast slow signal
  | .adx period => adxComponents bars period
  | .bollinger period stdMult => bollingerComponents lib bars period stdMult
  | .supertrend period multiplier => supertrendComponents bars period multiplier
  | .volumeFlow period => volumeFlowComponents bars period
  | .marketStructure pivotBars => marketStructureLatest bars pivotBars

/-- `_compute_shared_component` -/
def computeSharedComponent (lib : IndicatorLibrary) (definition : IndicatorDef)
    (bars : List Bar) : Shared ℚ :=
  let params := definition.params
  match definition.type with
  | "macd" => do
    let fast ← lib.int params "fast" 12
    let slow ← lib.int params "slow" 26
    let signal ← lib.int params "signal" 9
    let macd ← MemoM.fetch (components lib bars) (.macd fast slow signal)
    Macd.component macd bars slow signal (lib.str params "component" "line")
  | "adx" => do
    let period ← lib.int params "period" 14
    let adx ← MemoM.fetch (components lib bars) (.adx period)
    Adx.component adx period (lib.str params "component" "adx")
  | "bollinger" => do
    let period ← lib.int params "period" 20
    let stdMult ← lib.float params "std" 2
    let bands ← MemoM.fetch (components lib bars) (.bollinger period stdMult)
    Bollinger.band bands period (lib.str params "band" "middle")
  | "supertrend" => do
    let period ← lib.int params "period" 10
    let multiplier ← lib.float params "multiplier" 3
    let supertrend ← MemoM.fetch (components lib bars) (.supertrend period multiplier)
    SuperTrend.component supertrend period (lib.str params "component" "line")
  | "volume_flow" => do
    let period ← lib.int params "period" 20
    if lib.str params "component" "cmf" = "close_delta" then closeDelta bars
    else
      let flow ← MemoM.fetch (components lib bars) (.volumeFlow period)
      VolumeFlow.component flow bars period (lib.str params "component" "cmf")
  | "market_structure" => do
    let pivotBars ← lib.int params "pivot_bars" 5
    let latest ← MemoM.fetch (components lib bars) (.marketStructure pivotBars)
    structureComponent latest (lib.str params "component" "bias")
  | type =>
    throw (.raised (.valueError ("Unsupported shared indicator type: " ++ type)))

/-- `_SHARED_COMPONENT_TYPES` -/
def sharedComponentTypes : List String :=
  ["macd", "adx", "bollinger", "supertrend", "volume_flow", "market_structure"]

/-- `compute_indicator` with shared components. -/
def computeIndicatorShared (lib : IndicatorLibrary) (definition : IndicatorDef)
    (bars : List Bar) : Shared ℚ :=
  if definition.type ∈ sharedComponentTypes then computeSharedComponent lib definition bars
  else (computeIndicator lib definition bars : Computed ℚ)

/-- The results of `compute_indicator` for indicators that share components, in their order. -/
def sharedIndicators (lib : IndicatorLibrary) (bars : List Bar) (definitions : List IndicatorDef) :
    List (Computed ℚ) :=
  MemoM.outcomes (definitions.map fun definition => computeIndicatorShared lib definition bars)
    fun _ => none

/-! ## What sharing changes -/

/-- The indicator is the difference of the last two closes. -/
def IndicatorDef.IsCloseDelta (lib : IndicatorLibrary) (definition : IndicatorDef) : Prop :=
  definition.type = "volume_flow" ∧
  lib.str definition.params "component" "cmf" = "close_delta"

instance (lib : IndicatorLibrary) (definition : IndicatorDef) :
    Decidable (definition.IsCloseDelta lib) :=
  inferInstanceAs (Decidable (_ ∧ _))

/-- What an indicator gives where components are shared. -/
def sharedAnswer (lib : IndicatorLibrary) (bars : List Bar) (definition : IndicatorDef) :
    Computed ℚ :=
  if definition.IsCloseDelta lib then do
    let _ ← lib.int definition.params "period" 20
    closeDelta bars
  else computeIndicator lib definition bars

/-- Two closes, and a period that the columns which are not used do not have. -/
def IndicatorDef.CloseDeltaApart (lib : IndicatorLibrary) (bars : List Bar)
    (definition : IndicatorDef) : Prop :=
  definition.IsCloseDelta lib ∧ 2 ≤ bars.length ∧
  ∃ period, lib.int definition.params "period" 20 = .ok period ∧
    (period < 0 ∨ bars.length < period)

variable {lib : IndicatorLibrary} {bars : List Bar} {definition : IndicatorDef}

theorem sharedAnswer_of_type_ne (h : definition.type ≠ "volume_flow") :
    sharedAnswer lib bars definition = computeIndicator lib definition bars :=
  if_neg fun hclose => h hclose.1

theorem fetch_answers (key : ComponentKey) {f : key.Components → Computed ℚ} :
    MemoM.Answers (components lib bars) (do liftM (f (← MemoM.fetch (components lib bars) key)))
      (components lib bars key >>= f) :=
  (MemoM.answers_fetch key).bind fun _ => MemoM.answers_lift _

/-- Each family uses the cache through the key of its parameters only. -/
theorem computeSharedComponent_answers (h : definition.type ∈ sharedComponentTypes) :
    MemoM.Answers (components lib bars) (computeSharedComponent lib definition bars)
      (sharedAnswer lib bars definition) := by
  simp only [sharedComponentTypes, List.mem_cons, List.not_mem_nil, or_false] at h
  rcases h with h | h | h | h | h | h
  · rw [sharedAnswer_of_type_ne (by rw [h]; decide), computeIndicator, computeSharedComponent]
    simp only [h]
    refine (MemoM.answers_lift _).bind fun fast => (MemoM.answers_lift _).bind fun slow =>
      (MemoM.answers_lift _).bind fun signal => ?_
    exact fetch_answers (.macd fast slow signal)
  · rw [sharedAnswer_of_type_ne (by rw [h]; decide), computeIndicator, computeSharedComponent]
    simp only [h]
    refine (MemoM.answers_lift _).bind fun period => ?_
    exact fetch_answers (.adx period)
  · rw [sharedAnswer_of_type_ne (by rw [h]; decide), computeIndicator, computeSharedComponent]
    simp only [h]
    refine (MemoM.answers_lift _).bind fun period => (MemoM.answers_lift _).bind fun stdMult => ?_
    exact fetch_answers (.bollinger period stdMult)
  · rw [sharedAnswer_of_type_ne (by rw [h]; decide), computeIndicator, computeSharedComponent]
    simp only [h]
    refine (MemoM.answers_lift _).bind fun period => (MemoM.answers_lift _).bind fun mult => ?_
    exact fetch_answers (.supertrend period mult)
  · rw [computeSharedComponent]
    simp only [h]
    by_cases hclose : lib.str definition.params "component" "cmf" = "close_delta"
    · -- no key of the cache is used
      rw [sharedAnswer, if_pos ⟨h, hclose⟩]
      refine (MemoM.answers_lift _).bind fun period => ?_
      rw [if_pos hclose]
      exact MemoM.answers_lift _
    · rw [sharedAnswer, if_neg fun hdelta => hclose hdelta.2, computeIndicator]
      simp only [h]
      refine (MemoM.answers_lift _).bind fun period => ?_
      rw [if_neg hclose]
      exact fetch_answers (.volumeFlow period)
  · rw [sharedAnswer_of_type_ne (by rw [h]; decide), computeIndicator, computeSharedComponent]
    simp only [h]
    refine (MemoM.answers_lift _).bind fun pivotBars => ?_
    exact fetch_answers (.marketStructure pivotBars)

theorem computeIndicatorShared_answers : MemoM.Answers (components lib bars)
    (computeIndicatorShared lib definition bars) (sharedAnswer lib bars definition) := by
  rw [computeIndicatorShared]
  split_ifs with h
  · exact computeSharedComponent_answers h
  · rw [sharedAnswer_of_type_ne fun htype => h (by rw [htype]; decide)]
    exact MemoM.answers_lift _

theorem volumeFlowComponents_of_le {period : ℤ} (h : 0 ≤ period ∧ period ≤ bars.length) :
    ∃ flow, volumeFlowComponents bars period = .ok flow := by
  rw [volumeFlowComponents, requireBars, if_neg (by omega), rolling, if_neg (by omega), rolling,
    if_neg (by omega), rolling, if_neg (by omega)]
  exact ⟨_, rfl⟩

theorem volumeFlowComponents_of_not_le {period : ℤ} (h : period < 0 ∨ bars.length < period) :
    ∃ e, volumeFlowComponents bars period = .error e := by
  rw [volumeFlowComponents, requireBars]
  split_ifs with hbars
  · exact ⟨_, rfl⟩
  · rw [rolling, if_pos (by omega)]
    exact ⟨_, rfl⟩

theorem closeDelta_of_lt (h : bars.length < 2) : ∃ e, closeDelta bars = .error e := by
  rw [closeDelta, requireBars, if_pos (by omega)]
  exact ⟨_, rfl⟩

theorem closeDelta_of_le (h : 2 ≤ bars.length) : ∃ v, closeDelta bars = .ok v := by
  have hlength : (closes bars).reverse.length = bars.length := by
    rw [List.length_reverse, length_closes]
  rw [closeDelta, requireBars, if_neg (by omega)]
  rcases hcloses : (closes bars).reverse with _ | ⟨last, _ | ⟨previous, rest⟩⟩
  · rw [hcloses, List.length_nil] at hlength
    omega
  · rw [hcloses, List.length_singleton] at hlength
    omega
  · exact ⟨_, rfl⟩

theorem sharedAnswer_eq_iff :
    (sharedAnswer lib bars definition).toOption = (computeIndicator lib definition bars).toOption ↔
      ¬ definition.CloseDeltaApart lib bars := by
  by_cases hclose : definition.IsCloseDelta lib
  swap
  · rw [sharedAnswer, if_neg hclose]
    exact ⟨fun _ h => hclose h.1, fun _ => rfl⟩
  rw [sharedAnswer, if_pos hclose, computeIndicator, hclose.1]
  change _ = (VolumeFlowIndicator.compute lib bars definition.params).toOption ↔ _
  rw [VolumeFlowIndicator.compute, hclose.2]
  cases hperiod : lib.int definition.params "period" 20 with
  | error e =>
    refine ⟨fun _ h => ?_, fun _ => rfl⟩
    obtain ⟨-, -, period, hok, -⟩ := h
    cases hperiod.symm.trans hok
  | ok period =>
    have happart : definition.CloseDeltaApart lib bars ↔
        2 ≤ bars.length ∧ (period < 0 ∨ bars.length < period) := by
      rw [IndicatorDef.CloseDeltaApart, hperiod]
      simp [hclose]
    rw [happart]
    change (closeDelta bars).toOption = (volumeFlowComponents bars period >>= fun flow =>
      closeDelta bars).toOption ↔ _
    by_cases hrange : 0 ≤ period ∧ period ≤ bars.length
    · obtain ⟨flow, hflow⟩ := volumeFlowComponents_of_le hrange
      rw [hflow]
      exact ⟨fun _ h => by omega, fun _ => rfl⟩
    · have hout : period < 0 ∨ bars.length < period := by omega
      obtain ⟨e, he⟩ := volumeFlowComponents_of_not_le hout
      rw [he]
      rcases lt_or_ge bars.length 2 with hshort | hlong
      · obtain ⟨e', he'⟩ := closeDelta_of_lt hshort
        rw [he']
        exact ⟨fun _ h => by omega, fun _ => rfl⟩
      · obtain ⟨v, hv⟩ := closeDelta_of_le hlong
        rw [hv]
        exact ⟨fun h => (by cases h), fun h => absurd ⟨hlong, hout⟩ h⟩

theorem sharedIndicators_eq_iff (lib : IndicatorLibrary) (bars : List Bar)
    (definitions : List IndicatorDef) :
    (sharedIndicators lib bars definitions).map Except.toOption =
        definitions.map (fun definition => (computeIndicator lib definition bars).toOption) ↔
      ∀ definition ∈ definitions, ¬ definition.CloseDeltaApart lib bars := by
  rw [sharedIndicators, MemoM.outcomes_eq (fun _ _ => computeIndicatorShared_answers)
    MemoM.sound_empty, List.map_map, List.map_inj_left]
  exact forall₂_congr fun definition _ => sharedAnswer_eq_iff

/-- On a frame shorter than its period the difference of the closes is computed only where
components are shared. -/
theorem not_sharedIndicators_eq : ¬ ∀ (lib : IndicatorLibrary) (bars : List Bar)
    (definitions : List IndicatorDef), (sharedIndicators lib bars definitions).map Except.toOption =
      definitions.map fun definition => (computeIndicator lib definition bars).toOption := by
  intro h
  have hshared := h plainLibrary ([100, 101].map stillBar)
    [{ name := "close_delta", type := "volume_flow"
       params := [("component", .str "close_delta")] }]
  revert hshared
  decide +kernel

end TradingPlatform
