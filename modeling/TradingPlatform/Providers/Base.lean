import TradingPlatform.Contracts

/-!
# Signal providers

What the signal providers share: the parameters they read, the levels they compute from the average
true range, and the signal they build. Building a signal raises when its confidence is outside
`[0, 1]`.
-/

namespace TradingPlatform

/-- The parameters the technical providers read, each under the type it is converted to and absent
when the configuration does not set it. -/
structure ProviderParams where
  minConfidence : Option ℚ := none
  slAtrMult : Option ℚ := none
  tpAtrMult : Option ℚ := none
  requireTrend : Option Bool := none
  avoidHighVol : Option Bool := none
  oversold : Option ℚ := none
  overbought : Option ℚ := none
  requireSignalAlign : Option Bool := none
  minHistogramSlope : Option ℚ := none
  minAdx : Option ℚ := none
  minDiSpread : Option ℚ := none
  regimeFilter : List String := []
  maxAdx : Option ℚ := none
  period : Option ℤ := none
  minCmf : Option ℚ := none
  minVolumeRatio : Option ℚ := none
  requirePriceAlign : Option Bool := none
  requireBos : Option Bool := none
  smaIndicator : Option String := none
  confidence : Option ℚ := none
  regimeOffSide : Option SignalSide := none
  useAtrStops : Option Bool := none
  deriving DecidableEq, Repr

/-- `features.indicators.get(key, default)` -/
def FeatureSet.indicator (features : FeatureSet) (key : String) (default : ℚ) : ℚ :=
  (features.indicators.lookup key).getD default

/-- `features.flags.get(key, False)` -/
def FeatureSet.flag (features : FeatureSet) (key : String) : Bool :=
  (features.flags.lookup key).getD false

/-- The feature set has neither an indicator nor a flag of that name. -/
def FeatureSet.Missing (features : FeatureSet) (key : String) : Prop :=
  features.indicators.lookup key = none ∧ features.flags.lookup key = none

instance (features : FeatureSet) (key : String) : Decidable (features.Missing key) :=
  inferInstanceAs (Decidable (_ ∧ _))

theorem FeatureSet.indicator_missing {features : FeatureSet} {key : String} {default : ℚ}
    (h : features.Missing key) : features.indicator key default = default := by
  rw [indicator, h.1, Option.getD_none]

theorem FeatureSet.flag_missing {features : FeatureSet} {key : String}
    (h : features.Missing key) : features.flag key = false := by
  rw [flag, h.2, Option.getD_none]

/-- The side of an active signal. -/
def SignalSide.direction : SignalSide → Option Side
  | .buy => some .buy
  | .sell => some .sell
  | .hold => none

theorem SignalSide.direction_eq_some {side : SignalSide} {direction : Side} :
    side.direction = some direction ↔ side = direction.toSignalSide := by
  cases side <;> cases direction <;> decide

theorem SignalSide.direction_eq_none {side : SignalSide} :
    side.direction = none ↔ side = .hold := by
  cases side <;> decide

/-- A filter: an active side it applies to becomes `HOLD`, and the summary says so. -/
def filtered (applies : Prop) [Decidable applies] (note : String)
    (picked : SignalSide × String) : SignalSide × String :=
  if applies ∧ picked.1 ≠ .hold then (.hold, picked.2 ++ note) else picked

theorem fst_filtered_eq_hold {applies : Prop} [Decidable applies] {note : String}
    {picked : SignalSide × String} :
    (filtered applies note picked).1 = .hold ↔ applies ∨ picked.1 = .hold := by
  unfold filtered
  split
  · next h => simp [h.1]
  · next h =>
    refine ⟨.inr, fun hold => ?_⟩
    by_contra hside
    exact h ⟨hold.resolve_right hside, hside⟩

theorem fst_filtered_of_hold {applies : Prop} [Decidable applies] {note : String}
    {picked : SignalSide × String} (h : picked.1 = .hold) :
    (filtered applies note picked).1 = .hold :=
  fst_filtered_eq_hold.mpr (.inr h)

/-- The filter of the trend-following providers: no buying in a downtrend, no selling in an
uptrend. -/
def trendFilter (context : MarketContext) (requireTrend : Bool) (picked : SignalSide × String) :
    SignalSide × String :=
  filtered (requireTrend ∧ (picked.1 = .buy ∧ context.trend = .down ∨
    picked.1 = .sell ∧ context.trend = .up)) " — trend filter" picked

/-- A provider with the part of its configuration that its signals depend on. -/
structure BaseSignalProvider where
  providerId : String
  weight : ℚ := 1
  params : ProviderParams := {}
  weight_nonneg : 0 ≤ weight := by norm_num

namespace BaseSignalProvider

variable (provider : BaseSignalProvider) (features : FeatureSet) (context : MarketContext)

/-- `_rationale` -/
def rationale (summary : String) : ProviderRationale where
  summary := summary
  metadata := [("weight", provider.weight)]

/-- `_build_signal` -/
def buildSignal (side : SignalSide) (confidence : ℚ) (rationale : ProviderRationale)
    (stopLoss takeProfit : Option ℚ := none) : Except PyError StrategySignal :=
  if h : 0 ≤ confidence ∧ confidence ≤ 1 then .ok {
    providerId := provider.providerId
    symbol := features.symbol
    side, confidence, rationale, stopLoss, takeProfit
    confidence_mem := h
    timeframe := features.timeframe
    eventTime := features.eventTime }
  else .error (.validationError "StrategySignal" "confidence")

/-- The multiple of the average true range between the price and the stop. -/
def slMult (slAtrMult : Option ℚ := none) : ℚ :=
  slAtrMult.getD (provider.params.slAtrMult.getD (3 / 2))

/-- The multiple of the average true range between the price and the target. -/
def tpMult (tpAtrMult : Option ℚ := none) : ℚ :=
  tpAtrMult.getD (provider.params.tpAtrMult.getD 3)

/-- `_atr_stops` -/
def atrStops (side : Side) (slAtrMult tpAtrMult : Option ℚ := none) : ℚ × ℚ :=
  let slMult := provider.slMult slAtrMult
  let tpMult := provider.tpMult tpAtrMult
  let price := context.currentPrice
  match side with
  | .buy => (price - slMult * context.atr, price + tpMult * context.atr)
  | .sell => (price + slMult * context.atr, price - tpMult * context.atr)

/-- The end of `analyze`: `HOLD` for want of a side or of confidence, else the side with its
levels. `below` is the summary of a signal held for want of confidence. -/
def conclude (side : SignalSide) (confidence minConfidence : ℚ) (summary below : String) :
    Except PyError StrategySignal :=
  match side.direction with
  | none => provider.buildSignal features .hold confidence (provider.rationale summary)
  | some direction =>
    if confidence < minConfidence then
      provider.buildSignal features .hold (minConfidence - 1 / 100) (provider.rationale below)
    else
      let (stopLoss, takeProfit) := provider.atrStops context direction
      provider.buildSignal features side confidence (provider.rationale summary) stopLoss
        takeProfit

end BaseSignalProvider

namespace BaseSignalProvider

variable {provider : BaseSignalProvider} {features : FeatureSet} {context : MarketContext}
  {side : SignalSide} {confidence minConfidence : ℚ} {rationale : ProviderRationale}
  {stopLoss takeProfit : Option ℚ} {summary below : String} {signal : StrategySignal}

theorem buildSignal_eq_ok
    (h : provider.buildSignal features side confidence rationale stopLoss takeProfit = .ok signal) :
    signal.providerId = provider.providerId ∧ signal.side = side ∧
    signal.confidence = confidence ∧ signal.rationale = rationale ∧
    signal.stopLoss = stopLoss ∧ signal.takeProfit = takeProfit := by
  unfold buildSignal at h
  split at h
  · cases h
    exact ⟨rfl, rfl, rfl, rfl, rfl, rfl⟩
  · cases h

theorem exists_buildSignal (h : 0 ≤ confidence ∧ confidence ≤ 1) :
    ∃ signal, provider.buildSignal features side confidence rationale stopLoss takeProfit =
      .ok signal ∧ signal.side = side := by
  rw [buildSignal, dif_pos h]
  exact ⟨_, rfl, rfl⟩

/-- A `HOLD` is built exactly with a confidence in `[0, 1]`. -/
theorem buildSignal_hold_iff :
    (∃ signal, provider.buildSignal features side confidence rationale stopLoss takeProfit =
      .ok signal ∧ signal.side = .hold) ↔ side = .hold ∧ 0 ≤ confidence ∧ confidence ≤ 1 := by
  constructor
  · rintro ⟨signal, h, hside⟩
    obtain ⟨_, rfl, rfl, _⟩ := buildSignal_eq_ok h
    exact ⟨hside, signal.confidence_mem⟩
  · rintro ⟨rfl, h⟩
    exact exists_buildSignal h

/-- A signal concluded from an admissible confidence is `HOLD` when it has no side, or when the
confidence is too low and the one recorded instead is admissible. -/
theorem conclude_hold_iff (hconf : 1 / 100 ≤ confidence ∧ confidence ≤ 1) :
    (∃ signal, provider.conclude features context side confidence minConfidence summary below =
      .ok signal ∧ signal.side = .hold) ↔
    side = .hold ∨ confidence < minConfidence ∧ minConfidence ≤ 101 / 100 := by
  unfold conclude
  cases hside : side.direction with
  | none =>
    have hhold := SignalSide.direction_eq_none.mp hside
    have hnonneg : 0 ≤ confidence := le_trans (by norm_num) hconf.1
    simp only [buildSignal_hold_iff, hhold, hnonneg, hconf.2, and_self, true_or]
  | some direction =>
    have hne : side ≠ .hold := by
      rintro rfl
      cases hside
    dsimp only
    split_ifs with hlow
    · rw [buildSignal_hold_iff]
      refine ⟨fun h => .inr ⟨hlow, by linarith [h.2.2]⟩, fun h => ⟨rfl, ?_, ?_⟩⟩
      · linarith [hconf.1]
      · linarith [(h.resolve_left hne).2]
    · rw [buildSignal_hold_iff]
      exact ⟨fun h => absurd h.1 hne, fun h => absurd (h.resolve_left hne).1 hlow⟩

end BaseSignalProvider

end TradingPlatform
