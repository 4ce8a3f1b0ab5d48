import TradingPlatform.Features.Sharing

/-!
# Values of earlier bars

An indicator returns the last value of its column that is not missing. The columns are missing in
their first rows, where the value does not show, and in rows whose divisor is zero, where it can
show: the value of an earlier bar is then returned as the current one. That takes a window without
volume, or a period of one bar.
-/

namespace TradingPlatform

/-- What the builder computes features of. -/
structure OhlcvFrame (bars : List Bar) : Prop where
  nonempty : bars ≠ []
  wellFormed : ∀ bar ∈ bars, bar.WellFormed
  volume : ∀ bar ∈ bars, 0 ≤ bar.volume

/-! ## The columns -/

section Columns

variable (lib : IndicatorLibrary) (bars : List Bar) (params : Yaml.Entries)

def EmaIndicator.column : Computed (Series ℚ) := do
  emaSeries bars (← lib.requiredInt params "period")

def SmaIndicator.column : Computed (Series ℚ) := do
  rolling (← lib.requiredInt params "period") windowMean (closes bars)

def AtrIndicator.column : Computed (Series ℚ) := do
  atrSeries bars (← lib.requiredInt params "period")

def RsiIndicator.column : Computed (Series ℚ) := do
  rsiSeries bars (← lib.requiredInt params "period")

/-- The sign of a spread that has changed. -/
def crossing (prev curr : ℚ) : ℚ :=
  if prev ≤ 0 ∧ 0 < curr then 1 else if 0 ≤ prev ∧ curr < 0 then -1 else 0

def EmaCrossIndicator.column : Computed (Series ℚ) := do
  let fast ← lib.int params "fast" 12
  let slow ← lib.int params "slow" 26
  return (minus (← emaSeries bars fast) (← emaSeries bars slow)).consecutive crossing

def Macd.column (macd : Macd) : String → Series ℚ
  | "line" => macd.line
  | "signal" => macd.signalLine
  | "histogram" => macd.histogram
  | "histogram_slope" => Series.consecutive (fun previous last => last - previous) macd.histogram
  | _ => []

def MacdIndicator.column : Computed (Series ℚ) := do
  let fast ← lib.int params "fast" 12
  let slow ← lib.int params "slow" 26
  let signal ← lib.int params "signal" 9
  return (← macdComponents bars fast slow signal).column (lib.str params "component" "line")

def Adx.column (adx : Adx) : String → Series ℚ
  | "adx" => adx.adx
  | "plus_di" => adx.plusDi
  | "minus_di" => adx.minusDi
  | _ => []

def AdxIndicator.column : Computed (Series ℚ) := do
  let period ← lib.int params "period" 14
  return (← adxComponents bars period).column (lib.str params "component" "adx")

def Bollinger.column (bands : Bollinger) (band : String) : Series ℚ :=
  if band = "upper" then bands.upper else if band = "lower" then bands.lower else bands.middle

def BollingerIndicator.column : Computed (Series ℚ) := do
  let period ← lib.int params "period" 20
  let stdMult ← lib.float params "std" 2
  return (← bollingerComponents lib bars period stdMult).column (lib.str params "band" "middle")

def SuperTrend.column (supertrend : SuperTrend) : String → Series ℚ
  | "line" => supertrend.line
  | "direction" => supertrend.direction
  | _ => []

def SuperTrendIndicator.column : Computed (Series ℚ) := do
  let period ← lib.int params "period" 10
  let multiplier ← lib.float params "multiplier" 3
  return (← supertrendComponents bars period multiplier).column
    (lib.str params "component" "line")

def VolumeFlow.column (flow : VolumeFlow) : String → Series ℚ
  | "cmf" => flow.cmf
  | "volume_ratio" => flow.volumeRatio
  | "close_delta" =>
    Series.consecutive (fun previous last => last - previous) ((closes bars).map some)
  | _ => []

def VolumeFlowIndicator.column : Computed (Series ℚ) := do
  let period ← lib.int params "period" 20
  return (← volumeFlowComponents bars period).column bars (lib.str params "component" "cmf")

/-- The structure at each bar, of the pivots that the bars up to it confirm. -/
def MarketStructureIndicator.column : Computed (Series ℚ) := do
  let pivotBars ← lib.int params "pivot_bars" 5
  return (List.range bars.length).map fun t => do
    let bar ← bars[t]?
    let pivots ← (findConfirmedPivots (bars.take (t + 1)) pivotBars t).toOption
    (structureComponent (pivots.bias, pivots.bos bar.close)
      (lib.str params "component" "bias")).toOption

def ConstantIndicator.column : Computed (Series ℚ) := do
  let value ← lib.float params "value" 0
  return bars.map fun _ => some value

end Columns

/-- The values of an indicator at each bar of the frame. -/
def IndicatorDef.column (lib : IndicatorLibrary) (bars : List Bar) (definition : IndicatorDef) :
    Computed (Series ℚ) :=
  match definition.type with
  | "ema" => EmaIndicator.column lib bars definition.params
  | "sma" => SmaIndicator.column lib bars definition.params
  | "atr" => AtrIndicator.column lib bars definition.params
  | "ema_cross" => EmaCrossIndicator.column lib bars definition.params
  | "macd" => MacdIndicator.column lib bars definition.params
  | "bollinger" => BollingerIndicator.column lib bars definition.params
  | "rsi" => RsiIndicator.column lib bars definition.params
  | "adx" => AdxIndicator.column lib bars definition.params
  | "supertrend" => SuperTrendIndicator.column lib bars definition.params
  | "volume_flow" => VolumeFlowIndicator.column lib bars definition.params
  | "market_structure" => MarketStructureIndicator.column lib bars definition.params
  | "constant" => ConstantIndicator.column lib bars definition.params
  | type => .error (.raised (.keyError ("Unknown indicator type: " ++ type)))

/-- The value is that of the last row. -/
def AtLast (column : Computed (Series ℚ)) (v : ℚ) : Prop :=
  ∃ s, column = .ok s ∧ s.current = some v

/-! ## Missing rows at the end -/

/-- The last `period` bars have no volume, and another bar has. -/
def QuietEnd (bars : List Bar) (period : ℤ) : Prop :=
  (∀ v ∈ (volumes bars).drop (bars.length - period.toNat), v = 0) ∧ ∃ v ∈ volumes bars, v ≠ 0

/-- A column that divides by the volume of a window, where the last window has none. -/
def StaleVolume (lib : IndicatorLibrary) (bars : List Bar) (params : Yaml.Entries) : Prop :=
  lib.str params "component" "cmf" ∈ ["cmf", "volume_ratio"] ∧
  ∃ period, lib.int params "period" 20 = .ok period ∧ 1 ≤ period ∧ QuietEnd bars period

/-- An index of single changes, where the last close has not fallen and another one has. -/
def StaleRsi (lib : IndicatorLibrary) (bars : List Bar) (params : Yaml.Entries) : Prop :=
  lib.requiredInt params "period" = .ok 1 ∧
  (∃ d, (changes bars).getLast? = some d ∧ 0 ≤ d) ∧ Falls bars

/-- A directional indicator of single bars, where the last bar has no range and another one has. -/
def StaleDi (lib : IndicatorLibrary) (bars : List Bar) (params : Yaml.Entries) : Prop :=
  lib.str params "component" "adx" ∈ ["plus_di", "minus_di"] ∧
  lib.int params "period" 14 = .ok 1 ∧
  (trueRanges bars).getLast? = some 0 ∧ ∃ r ∈ trueRanges bars, r ≠ 0

/-- The last row of the column is missing, and an earlier one is not. -/
def IndicatorDef.Stale (lib : IndicatorLibrary) (bars : List Bar) (definition : IndicatorDef) :
    Prop :=
  (definition.type = "volume_flow" ∧ StaleVolume lib bars definition.params) ∨
  (definition.type = "rsi" ∧ StaleRsi lib bars definition.params) ∨
  (definition.type = "adx" ∧ StaleDi lib bars definition.params)

/-! ## Columns that are up to date -/

section UpToDate

variable {lib : IndicatorLibrary} {bars : List Bar} {params : Yaml.Entries} {v : ℚ}

theorem requireBars_eq_ok {name : String} {needed : ℤ} {u : Unit} :
    requireBars name needed bars = .ok u ↔ needed ≤ bars.length := by
  rw [requireBars]
  split_ifs with h
  · exact iff_of_false (fun h => by cases h) (not_le.mpr h)
  · exact iff_of_true rfl (not_lt.mp h)

/-- What is read of a column that is up to date is the value of the last bar. -/
theorem atLast_of_upToDate {column : Computed (Series ℚ)} {s : Series ℚ} {name : String} {n : ℤ}
    (hcolumn : column = .ok s) (hs : s.UpToDate) (h : lastValid s name n = .ok v) :
    AtLast column v :=
  ⟨s, hcolumn, hs v (lastValid_eq_ok.mp h)⟩

theorem ewmSpan_map_some {span : ℤ} {xs : List ℚ} {s : Series ℚ}
    (h : ewmSpan span (xs.map some) = .ok s) :
    s = (Series.smooth (2 / (span + 1) : ℚ) xs).map some := by
  unfold ewmSpan at h
  split_ifs at h
  cases h
  rw [Series.ewm_map_some, Series.warm_zero]

theorem emaSeries_eq {span : ℤ} {s : Series ℚ} (h : emaSeries bars span = .ok s) :
    s = (Series.smooth (2 / (span + 1) : ℚ) (closes bars)).map some :=
  ewmSpan_map_some h

theorem minus_map_some (xs ys : List ℚ) :
    minus (xs.map some) (ys.map some) = (List.zipWith (· - ·) xs ys).map some := by
  rw [minus, Series.lift₂, List.zipWith_map, List.map_zipWith]
  rfl

theorem EmaIndicator.atLast (h : EmaIndicator.compute lib bars params = .ok v) :
    AtLast (EmaIndicator.column lib bars params) v := by
  obtain ⟨period, hperiod, h⟩ := Except.bind_eq_ok.mp h
  obtain ⟨⟨⟩, -, h⟩ := Except.bind_eq_ok.mp h
  obtain ⟨s, hs, h⟩ := Except.bind_eq_ok.mp h
  refine atLast_of_upToDate (by rw [column, hperiod]; exact hs) ?_ h
  rw [emaSeries_eq hs]
  exact Series.upToDate_map_some _

theorem rolling_eq_ok {window : ℤ} {f : List ℚ → Option ℚ} {xs : List ℚ} {s : Series ℚ}
    (h : rolling window f xs = .ok s) : 0 ≤ window ∧ s = Series.rolling window.toNat f xs := by
  unfold rolling at h
  split_ifs at h with hneg
  cases h
  exact ⟨not_lt.mp hneg, rfl⟩

theorem windowMean_cases (w : ℕ) :
    (∀ window : List ℚ, window.length = w → ∃ v, windowMean window = some v) ∨
    ∀ window : List ℚ, window.length = w → windowMean window = none := by
  rcases w.eq_zero_or_pos with rfl | hpos
  · right
    intro window hwindow
    rw [windowMean, hwindow]
    exact if_pos Nat.cast_zero
  · left
    intro window hwindow
    rw [windowMean, hwindow]
    exact ⟨_, if_neg (Nat.cast_ne_zero.mpr hpos.ne')⟩

theorem windowVariance_cases (w : ℕ) :
    (∀ window : List ℚ, window.length = w → ∃ v, windowVariance window = some v) ∨
    ∀ window : List ℚ, window.length = w → windowVariance window = none := by
  rcases windowMean_cases w with hmean | hmean
  · rcases eq_or_ne w 1 with rfl | hne
    · right
      intro window hwindow
      obtain ⟨m, hm⟩ := hmean window hwindow
      rw [windowVariance, hm, hwindow]
      exact if_pos (by norm_num)
    · left
      intro window hwindow
      obtain ⟨m, hm⟩ := hmean window hwindow
      rw [windowVariance, hm, hwindow]
      exact ⟨_, if_neg (sub_ne_zero.mpr (Nat.cast_ne_one.mpr hne))⟩
  · right
    intro window hwindow
    rw [windowVariance, hmean window hwindow]
    rfl

theorem SmaIndicator.atLast (h : SmaIndicator.compute lib bars params = .ok v) :
    AtLast (SmaIndicator.column lib bars params) v := by
  obtain ⟨period, hperiod, h⟩ := Except.bind_eq_ok.mp h
  obtain ⟨⟨⟩, hbars, h⟩ := Except.bind_eq_ok.mp h
  obtain ⟨s, hs, h⟩ := Except.bind_eq_ok.mp h
  rw [requireBars_eq_ok] at hbars
  refine atLast_of_upToDate (Except.bind_eq_ok.mpr ⟨period, hperiod, hs⟩) ?_ h
  obtain ⟨-, rfl⟩ := rolling_eq_ok hs
  refine Series.upToDate_rolling ?_ (windowMean_cases _)
  rw [length_closes]
  omega

theorem AtrIndicator.atLast (h : AtrIndicator.compute lib bars params = .ok v) :
    AtLast (AtrIndicator.column lib bars params) v := by
  obtain ⟨period, hperiod, h⟩ := Except.bind_eq_ok.mp h
  obtain ⟨⟨⟩, hbars, h⟩ := Except.bind_eq_ok.mp h
  obtain ⟨s, hs, h⟩ := Except.bind_eq_ok.mp h
  rw [requireBars_eq_ok] at hbars
  refine atLast_of_upToDate (Except.bind_eq_ok.mpr ⟨period, hperiod, hs⟩) ?_ h
  have hpos := period_of_ewmAlpha hs
  rw [atrSeries, ewmAlpha_eq hpos, Series.ewm_map_some] at hs
  cases hs
  refine Series.upToDate_warm ?_
  rw [Series.length_smooth, length_trueRanges]
  omega

theorem EmaCrossIndicator.atLast (h : EmaCrossIndicator.compute lib bars params = .ok v) :
    AtLast (EmaCrossIndicator.column lib bars params) v := by
  obtain ⟨fast, hfast, h⟩ := Except.bind_eq_ok.mp h
  obtain ⟨slow, hslow, h⟩ := Except.bind_eq_ok.mp h
  obtain ⟨⟨⟩, -, h⟩ := Except.bind_eq_ok.mp h
  obtain ⟨s, hs, h⟩ := Except.bind_eq_ok.mp h
  obtain ⟨t, ht, h⟩ := Except.bind_eq_ok.mp h
  refine ⟨(minus s t).consecutive crossing, ?_, ?_⟩
  · refine Except.bind_eq_ok.mpr ⟨fast, hfast, Except.bind_eq_ok.mpr ⟨slow, hslow, ?_⟩⟩
    exact Except.bind_eq_ok.mpr ⟨s, hs, Except.bind_eq_ok.mpr ⟨t, ht, rfl⟩⟩
  · rw [emaSeries_eq hs, emaSeries_eq ht, minus_map_some] at h ⊢
    rw [Series.reduceOption_map_some] at h
    dsimp only at h
    split at h
    · next curr prev rest hreverse =>
      rw [Series.current_consecutive hreverse, crossing]
      split_ifs at h ⊢ <;> cases h <;> rfl
    · cases h

theorem macdComponents_eq {fast slow signal : ℤ} {macd : Macd}
    (h : macdComponents bars fast slow signal = .ok macd) : ∃ line signalLine histogram : List ℚ,
      macd = { line := line.map some, signalLine := signalLine.map some
               histogram := histogram.map some } := by
  obtain ⟨⟨⟩, -, h⟩ := Except.bind_eq_ok.mp h
  obtain ⟨s, hs, h⟩ := Except.bind_eq_ok.mp h
  obtain ⟨t, ht, h⟩ := Except.bind_eq_ok.mp h
  obtain ⟨signalLine, hsignal, h⟩ := Except.bind_eq_ok.mp h
  cases h
  rw [emaSeries_eq hs, emaSeries_eq ht, minus_map_some] at hsignal ⊢
  rw [ewmSpan_map_some hsignal, minus_map_some]
  exact ⟨_, _, _, rfl⟩

theorem MacdIndicator.atLast (h : MacdIndicator.compute lib bars params = .ok v) :
    AtLast (MacdIndicator.column lib bars params) v := by
  obtain ⟨fast, hfast, h⟩ := Except.bind_eq_ok.mp h
  obtain ⟨slow, hslow, h⟩ := Except.bind_eq_ok.mp h
  obtain ⟨signal, hsignal, h⟩ := Except.bind_eq_ok.mp h
  obtain ⟨macd, hmacd, h⟩ := Except.bind_eq_ok.mp h
  refine ⟨macd.column (lib.str params "component" "line"), ?_, ?_⟩
  · refine Except.bind_eq_ok.mpr ⟨fast, hfast, Except.bind_eq_ok.mpr ⟨slow, hslow, ?_⟩⟩
    exact Except.bind_eq_ok.mpr ⟨signal, hsignal, Except.bind_eq_ok.mpr ⟨macd, hmacd, rfl⟩⟩
  · obtain ⟨line, signalLine, histogram, rfl⟩ := macdComponents_eq hmacd
    unfold Macd.component at h
    split at h
    · next hcomponent =>
      rw [hcomponent]
      exact Series.upToDate_map_some line v (lastValid_eq_ok.mp h)
    · next hcomponent =>
      rw [hcomponent]
      exact Series.upToDate_map_some signalLine v (lastValid_eq_ok.mp h)
    · next hcomponent =>
      rw [hcomponent]
      exact Series.upToDate_map_some histogram v (lastValid_eq_ok.mp h)
    · next hcomponent =>
      rw [hcomponent]
      obtain ⟨⟨⟩, -, h⟩ := Except.bind_eq_ok.mp h
      rw [Series.reduceOption_map_some] at h
      split at h
      · next last previous rest hreverse =>
        cases h
        exact Series.current_consecutive hreverse
      · cases h
    · cases h

/-- The bands of windows that all have a deviation, or of which none has one. -/
theorem upToDate_band {period : ℤ} (hlength : period ≤ bars.length) (f : ℚ → ℚ → ℚ) :
    (Series.lift₂ (fun m s => some (f m s)) (Series.rolling period.toNat windowMean (closes bars))
      (Series.rolling period.toNat (fun window => (windowVariance window).map lib.sqrt)
        (closes bars))).UpToDate := by
  rw [Series.lift₂_rolling]
  refine Series.upToDate_rolling (by rw [length_closes]; omega) ?_
  rcases windowMean_cases period.toNat with hmean | hmean
  · rcases windowVariance_cases period.toNat with hvar | hvar
    · left
      intro window hwindow
      obtain ⟨m, hm⟩ := hmean window hwindow
      obtain ⟨s, hs⟩ := hvar window hwindow
      rw [hm, hs]
      exact ⟨_, rfl⟩
    · right
      intro window hwindow
      obtain ⟨m, hm⟩ := hmean window hwindow
      rw [hm, hvar window hwindow]
      rfl
  · right
    intro window hwindow
    rw [hmean window hwindow]
    rfl

theorem BollingerIndicator.atLast (h : BollingerIndicator.compute lib bars params = .ok v) :
    AtLast (BollingerIndicator.column lib bars params) v := by
  obtain ⟨period, hperiod, h⟩ := Except.bind_eq_ok.mp h
  obtain ⟨stdMult, hstd, h⟩ := Except.bind_eq_ok.mp h
  obtain ⟨bands, hbands, h⟩ := Except.bind_eq_ok.mp h
  refine atLast_of_upToDate ?_ ?_ h
  · refine Except.bind_eq_ok.mpr ⟨period, hperiod, Except.bind_eq_ok.mpr ⟨stdMult, hstd, ?_⟩⟩
    exact Except.bind_eq_ok.mpr ⟨bands, hbands, rfl⟩
  · obtain ⟨⟨⟩, hlength, hbands⟩ := Except.bind_eq_ok.mp hbands
    obtain ⟨middle, hmiddle, hbands⟩ := Except.bind_eq_ok.mp hbands
    obtain ⟨std, hstd, hbands⟩ := Except.bind_eq_ok.mp hbands
    rw [requireBars_eq_ok] at hlength
    obtain ⟨-, rfl⟩ := rolling_eq_ok hmiddle
    obtain ⟨-, rfl⟩ := rolling_eq_ok hstd
    cases hbands
    split_ifs
    · exact upToDate_band hlength fun m s => m + stdMult * s
    · exact upToDate_band hlength fun m s => m - stdMult * s
    · refine Series.upToDate_rolling ?_ (windowMean_cases _)
      rw [length_closes]
      omega

/-- A row has a trend where it has bands. -/
theorem map_isSome_trends (first up : Bool) (previous : Option Bands) (close : ℚ)
    (rows : List (ℚ × Option Bands)) :
    (trends first up (finalBands previous close rows)).map Option.isSome =
      rows.map (·.2.isSome) := by
  induction rows generalizing first up previous close with
  | nil => rfl
  | cons row rest ih =>
    obtain ⟨next, basic⟩ := row
    cases basic <;> rw [finalBands, Option.map, trends, List.map_cons, List.map_cons, ih] <;> rfl

theorem map_isSome_bandRows (period : ℤ) (multiplier : ℚ) :
    (bandRows bars period multiplier).map (·.2.isSome) =
      (Series.warm period.toNat
        (Series.smooth (1 / period : ℚ) (trueRanges bars))).map Option.isSome := by
  have hlength : (Series.warm period.toNat
      (Series.smooth (1 / period : ℚ) (trueRanges bars))).length ≤ bars.length := by
    rw [Series.length_warm, Series.length_smooth, length_trueRanges]
  rw [bandRows, Series.ewm_map_some, List.map_zipWith, ← List.map_uncurry_zip_eq_zipWith]
  conv_rhs => rw [← List.map_snd_zip hlength, List.map_map]
  refine List.map_congr_left fun x _ => ?_
  exact Option.isSome_map

/-- The last bar has an ATR where the frame is as long as the period, so it has bands. -/
theorem exists_getLast_trends {period : ℤ} (multiplier : ℚ) (hpos : 1 ≤ period)
    (hlength : period ≤ bars.length) : ∃ x, (trends true true (finalBands none 0
      (bandRows bars period multiplier))).getLast? = some (some x) := by
  have hne : Series.smooth (1 / period : ℚ) (trueRanges bars) ≠ [] := by
    refine List.ne_nil_of_length_pos ?_
    rw [Series.length_smooth, length_trueRanges]
    omega
  have hsome : ((trends true true (finalBands none 0
      (bandRows bars period multiplier))).map Option.isSome).getLast? = some true := by
    rw [map_isSome_trends, map_isSome_bandRows, List.getLast?_map, Series.getLast?_warm,
      List.getLast?_eq_some_getLast hne]
    · rfl
    · rw [Series.length_smooth, length_trueRanges]
      omega
  rw [List.getLast?_map] at hsome
  obtain ⟨o, ho, hisSome⟩ := Option.map_eq_some_iff.mp hsome
  obtain ⟨x, rfl⟩ := Option.isSome_iff_exists.mp hisSome
  exact ⟨x, ho⟩

theorem SuperTrendIndicator.atLast (h : SuperTrendIndicator.compute lib bars params = .ok v) :
    AtLast (SuperTrendIndicator.column lib bars params) v := by
  obtain ⟨period, hperiod, h⟩ := Except.bind_eq_ok.mp h
  obtain ⟨multiplier, hmultiplier, h⟩ := Except.bind_eq_ok.mp h
  obtain ⟨supertrend, hsupertrend, h⟩ := Except.bind_eq_ok.mp h
  have hcolumn : SuperTrendIndicator.column lib bars params =
      .ok (supertrend.column (lib.str params "component" "line")) := by
    refine Except.bind_eq_ok.mpr ⟨period, hperiod, ?_⟩
    refine Except.bind_eq_ok.mpr ⟨multiplier, hmultiplier, ?_⟩
    exact Except.bind_eq_ok.mpr ⟨supertrend, hsupertrend, rfl⟩
  obtain ⟨hpos, rfl⟩ := supertrendComponents_eq hsupertrend
  obtain ⟨⟨⟩, hlength, -⟩ := Except.bind_eq_ok.mp hsupertrend
  rw [requireBars_eq_ok] at hlength
  have hperiods : period ≤ bars.length := by omega
  obtain ⟨x, hx⟩ := exists_getLast_trends multiplier hpos hperiods
  have hcurrent (f : Bands × Bool → ℚ) : Series.UpToDate ((trends true true (finalBands none 0
      (bandRows bars period multiplier))).map (Option.map f)) := by
    refine Series.upToDate_iff.mpr (.inl ⟨f x, ?_⟩)
    rw [Series.current, List.getLast?_map, hx]
    rfl
  unfold SuperTrend.component at h
  split at h
  · next hcomponent =>
    rw [hcomponent] at hcolumn
    exact atLast_of_upToDate hcolumn (hcurrent _) h
  · next hcomponent =>
    rw [hcomponent] at hcolumn
    exact atLast_of_upToDate hcolumn (hcurrent _) h
  · cases h

theorem MarketStructureIndicator.atLast
    (h : MarketStructureIndicator.compute lib bars params = .ok v) :
    AtLast (MarketStructureIndicator.column lib bars params) v := by
  obtain ⟨pivotBars, hpivots, h⟩ := Except.bind_eq_ok.mp h
  obtain ⟨latest, hlatest, h⟩ := Except.bind_eq_ok.mp h
  obtain ⟨⟨⟩, -, hlatest⟩ := Except.bind_eq_ok.mp hlatest
  obtain ⟨pivots, hfound, hlatest⟩ := Except.bind_eq_ok.mp hlatest
  refine ⟨_, Except.bind_eq_ok.mpr ⟨pivotBars, hpivots, rfl⟩, ?_⟩
  split at hlatest
  swap
  · cases hlatest
  next bar hbar =>
  cases hlatest
  have hne : bars ≠ [] := by
    rintro rfl
    cases hbar
  have hpos := List.length_pos_iff.mpr hne
  have hrow : bars[bars.length - 1]? = some bar := List.getLast?_eq_getElem?.symm.trans hbar
  have hcast : ((bars.length - 1 : ℕ) : ℤ) = bars.length - 1 := by omega
  rw [Series.current, List.getLast?_map, List.getLast?_range, if_neg (by omega), Option.map_some,
    Option.join_some, hrow, Nat.sub_add_cancel hpos, List.take_length, hcast, hfound]
  change (structureComponent (pivots.bias, pivots.bos bar.close)
    (lib.str params "component" "bias")).toOption = some v
  rw [h]
  rfl

theorem ConstantIndicator.atLast (hne : bars ≠ [])
    (h : ConstantIndicator.compute lib params = .ok v) :
    AtLast (ConstantIndicator.column lib bars params) v := by
  refine ⟨_, Except.bind_eq_ok.mpr ⟨v, h, rfl⟩, ?_⟩
  rw [Series.current, List.getLast?_map, List.getLast?_eq_some_getLast hne]
  rfl

end UpToDate

/-! ## Columns that can be stale -/

section Stale

variable {lib : IndicatorLibrary} {bars : List Bar} {params : Yaml.Entries} {period : ℤ}

theorem forall_atLast_iff {compute : Computed ℚ} {column : Computed (Series ℚ)} {s : Series ℚ}
    {name : String} {n : ℤ} (hcolumn : column = .ok s) (hcompute : compute = lastValid s name n) :
    (∀ v, compute = .ok v → AtLast column v) ↔ s.UpToDate := by
  subst hcolumn hcompute
  refine forall_congr' fun v => ?_
  rw [lastValid_eq_ok]
  refine imp_congr_right fun _ => ⟨?_, fun h => ⟨s, rfl, h⟩⟩
  rintro ⟨_, hs, h⟩
  cases hs
  exact h

theorem toNat_eq_one : period.toNat = 1 ↔ period = 1 := by omega

/-- The weight of a period. -/
theorem weight_cast (hperiod : 1 ≤ period) : (1 / period : ℚ) = 1 / (period.toNat : ℚ) := by
  have hcast : ((period.toNat : ℕ) : ℚ) = period := by
    exact_mod_cast Int.toNat_of_nonneg (by omega : 0 ≤ period)
  rw [hcast]

theorem quotient_eq_none {a b : ℚ} : quotient a b = none ↔ b = 0 := by
  rw [quotient, ite_eq_left_iff]
  exact ⟨fun h => by_contra fun hne => (by cases h hne), fun h hne => absurd h hne⟩

theorem upToDate_rsiSeries_iff {s : Series ℚ} (hlength : period + 1 ≤ bars.length)
    (h : rsiSeries bars period = .ok s) : s.UpToDate ↔
      ¬ (period = 1 ∧ (∃ d, (changes bars).getLast? = some d ∧ 0 ≤ d) ∧ Falls bars) := by
  have hperiod := period_of_rsiSeries h
  obtain ⟨bar, rest, rfl⟩ : ∃ bar rest, bars = bar :: rest :=
    List.exists_cons_of_ne_nil (List.ne_nil_of_length_pos (by omega))
  rw [rsiSeries_eq hperiod] at h
  cases h
  have hloss (d : ℚ) : LinearMap.snd ℚ ℚ ℚ (gainLoss d) = 0 ↔ 0 ≤ d :=
    neg_eq_zero.trans min_eq_right_iff
  have hstrength (x : ℚ × ℚ) : strength x = none ↔ LinearMap.snd ℚ ℚ ℚ x = 0 := by
    rw [strength, Option.map_eq_none_iff]
    exact quotient_eq_none
  rw [Series.upToDate_cons_none, weight_cast hperiod, Series.upToDate_averages_iff (by omega)
    (by rw [List.length_map, length_changes]; omega) (g := LinearMap.snd ℚ ℚ ℚ) ?_ hstrength]
  · refine not_congr (and_congr toNat_eq_one (and_congr ?_ ?_))
    · rw [List.getLast?_map]
      constructor
      · rintro ⟨x, hx, hzero⟩
        obtain ⟨d, hd, rfl⟩ := Option.map_eq_some_iff.mp hx
        exact ⟨d, hd, (hloss d).mp hzero⟩
      · rintro ⟨d, hd, hle⟩
        exact ⟨gainLoss d, by rw [hd]; rfl, (hloss d).mpr hle⟩
    · simp only [List.mem_map, exists_exists_and_eq_and]
      exact exists_congr fun d => and_congr_right fun _ => (not_congr (hloss d)).trans not_le
  · intro x hx
    obtain ⟨d, _, rfl⟩ := List.mem_map.mp hx
    exact neg_nonneg.mpr (min_le_right d 0)

theorem RsiIndicator.atLast_iff :
    (∀ v, RsiIndicator.compute lib bars params = .ok v →
      AtLast (RsiIndicator.column lib bars params) v) ↔ ¬ StaleRsi lib bars params := by
  rcases hparams : lib.requiredInt params "period" with e | period
  · refine iff_of_true (fun v h => ?_) fun h => ?_
    · obtain ⟨_, hperiod, -⟩ := Except.bind_eq_ok.mp h
      cases hparams.symm.trans hperiod
    · cases hparams.symm.trans h.1
  have hstale : StaleRsi lib bars params ↔
      period = 1 ∧ (∃ d, (changes bars).getLast? = some d ∧ 0 ≤ d) ∧ Falls bars := by
    rw [StaleRsi, hparams, Except.ok.injEq]
  rw [hstale]
  rcases lt_or_ge (bars.length : ℤ) (period + 1) with hshort | hlength
  · -- a frame of one bar has no changes
    refine iff_of_true (fun v h => ?_) fun h => ?_
    · obtain ⟨_, hperiod, h⟩ := Except.bind_eq_ok.mp h
      cases hparams.symm.trans hperiod
      obtain ⟨_, hbars, -⟩ := Except.bind_eq_ok.mp h
      exact absurd (requireBars_eq_ok.mp hbars) (not_le.mpr hshort)
    · obtain ⟨rfl, -, d, hd, -⟩ := h
      have hpos := List.length_pos_of_mem hd
      rw [length_changes] at hpos
      omega
  rw [rsi_compute_eq hparams hlength]
  cases hseries : rsiSeries bars period with
  | error e =>
    refine iff_of_true (fun v h => by cases h) fun h => ?_
    obtain ⟨bar, rest, rfl⟩ : ∃ bar rest, bars = bar :: rest :=
      List.exists_cons_of_ne_nil (List.ne_nil_of_length_pos (by omega))
    cases hseries.symm.trans (rsiSeries_eq h.1.ge bar rest)
  | ok s =>
    exact (forall_atLast_iff (Except.bind_eq_ok.mpr ⟨period, hparams, hseries⟩) rfl).trans
      (upToDate_rsiSeries_iff hlength hseries)

theorem trueRange_nonneg {x : Option Bar × Bar} (h : x.2.WellFormed) : 0 ≤ trueRange x.1 x.2 := by
  obtain ⟨previous, bar⟩ := x
  have hrange : 0 ≤ bar.high - bar.low := sub_nonneg.mpr h.low_le_high
  cases previous with
  | none => exact hrange
  | some previous => exact le_max_of_le_left (le_max_of_le_left hrange)

/-- A directional indicator is up to date unless it is one of single bars of which the last has no
range. -/
theorem upToDate_di_iff (hperiod : 1 ≤ period) (hlength : 2 * period ≤ bars.length)
    (hframe : OhlcvFrame bars) {f : ℚ × ℚ × ℚ → Option ℚ}
    (hf : ∀ r, f r = none ↔ r.2.2 = 0) :
    Series.UpToDate ((averages bars period).map (·.bind f)) ↔
      ¬ (period = 1 ∧ (trueRanges bars).getLast? = some 0 ∧ ∃ r ∈ trueRanges bars, r ≠ 0) := by
  have hranges : trueRanges bars = (movements bars).map fun r => r.2.2 := by
    rw [trueRanges, movements, List.map_map]
    rfl
  have hlen := length_movements bars
  rw [averages, weight_cast hperiod, Series.upToDate_averages_iff (by omega) (by omega)
    (g := LinearMap.snd ℚ ℚ ℚ ∘ₗ LinearMap.snd ℚ ℚ (ℚ × ℚ)) ?_ hf, hranges]
  · refine not_congr (and_congr toNat_eq_one (and_congr ?_ ?_))
    · rw [List.getLast?_map, Option.map_eq_some_iff]
      rfl
    · simp only [List.mem_map, exists_exists_and_eq_and]
      rfl
  · intro r hr
    obtain ⟨x, hx, rfl⟩ := List.mem_map.mp hr
    exact trueRange_nonneg (hframe.wellFormed _ (mem_of_mem_lagged hx).1)

/-- A single bar has one range only. -/
theorem two_le_length_of_ranges {r : ℚ} (hlast : (trueRanges bars).getLast? = some 0)
    (hr : r ∈ trueRanges bars) (hne : r ≠ 0) : 2 ≤ bars.length := by
  by_contra hshort
  have hlength := length_trueRanges bars
  have hpos := List.length_pos_of_mem hr
  obtain ⟨x, hx⟩ := List.length_eq_one_iff.mp (by omega : (trueRanges bars).length = 1)
  rw [hx] at hlast hr
  exact hne ((List.mem_singleton.mp hr).trans (Option.some.inj hlast))

theorem Adx.component_atLast_iff (hperiod : 1 ≤ period) (hlength : 2 * period ≤ bars.length)
    (hframe : OhlcvFrame bars) {adx : Adx} (hadx : adxComponents bars period = .ok adx)
    (component : String) :
    (∀ v, adx.component period component = .ok v → AtLast (.ok (adx.column component)) v) ↔
      ¬ (component ∈ ["plus_di", "minus_di"] ∧ period = 1 ∧
        (trueRanges bars).getLast? = some 0 ∧ ∃ r ∈ trueRanges bars, r ≠ 0) := by
  rw [adxComponents_eq hperiod hlength] at hadx
  cases hadx
  rw [Adx.component.eq_def]
  split
  · refine (forall_atLast_iff rfl rfl).trans (iff_of_true ?_ fun h => absurd h.1 (by decide))
    refine Series.upToDate_warm ?_
    rw [Series.length_smooth, List.length_map, averages, Series.length_warm,
      Series.length_smooth, length_movements]
    omega
  · rw [and_iff_right (by decide)]
    exact (forall_atLast_iff rfl rfl).trans
      (upToDate_di_iff hperiod hlength hframe fun _ => quotient_eq_none)
  · rw [and_iff_right (by decide)]
    exact (forall_atLast_iff rfl rfl).trans
      (upToDate_di_iff hperiod hlength hframe fun _ => quotient_eq_none)
  · next component _ hplus hminus =>
    refine iff_of_true (fun v h => by cases h) fun h => ?_
    rcases List.mem_cons.mp h.1 with h | h
    · exact hplus h
    · exact hminus (List.mem_singleton.mp h)

theorem AdxIndicator.atLast_iff (hframe : OhlcvFrame bars) :
    (∀ v, AdxIndicator.compute lib bars params = .ok v →
      AtLast (AdxIndicator.column lib bars params) v) ↔ ¬ StaleDi lib bars params := by
  rcases hparams : lib.int params "period" 14 with e | period
  · refine iff_of_true (fun v h => ?_) fun h => ?_
    · obtain ⟨_, hperiod, -⟩ := Except.bind_eq_ok.mp h
      cases hparams.symm.trans hperiod
    · cases hparams.symm.trans h.2.1
  rw [StaleDi, AdxIndicator.compute, AdxIndicator.column, hparams, Except.ok.injEq]
  change (∀ v, (adxComponents bars period >>= fun adx =>
    adx.component period (lib.str params "component" "adx")) = .ok v →
      AtLast (adxComponents bars period >>= _) v) ↔ _
  by_cases henough : 1 ≤ period ∧ 2 * period ≤ bars.length
  · have hadx := adxComponents_eq henough.1 henough.2
    have hiff := Adx.component_atLast_iff henough.1 henough.2 hframe hadx
      (lib.str params "component" "adx")
    rw [hadx]
    exact hiff
  · -- the components raise an error
    refine iff_of_true (fun v h => ?_) fun h => henough ?_
    · obtain ⟨adx, hadx, -⟩ := Except.bind_eq_ok.mp h
      exact absurd (of_adxComponents hadx).symm henough
    · obtain ⟨-, rfl, hlast, r, hr, hne⟩ := h
      exact ⟨le_rfl, by exact_mod_cast two_le_length_of_ranges hlast hr hne⟩

/-- The volume of the last bars up to each one. -/
def volumeUpTo (bars : List Bar) (period : ℤ) (i : ℕ) : ℚ :=
  (((bars.take (i + 1)).drop (i + 1 - period.toNat)).map (·.volume)).sum

theorem upToDate_volume_iff (hframe : OhlcvFrame bars)
    (hperiod : 0 ≤ period ∧ period ≤ bars.length) {s : Series ℚ} (hs : s.length = bars.length)
    (hrow : ∀ i o, s[i]? = some o →
      (o = none ↔ i + 1 < period.toNat ∨ volumeUpTo bars period i = 0)) :
    s.UpToDate ↔ ¬ (1 ≤ period ∧ QuietEnd bars period) := by
  rcases hperiod.1.eq_or_lt with rfl | hpos
  · -- empty windows have no value
    refine iff_of_true (Series.upToDate_iff.mpr (.inr fun o ho => ?_)) fun h => ?_
    · obtain ⟨i, hi⟩ := List.mem_iff_getElem?.mp ho
      refine (hrow i o hi).mpr (.inr ?_)
      rw [volumeUpTo, Int.toNat_zero, Nat.sub_zero, List.drop_eq_nil_of_le]
      · rfl
      · rw [List.length_take]
        exact min_le_left _ _
    · exact absurd h.1 (by decide)
  have hsum (window : List Bar) (hwindow : ∀ bar ∈ window, bar ∈ bars) :
      (window.map (·.volume)).sum = 0 ↔ ∀ bar ∈ window, bar.volume = 0 := by
    constructor
    · intro h bar hbar
      refine List.all_zero_of_le_zero_le_of_sum_eq_zero ?_ h (List.mem_map_of_mem hbar)
      intro v hv
      obtain ⟨b, hb, rfl⟩ := List.mem_map.mp hv
      exact hframe.volume b (hwindow b hb)
    · intro h
      refine List.sum_eq_zero fun v hv => ?_
      obtain ⟨b, hb, rfl⟩ := List.mem_map.mp hv
      exact h b hb
  rw [and_iff_right (by omega), Series.upToDate_windows_iff (w := period.toNat)
    (p := fun bar : Bar => bar.volume = 0) (by omega) (by omega) hs
    fun i o ho => (hrow i o ho).trans (or_congr_right (hsum _ ?_))]
  · rw [QuietEnd, volumes, ← List.map_drop]
    simp only [List.mem_map, forall_exists_index, and_imp, forall_apply_eq_imp_iff₂,
      exists_exists_and_eq_and]
  · exact fun bar hbar => List.mem_of_mem_take (List.mem_of_mem_drop hbar)

theorem cmf_row {flow : VolumeFlow} (h : volumeFlowComponents bars period = .ok flow) :
    flow.cmf.length = bars.length ∧ ∀ i o, flow.cmf[i]? = some o →
      (o = none ↔ i + 1 < period.toNat ∨ volumeUpTo bars period i = 0) := by
  obtain ⟨⟨⟩, -, h⟩ := Except.bind_eq_ok.mp h
  obtain ⟨moneyFlowSum, hflow, h⟩ := Except.bind_eq_ok.mp h
  obtain ⟨volumeSum, hvolume, h⟩ := Except.bind_eq_ok.mp h
  obtain ⟨volSma, -, h⟩ := Except.bind_eq_ok.mp h
  cases h
  obtain ⟨-, rfl⟩ := rolling_eq_ok hflow
  obtain ⟨-, rfl⟩ := rolling_eq_ok hvolume
  dsimp only
  rw [volumes, Series.rolling_map, Series.rolling_map, Series.lift₂_rolling]
  refine ⟨Series.length_rolling, fun i o ho => ?_⟩
  have hi := (List.getElem?_eq_some_iff.mp ho).1
  rw [Series.length_rolling] at hi
  rw [Series.getElem?_rolling hi] at ho
  cases ho
  split_ifs with hwarm
  · exact iff_of_true rfl (.inl hwarm)
  · rw [or_iff_right hwarm]
    exact quotient_eq_none

theorem volumeRatio_row {flow : VolumeFlow}
    (h : volumeFlowComponents bars period = .ok flow) :
    flow.volumeRatio.length = bars.length ∧ ∀ i o, flow.volumeRatio[i]? = some o →
      (o = none ↔ i + 1 < period.toNat ∨ volumeUpTo bars period i = 0) := by
  obtain ⟨⟨⟩, -, h⟩ := Except.bind_eq_ok.mp h
  obtain ⟨moneyFlowSum, -, h⟩ := Except.bind_eq_ok.mp h
  obtain ⟨volumeSum, -, h⟩ := Except.bind_eq_ok.mp h
  obtain ⟨volSma, hmean, h⟩ := Except.bind_eq_ok.mp h
  cases h
  obtain ⟨-, rfl⟩ := rolling_eq_ok hmean
  dsimp only
  rw [volumes, Series.rolling_map]
  have hlength : (Series.lift₂ quotient ((bars.map (·.volume)).map some)
      (Series.rolling period.toNat (fun window => windowMean (window.map (·.volume)))
        bars)).length = bars.length := by
    rw [Series.lift₂, List.length_zipWith, List.length_map, List.length_map, Series.length_rolling,
      min_self]
  refine ⟨hlength, fun i o ho => ?_⟩
  have hi := (List.getElem?_eq_some_iff.mp ho).1
  rw [hlength] at hi
  rw [Series.lift₂, List.getElem?_zipWith, List.getElem?_map, List.getElem?_map,
    List.getElem?_eq_getElem hi, Series.getElem?_rolling hi] at ho
  cases ho
  rw [Option.bind_some]
  split_ifs with hwarm
  · exact iff_of_true rfl (.inl hwarm)
  · rw [or_iff_right hwarm, volumeUpTo, windowMean]
    generalize (((bars.take (i + 1)).drop (i + 1 - period.toNat)).map (·.volume)) = window
    cases window with
    | nil => exact iff_of_true rfl rfl
    | cons volume rest =>
      have hlength : ((volume :: rest).length : ℚ) ≠ 0 :=
        Nat.cast_ne_zero.mpr (Nat.succ_ne_zero rest.length)
      rw [quotient, if_neg hlength, Option.bind_some, quotient_eq_none, div_eq_zero_iff,
        or_iff_left hlength]

theorem VolumeFlow.component_atLast_iff (hframe : OhlcvFrame bars)
    (hrange : 0 ≤ period ∧ period ≤ bars.length) {flow : VolumeFlow}
    (hflow : volumeFlowComponents bars period = .ok flow) (component : String) :
    (∀ v, flow.component bars period component = .ok v →
      AtLast (.ok (flow.column bars component)) v) ↔
      ¬ (component ∈ ["cmf", "volume_ratio"] ∧ 1 ≤ period ∧ QuietEnd bars period) := by
  rw [VolumeFlow.component.eq_def]
  split
  · obtain ⟨hlength, hrow⟩ := cmf_row hflow
    rw [and_iff_right (by decide)]
    exact (forall_atLast_iff rfl rfl).trans (upToDate_volume_iff hframe hrange hlength hrow)
  · obtain ⟨hlength, hrow⟩ := volumeRatio_row hflow
    rw [and_iff_right (by decide)]
    exact (forall_atLast_iff rfl rfl).trans (upToDate_volume_iff hframe hrange hlength hrow)
  · refine iff_of_true (fun v h => ?_) fun h => absurd h.1 (by decide)
    obtain ⟨⟨⟩, -, h⟩ := Except.bind_eq_ok.mp h
    split at h
    · next last previous rest hreverse =>
      cases h
      exact ⟨_, rfl, Series.current_consecutive hreverse⟩
    · cases h
  · next component hcmf hratio _ =>
    refine iff_of_true (fun v h => by cases h) fun h => ?_
    rcases List.mem_cons.mp h.1 with h | h
    · exact hcmf h
    · exact hratio (List.mem_singleton.mp h)

theorem VolumeFlowIndicator.atLast_iff (hframe : OhlcvFrame bars) :
    (∀ v, VolumeFlowIndicator.compute lib bars params = .ok v →
      AtLast (VolumeFlowIndicator.column lib bars params) v) ↔ ¬ StaleVolume lib bars params := by
  rcases hparams : lib.int params "period" 20 with e | period
  · refine iff_of_true (fun v h => ?_) fun h => ?_
    · obtain ⟨_, hperiod, -⟩ := Except.bind_eq_ok.mp h
      cases hparams.symm.trans hperiod
    · obtain ⟨-, _, hperiod, -⟩ := h
      cases hparams.symm.trans hperiod
  rw [StaleVolume, VolumeFlowIndicator.compute, VolumeFlowIndicator.column, hparams]
  simp only [Except.ok.injEq, exists_eq_left']
  change (∀ v, (volumeFlowComponents bars period >>= fun flow =>
    flow.component bars period (lib.str params "component" "cmf")) = .ok v →
      AtLast (volumeFlowComponents bars period >>= _) v) ↔ _
  by_cases hrange : 0 ≤ period ∧ period ≤ bars.length
  · obtain ⟨flow, hflow⟩ := volumeFlowComponents_of_le hrange
    rw [hflow]
    exact VolumeFlow.component_atLast_iff hframe hrange hflow _
  · -- the components raise an error, and a window as long as the frame has some volume
    obtain ⟨e, he⟩ : ∃ e, volumeFlowComponents bars period = .error e :=
      volumeFlowComponents_of_not_le (by omega)
    rw [he]
    refine iff_of_true (fun v h => by cases h) fun h => ?_
    obtain ⟨-, hperiod, hquiet, v, hv, hne⟩ := h
    rw [Nat.sub_eq_zero_of_le (by omega), List.drop_zero] at hquiet
    exact hne (hquiet v hv)

end Stale

theorem not_stale {lib : IndicatorLibrary} {bars : List Bar} {definition : IndicatorDef}
    (h : definition.type ∉ ["volume_flow", "rsi", "adx"]) : ¬ definition.Stale lib bars := by
  simp only [List.mem_cons, List.not_mem_nil, or_false, not_or] at h
  rintro (hstale | hstale | hstale)
  · exact h.1 hstale.1
  · exact h.2.1 hstale.1
  · exact h.2.2 hstale.1

/-- The value that an indicator returns is that of the last bar, exactly when its column has a value
there or nowhere. -/
theorem computeIndicator_atLast_iff (lib : IndicatorLibrary) (definition : IndicatorDef)
    (bars : List Bar) (hframe : OhlcvFrame bars) :
    (∀ v, computeIndicator lib definition bars = .ok v →
      AtLast (definition.column lib bars) v) ↔ ¬ definition.Stale lib bars := by
  rw [computeIndicator.eq_def, IndicatorDef.column]
  generalize htype : definition.type = type
  split
  · exact iff_of_true (fun _ => EmaIndicator.atLast) (not_stale (by rw [htype]; decide))
  · exact iff_of_true (fun _ => SmaIndicator.atLast) (not_stale (by rw [htype]; decide))
  · exact iff_of_true (fun _ => AtrIndicator.atLast) (not_stale (by rw [htype]; decide))
  · exact iff_of_true (fun _ => EmaCrossIndicator.atLast) (not_stale (by rw [htype]; decide))
  · exact iff_of_true (fun _ => MacdIndicator.atLast) (not_stale (by rw [htype]; decide))
  · exact iff_of_true (fun _ => BollingerIndicator.atLast) (not_stale (by rw [htype]; decide))
  · refine RsiIndicator.atLast_iff |>.trans (not_congr ?_)
    simp [IndicatorDef.Stale, htype]
  · refine AdxIndicator.atLast_iff hframe |>.trans (not_congr ?_)
    simp [IndicatorDef.Stale, htype]
  · exact iff_of_true (fun _ => SuperTrendIndicator.atLast) (not_stale (by rw [htype]; decide))
  · refine VolumeFlowIndicator.atLast_iff hframe |>.trans (not_congr ?_)
    simp [IndicatorDef.Stale, htype]
  · exact iff_of_true (fun _ => MarketStructureIndicator.atLast) (not_stale (by rw [htype]; decide))
  · exact iff_of_true (fun _ => ConstantIndicator.atLast hframe.nonempty)
      (not_stale (by rw [htype]; decide))
  · next type _ _ _ _ _ _ hrsi hadx _ hvolume _ _ =>
    refine iff_of_true (fun v h => by cases h) (not_stale ?_)
    rw [htype]
    simp only [List.mem_cons, List.not_mem_nil, or_false, not_or]
    exact ⟨hvolume, hrsi, hadx⟩

/-- Two bars with volume, then two without. -/
def quietBars : List Bar := [⟨100, 102, 99, 101, 3⟩, ⟨101, 103, 100, 103, 1⟩,
  ⟨103, 103, 102, 102, 0⟩, ⟨102, 102, 102, 102, 0⟩]

theorem quietBars_frame : OhlcvFrame quietBars :=
  ⟨by decide, by decide +kernel, by decide +kernel⟩

/-- The ratio of the volume to its average. -/
def volumeRatio (period : ℤ) : IndicatorDef where
  name := "volume_ratio"
  type := "volume_flow"
  params := [("period", .int period), ("component", .str "volume_ratio")]

theorem computeIndicator_atLast_iff_quiet :
    (∀ v, computeIndicator plainLibrary (volumeRatio 3) quietBars = .ok v →
      AtLast ((volumeRatio 3).column plainLibrary quietBars) v) ↔
    ¬ (volumeRatio 3).Stale plainLibrary quietBars :=
  computeIndicator_atLast_iff plainLibrary (volumeRatio 3) quietBars quietBars_frame

/-- A window without volume leaves the ratio of the bar before it. -/
theorem not_computeIndicator_atLast : ¬ ∀ (lib : IndicatorLibrary) (definition : IndicatorDef)
    (bars : List Bar), OhlcvFrame bars → ∀ v, computeIndicator lib definition bars = .ok v →
      AtLast (definition.column lib bars) v := by
  intro h
  have hvalue : computeIndicator plainLibrary (volumeRatio 2) quietBars = .ok 0 := by decide +kernel
  obtain ⟨s, hs, hcurrent⟩ := h plainLibrary (volumeRatio 2) quietBars quietBars_frame 0 hvalue
  have hnone : ((volumeRatio 2).column plainLibrary quietBars).toOption.bind Series.current =
      none := by decide +kernel
  rw [hs] at hnone
  cases hcurrent.symm.trans hnone

end TradingPlatform
