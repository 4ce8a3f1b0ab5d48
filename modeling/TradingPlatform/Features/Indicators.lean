import TradingPlatform.Lib.Series
import TradingPlatform.Validation.Periods

/-!
# Indicators

An indicator computes columns from an OHLCV frame and returns their last value that is not missing.
It raises `InsufficientDataError` on a frame of too few bars, and where its column has no value at
all. The numbers are exact; a division of zero by zero leaves the value missing.
-/

namespace TradingPlatform

/-- What an indicator raises: `InsufficientDataError`, which the feature builder catches, or another
error. -/
inductive IndicatorError
  /-- "Insufficient data for {name}: need at least {bars} bars" -/
  | insufficientData (name : String) (bars : ℤ)
  | raised (error : PyError)
  deriving DecidableEq

abbrev Computed := Except IndicatorError

/-- The conversions of parameter values, and the square root. -/
structure IndicatorLibrary where
  /-- `int` of a text. -/
  parseInt : String → Option ℤ
  /-- `float` of a text. -/
  parseFloat : String → Option ℚ
  /-- `str` of a value that is not a text. -/
  text : Yaml → String
  sqrt : ℚ → ℚ

namespace IndicatorLibrary

variable (lib : IndicatorLibrary) (params : Yaml.Entries)

/-- `int(params.get(key, default))` -/
def int (key : String) (default : ℤ) : Computed ℤ :=
  (intParam lib.parseInt params key default).mapError .raised

/-- `int(params[key])` -/
def requiredInt (key : String) : Computed ℤ :=
  match Yaml.get? params key with
  | some value => (toInt lib.parseInt value).mapError .raised
  | none => .error (.raised (.keyError key))

/-- `float` of a value. -/
def toFloat : Yaml → Computed ℚ
  | .bool b => .ok (if b then 1 else 0)
  | .int n => .ok n
  | .float q => .ok q
  | .str s =>
    match lib.parseFloat s with
    | some q => .ok q
    | none => .error (.raised (.valueError ("could not convert string to float: " ++ s)))
  | _ => .error (.raised (.raised "TypeError"))

/-- `float(params.get(key, default))` -/
def float (key : String) (default : ℚ) : Computed ℚ :=
  lib.toFloat ((Yaml.get? params key).getD (.float default))

/-- `str(params.get(key, default))` -/
def str (key default : String) : String :=
  match (Yaml.get? params key).getD (.str default) with
  | .str s => s
  | value => lib.text value

end IndicatorLibrary

/-! ## Helpers -/

/-- The check of the number of bars. -/
def requireBars (name : String) (needed : ℤ) (bars : List Bar) : Computed Unit :=
  if (bars.length : ℤ) < needed then .error (.insufficientData name needed) else .ok ()

/-- `_last_valid` -/
def lastValid (series : Series ℚ) (name : String) (minPeriods : ℤ) : Computed ℚ :=
  match series.lastValid with
  | some v => .ok v
  | none => .error (.insufficientData name minPeriods)

theorem lastValid_eq_ok {series : Series ℚ} {name : String} {minPeriods : ℤ} {v : ℚ} :
    lastValid series name minPeriods = .ok v ↔ series.lastValid = some v := by
  unfold lastValid
  cases series.lastValid <;> simp

/-- A division, with the divisor zero replaced by a missing value. -/
def quotient (a b : ℚ) : Option ℚ := if b = 0 then none else some (a / b)

/-- `ewm(span=span, adjust=False).mean()` -/
def ewmSpan {V : Type*} [AddCommGroup V] [Module ℚ V] (span : ℤ) (xs : Series V) :
    Computed (Series V) :=
  if span < 1 then .error (.raised (.valueError "span must satisfy: span >= 1"))
  else .ok (xs.ewm (2 / (span + 1) : ℚ) 0)

/-- `ewm(alpha=1 / period, min_periods=period, adjust=False).mean()` -/
def ewmAlpha {V : Type*} [AddCommGroup V] [Module ℚ V] (period : ℤ) (xs : Series V) :
    Computed (Series V) :=
  if period = 0 then .error (.raised .zeroDivisionError)
  else if period < 0 then .error (.raised (.valueError "alpha must satisfy: 0 < alpha <= 1"))
  else .ok (xs.ewm (1 / period : ℚ) period.toNat)

theorem ewmAlpha_eq {V : Type*} [AddCommGroup V] [Module ℚ V] {period : ℤ} (h : 1 ≤ period)
    (xs : Series V) : ewmAlpha period xs = .ok (xs.ewm (1 / period : ℚ) period.toNat) := by
  rw [ewmAlpha, if_neg (by omega), if_neg (by omega)]

theorem period_of_ewmAlpha {V : Type*} [AddCommGroup V] [Module ℚ V] {period : ℤ}
    {xs ys : Series V} (h : ewmAlpha period xs = .ok ys) : 1 ≤ period := by
  unfold ewmAlpha at h
  split_ifs at h
  omega

/-- `rolling(window)` with a function of the windows. -/
def rolling (window : ℤ) (f : List ℚ → Option ℚ) (xs : List ℚ) : Computed (Series ℚ) :=
  if window < 0 then .error (.raised (.valueError "window must be an integer 0 or greater"))
  else .ok (Series.rolling window.toNat f xs)

def windowMean (xs : List ℚ) : Option ℚ := quotient xs.sum xs.length

/-- The variance of a sample. -/
def windowVariance (xs : List ℚ) : Option ℚ := do
  let m ← windowMean xs
  quotient (xs.map fun x => (x - m) ^ 2).sum (xs.length - 1)

def closes (bars : List Bar) : List ℚ := bars.map (·.close)

@[simp] theorem length_closes (bars : List Bar) : (closes bars).length = bars.length :=
  List.length_map _

def trueRange (previous : Option Bar) (bar : Bar) : ℚ :=
  match previous with
  | none => bar.high - bar.low
  | some previous =>
    max (max (bar.high - bar.low) |bar.high - previous.close|) |bar.low - previous.close|

/-- The true range of each bar. -/
def trueRanges (bars : List Bar) : List ℚ :=
  (Series.lagged bars).map fun x => trueRange x.1 x.2

@[simp] theorem length_trueRanges (bars : List Bar) : (trueRanges bars).length = bars.length := by
  rw [trueRanges, List.length_map, Series.length_lagged]

/-- `_atr_series` -/
def atrSeries (bars : List Bar) (period : ℤ) : Computed (Series ℚ) :=
  ewmAlpha period ((trueRanges bars).map some)

/-! ## Averages -/

/-- The column of `EmaIndicator`. -/
def emaSeries (bars : List Bar) (span : ℤ) : Computed (Series ℚ) :=
  ewmSpan span ((closes bars).map some)

def EmaIndicator.compute (lib : IndicatorLibrary) (bars : List Bar) (params : Yaml.Entries) :
    Computed ℚ := do
  let period ← lib.requiredInt params "period"
  requireBars "ema" period bars
  lastValid (← emaSeries bars period) "ema" period

def SmaIndicator.compute (lib : IndicatorLibrary) (bars : List Bar) (params : Yaml.Entries) :
    Computed ℚ := do
  let period ← lib.requiredInt params "period"
  requireBars "sma" period bars
  lastValid (← rolling period windowMean (closes bars)) "sma" period

def AtrIndicator.compute (lib : IndicatorLibrary) (bars : List Bar) (params : Yaml.Entries) :
    Computed ℚ := do
  let period ← lib.requiredInt params "period"
  requireBars "atr" (period + 1) bars
  lastValid (← atrSeries bars period) "atr" period

/-- The difference of two columns. -/
def minus (s t : Series ℚ) : Series ℚ := Series.lift₂ (fun x y => some (x - y)) s t

/-- `_ema_cross_signal` -/
def emaCrossSignal (bars : List Bar) (fast slow : ℤ) : Computed ℚ := do
  requireBars "ema_cross" (slow + 1) bars
  let spread := (minus (← emaSeries bars fast) (← emaSeries bars slow)).reduceOption
  match spread.reverse with
  | curr :: prev :: _ =>
    if prev ≤ 0 ∧ 0 < curr then return 1
    else if 0 ≤ prev ∧ curr < 0 then return -1
    else return 0
  | _ => throw (.insufficientData "ema_cross" (slow + 1))

def EmaCrossIndicator.compute (lib : IndicatorLibrary) (bars : List Bar) (params : Yaml.Entries) :
    Computed ℚ := do
  let fast ← lib.int params "fast" 12
  let slow ← lib.int params "slow" 26
  emaCrossSignal bars fast slow

/-- The columns of `_macd_components`. -/
structure Macd where
  line : Series ℚ
  signalLine : Series ℚ
  histogram : Series ℚ

/-- `_macd_components` -/
def macdComponents (bars : List Bar) (fast slow signal : ℤ) : Computed Macd := do
  requireBars "macd" (slow + signal) bars
  let line := minus (← emaSeries bars fast) (← emaSeries bars slow)
  let signalLine ← ewmSpan signal line
  return { line, signalLine, histogram := minus line signalLine }

/-- The component of a MACD that an indicator returns. -/
def Macd.component (macd : Macd) (bars : List Bar) (slow signal : ℤ) :
    String → Computed ℚ
  | "line" => lastValid macd.line "macd" slow
  | "signal" => lastValid macd.signalLine "macd_signal" (slow + signal)
  | "histogram" => lastValid macd.histogram "macd_histogram" (slow + signal)
  | "histogram_slope" => do
    requireBars "macd histogram_slope" (slow + signal + 1) bars
    match macd.histogram.reduceOption.reverse with
    | last :: previous :: _ => return last - previous
    | _ => throw (.insufficientData "macd histogram_slope" (slow + signal + 1))
  | component => .error (.raised (.valueError ("Unknown macd component: " ++ component)))

def MacdIndicator.compute (lib : IndicatorLibrary) (bars : List Bar) (params : Yaml.Entries) :
    Computed ℚ := do
  let fast ← lib.int params "fast" 12
  let slow ← lib.int params "slow" 26
  let signal ← lib.int params "signal" 9
  let macd ← macdComponents bars fast slow signal
  macd.component bars slow signal (lib.str params "component" "line")

/-- The columns of `_bollinger_components`. -/
structure Bollinger where
  upper : Series ℚ
  middle : Series ℚ
  lower : Series ℚ

/-- `_bollinger_components` -/
def bollingerComponents (lib : IndicatorLibrary) (bars : List Bar) (period : ℤ) (stdMult : ℚ) :
    Computed Bollinger := do
  requireBars "bollinger" period bars
  let middle ← rolling period windowMean (closes bars)
  let std ← rolling period (fun window => (windowVariance window).map lib.sqrt) (closes bars)
  return {
    upper := Series.lift₂ (fun m s => some (m + stdMult * s)) middle std
    middle
    lower := Series.lift₂ (fun m s => some (m - stdMult * s)) middle std }

/-- The band that an indicator returns. -/
def Bollinger.band (bands : Bollinger) (period : ℤ) (band : String) : Computed ℚ :=
  let series := if band = "upper" then bands.upper
    else if band = "lower" then bands.lower else bands.middle
  lastValid series ("bollinger_" ++ band) period

def BollingerIndicator.compute (lib : IndicatorLibrary) (bars : List Bar) (params : Yaml.Entries) :
    Computed ℚ := do
  let period ← lib.int params "period" 20
  let stdMult ← lib.float params "std" 2
  let bands ← bollingerComponents lib bars period stdMult
  bands.band period (lib.str params "band" "middle")

/-! ## Gains and losses -/

/-- The column of `RsiIndicator`. -/
def rsiSeries (bars : List Bar) (period : ℤ) : Computed (Series ℚ) := do
  let delta : Series ℚ := (Series.lagged (closes bars)).map fun x => x.1.map (x.2 - ·)
  let gain := delta.map (Option.map (max · 0))
  let loss := delta.map (Option.map fun d => -min d 0)
  let avgGain ← ewmAlpha period gain
  let avgLoss ← ewmAlpha period loss
  let rs := Series.lift₂ quotient avgGain avgLoss
  return rs.map (Option.map fun rs => 100 - 100 / (1 + rs))

def RsiIndicator.compute (lib : IndicatorLibrary) (bars : List Bar) (params : Yaml.Entries) :
    Computed ℚ := do
  let period ← lib.requiredInt params "period"
  requireBars "rsi" (period + 1) bars
  lastValid (← rsiSeries bars period) "rsi" period

/-! ## Directional movement -/

/-- `plus_dm` of a bar. -/
def plusDm (previous : Option Bar) (bar : Bar) : ℚ :=
  match previous with
  | none => 0
  | some previous =>
    let upMove := bar.high - previous.high
    let downMove := previous.low - bar.low
    if downMove < upMove ∧ 0 < upMove then upMove else 0

/-- `minus_dm` of a bar. -/
def minusDm (previous : Option Bar) (bar : Bar) : ℚ :=
  match previous with
  | none => 0
  | some previous =>
    let upMove := bar.high - previous.high
    let downMove := previous.low - bar.low
    if upMove < downMove ∧ 0 < downMove then downMove else 0

/-- The columns of `_adx_components`. -/
structure Adx where
  adx : Series ℚ
  plusDi : Series ℚ
  minusDi : Series ℚ

/-- `dx` of the two directional indicators. -/
def dx (plusDi minusDi : Option ℚ) : ℚ :=
  (do quotient (100 * |(← plusDi) - (← minusDi)|) ((← plusDi) + (← minusDi))).getD 0

/-- `_adx_components` -/
def adxComponents (bars : List Bar) (period : ℤ) : Computed Adx := do
  requireBars "adx" (2 * period) bars
  let lagged := Series.lagged bars
  let atr ← ewmAlpha period ((trueRanges bars).map some)
  let plusDmSmooth ← ewmAlpha period (lagged.map fun x => some (plusDm x.1 x.2))
  let minusDmSmooth ← ewmAlpha period (lagged.map fun x => some (minusDm x.1 x.2))
  let plusDi := Series.lift₂ (fun dm atr => quotient (100 * dm) atr) plusDmSmooth atr
  let minusDi := Series.lift₂ (fun dm atr => quotient (100 * dm) atr) minusDmSmooth atr
  let adx ← ewmAlpha period ((List.zipWith dx plusDi minusDi).map some)
  return { adx, plusDi, minusDi }

/-- The component of an ADX that an indicator returns. -/
def Adx.component (adx : Adx) (period : ℤ) : String → Computed ℚ
  | "adx" => lastValid adx.adx "adx" (2 * period)
  | "plus_di" => lastValid adx.plusDi "plus_di" (period + 1)
  | "minus_di" => lastValid adx.minusDi "minus_di" (period + 1)
  | component => .error (.raised (.valueError ("Unknown adx component: " ++ component)))

def AdxIndicator.compute (lib : IndicatorLibrary) (bars : List Bar) (params : Yaml.Entries) :
    Computed ℚ := do
  let period ← lib.int params "period" 14
  let adx ← adxComponents bars period
  adx.component period (lib.str params "component" "adx")

/-! ## SuperTrend -/

/-- The two bands of a bar. -/
structure Bands where
  upper : ℚ
  lower : ℚ

/-- The basic bands of a bar; the ATR may be missing. -/
def basicBands (multiplier : ℚ) (bar : Bar) (atr : Option ℚ) : Option Bands :=
  atr.map fun atr =>
    { upper := (bar.high + bar.low) / 2 + multiplier * atr
      lower := (bar.high + bar.low) / 2 - multiplier * atr }

/-- The final bands of a bar, given the final bands and the close of the bar before. A band is kept
unless the basic one is tighter or the close has passed it. -/
def Bands.carry (previous : Option Bands) (close : ℚ) (basic : Bands) : Bands :=
  match previous with
  | none => basic
  | some previous =>
    { upper := if basic.upper < previous.upper ∨ previous.upper < close then basic.upper
        else previous.upper
      lower := if previous.lower < basic.lower ∨ close < previous.lower then basic.lower
        else previous.lower }

/-- The final bands, after a bar with these final bands and this close; each bar is given with its
close and its basic bands. -/
def finalBands (previous : Option Bands) (close : ℚ) :
    List (ℚ × Option Bands) → List (ℚ × Option Bands)
  | [] => []
  | (next, basic) :: rest =>
    let final := basic.map (Bands.carry previous close)
    (next, final) :: finalBands final next rest

/-- The trend of a bar, `in_uptrend`, after a bar in the trend `up`. The first bar of the frame is
in an uptrend whatever its close. -/
def trendOf (first up : Bool) (close : ℚ) (bands : Bands) : Bool :=
  if first then true
  else if up then decide (bands.lower ≤ close)
  else decide (bands.upper < close)

/-- The bands and the trend of each bar that has bands. -/
def trends (first up : Bool) : List (ℚ × Option Bands) → Series (Bands × Bool)
  | [] => []
  | (_, none) :: rest => none :: trends false up rest
  | (close, some bands) :: rest =>
    let up := trendOf first up close bands
    some (bands, up) :: trends false up rest

/-- The columns of `_supertrend_components`. -/
structure SuperTrend where
  line : Series ℚ
  direction : Series ℚ

/-- `_supertrend_numpy`, on the closes and the basic bands. -/
def supertrendNumpy (bars : List (ℚ × Option Bands)) : SuperTrend :=
  let trends := trends true true (finalBands none 0 bars)
  { line := trends.map (Option.map fun x => if x.2 then x.1.lower else x.1.upper)
    direction := trends.map (Option.map fun x => if x.2 then 1 else -1) }

/-- `_supertrend_components` -/
def supertrendComponents (bars : List Bar) (period : ℤ) (multiplier : ℚ) : Computed SuperTrend := do
  requireBars "supertrend" (2 * period) bars
  let atr ← atrSeries bars period
  return supertrendNumpy (List.zipWith (fun bar atr => (bar.close, basicBands multiplier bar atr))
    bars atr)

/-- The component of a SuperTrend that an indicator returns. -/
def SuperTrend.component (supertrend : SuperTrend) (period : ℤ) : String → Computed ℚ
  | "line" => lastValid supertrend.line "supertrend" (2 * period)
  | "direction" => lastValid supertrend.direction "supertrend_direction" (2 * period)
  | component => .error (.raised (.valueError ("Unknown supertrend component: " ++ component)))

def SuperTrendIndicator.compute (lib : IndicatorLibrary) (bars : List Bar)
    (params : Yaml.Entries) : Computed ℚ := do
  let period ← lib.int params "period" 10
  let multiplier ← lib.float params "multiplier" 3
  let supertrend ← supertrendComponents bars period multiplier
  supertrend.component period (lib.str params "component" "line")

/-! ## Volume -/

/-- `mf_mult * volume` of a bar; a bar without a range has no money flow. -/
def moneyFlow (bar : Bar) : ℚ :=
  (quotient ((bar.close - bar.low) - (bar.high - bar.close)) (bar.high - bar.low)).getD 0 *
    bar.volume

def volumes (bars : List Bar) : List ℚ := bars.map (·.volume)

/-- The columns of `_volume_flow_components`. -/
structure VolumeFlow where
  cmf : Series ℚ
  volumeRatio : Series ℚ

/-- `_volume_flow_components`; the frame has the volume column. -/
def volumeFlowComponents (bars : List Bar) (period : ℤ) : Computed VolumeFlow := do
  requireBars "volume_flow" period bars
  let moneyFlowSum ← rolling period (fun window => some window.sum) (bars.map moneyFlow)
  let volumeSum ← rolling period (fun window => some window.sum) (volumes bars)
  let volSma ← rolling period windowMean (volumes bars)
  return {
    cmf := Series.lift₂ quotient moneyFlowSum volumeSum
    volumeRatio := Series.lift₂ quotient ((volumes bars).map some) volSma }

/-- The close less the one before it. -/
def closeDelta (bars : List Bar) : Computed ℚ := do
  requireBars "volume_flow close_delta" 2 bars
  match (closes bars).reverse with
  | last :: previous :: _ => return last - previous
  | _ => throw (.insufficientData "volume_flow close_delta" 2)

/-- The component of a volume flow that an indicator returns. -/
def VolumeFlow.component (flow : VolumeFlow) (bars : List Bar) (period : ℤ) : String → Computed ℚ
  | "cmf" => lastValid flow.cmf "cmf" period
  | "volume_ratio" => lastValid flow.volumeRatio "volume_ratio" period
  | "close_delta" => closeDelta bars
  | component => .error (.raised (.valueError ("Unknown volume_flow component: " ++ component)))

def VolumeFlowIndicator.compute (lib : IndicatorLibrary) (bars : List Bar)
    (params : Yaml.Entries) : Computed ℚ := do
  let period ← lib.int params "period" 20
  let flow ← volumeFlowComponents bars period
  flow.component bars period (lib.str params "component" "cmf")

/-! ## Market structure -/

/-- A bar with the price of its pivot. -/
abbrev Pivot := ℕ × ℚ

/-- `sliding_window_view` -/
def slidingWindows (xs : List ℚ) (window : ℤ) : Computed (List (List ℚ)) :=
  if window < 0 then
    .error (.raised (.valueError "`window_shape` cannot contain negative values"))
  else if (xs.length : ℤ) < window then
    .error (.raised (.valueError "window shape cannot be larger than input array shape"))
  else .ok ((List.range (xs.length + 1 - window.toNat)).map fun j =>
    (xs.drop j).take window.toNat)

/-- The bars up to the last confirmable one whose value `beats` every value of its window. -/
def pivotsOf (beats : ℚ → ℚ → Bool) (xs : List ℚ) (pivotBars lastConfirmable : ℤ) :
    Computed (List Pivot) := do
  let windows ← slidingWindows xs (2 * pivotBars + 1)
  return (windows.zipIdx pivotBars.toNat).filterMap fun x =>
    if (x.2 : ℤ) ≤ lastConfirmable then
      xs[x.2]?.bind fun centre => if x.1.all (beats centre) then some (x.2, centre) else none
    else none

/-- The confirmed pivots of a frame. -/
structure Pivots where
  highs : List Pivot
  lows : List Pivot

/-- `_find_confirmed_pivots` -/
def findConfirmedPivots (bars : List Bar) (pivotBars upToIndex : ℤ) : Computed Pivots := do
  let lastConfirmable := upToIndex - pivotBars
  if lastConfirmable < pivotBars then return { highs := [], lows := [] }
  let highs ← pivotsOf (fun centre x => decide (x ≤ centre)) (bars.map (·.high)) pivotBars
    lastConfirmable
  let lows ← pivotsOf (fun centre x => decide (centre ≤ x)) (bars.map (·.low)) pivotBars
    lastConfirmable
  return { highs, lows }

/-- `_structure_bias` -/
def Pivots.bias (pivots : Pivots) : ℚ :=
  match pivots.highs.reverse, pivots.lows.reverse with
  | h2 :: h1 :: _, l2 :: l1 :: _ =>
    if h1.2 < h2.2 ∧ l1.2 < l2.2 then 1
    else if h2.2 < h1.2 ∧ l2.2 < l1.2 then -1
    else 0
  | _, _ => 0

/-- `_structure_bos` -/
def Pivots.bos (pivots : Pivots) (close : ℚ) : ℚ :=
  if pivots.highs.getLast?.any (·.2 < close) then 1
  else if pivots.lows.getLast?.any (close < ·.2) then -1
  else 0

/-- `_market_structure_latest` -/
def marketStructureLatest (bars : List Bar) (pivotBars : ℤ) : Computed (ℚ × ℚ) := do
  requireBars "market_structure" (4 * pivotBars + 1) bars
  let pivots ← findConfirmedPivots bars pivotBars (bars.length - 1)
  match bars.getLast? with
  | some bar => return (pivots.bias, pivots.bos bar.close)
  | none => throw (.raised .indexError)

/-- The component of a market structure that an indicator returns. -/
def structureComponent (latest : ℚ × ℚ) : String → Computed ℚ
  | "bias" => .ok latest.1
  | "bos" => .ok latest.2
  | component =>
    .error (.raised (.valueError ("Unknown market_structure component: " ++ component)))

def MarketStructureIndicator.compute (lib : IndicatorLibrary) (bars : List Bar)
    (params : Yaml.Entries) : Computed ℚ := do
  let pivotBars ← lib.int params "pivot_bars" 5
  let latest ← marketStructureLatest bars pivotBars
  structureComponent latest (lib.str params "component" "bias")

/-! ## The registry -/

def ConstantIndicator.compute (lib : IndicatorLibrary) (params : Yaml.Entries) : Computed ℚ :=
  lib.float params "value" 0

/-- `compute_indicator` without shared components. -/
def computeIndicator (lib : IndicatorLibrary) (definition : IndicatorDef) (bars : List Bar) :
    Computed ℚ :=
  match definition.type with
  | "ema" => EmaIndicator.compute lib bars definition.params
  | "sma" => SmaIndicator.compute lib bars definition.params
  | "atr" => AtrIndicator.compute lib bars definition.params
  | "ema_cross" => EmaCrossIndicator.compute lib bars definition.params
  | "macd" => MacdIndicator.compute lib bars definition.params
  | "bollinger" => BollingerIndicator.compute lib bars definition.params
  | "rsi" => RsiIndicator.compute lib bars definition.params
  | "adx" => AdxIndicator.compute lib bars definition.params
  | "supertrend" => SuperTrendIndicator.compute lib bars definition.params
  | "volume_flow" => VolumeFlowIndicator.compute lib bars definition.params
  | "market_structure" => MarketStructureIndicator.compute lib bars definition.params
  | "constant" => ConstantIndicator.compute lib definition.params
  | type => .error (.raised (.keyError ("Unknown indicator type: " ++ type)))

end TradingPlatform
