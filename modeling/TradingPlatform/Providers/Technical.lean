import TradingPlatform.Providers.Base
import TradingPlatform.Lib.Rounding

/-!
# The technical providers

`analyze` of the nine registered providers. Each reads its indicators with defaults of its own,
picks a side, filters it and concludes with a signal.
-/

namespace TradingPlatform

variable (provider : BaseSignalProvider) (features : FeatureSet) (context : MarketContext)

/-- `<summary> — below min confidence` -/
def belowMinConfidence (summary : String) : String := summary ++ " — below min confidence"

namespace EmaCrossoverProvider

/-- `_ema_confidence` -/
def emaConfidence (bullish bearish : Bool) : ℚ :=
  if ¬ bullish ∧ ¬ bearish then 1 / 2
  else
    let emaFast := features.indicator "ema_12" context.currentPrice
    let emaSlow := features.indicator "ema_26" context.currentPrice
    let spread := emaFast - emaSlow
    let atr := max context.atr (1 / 10 ^ 9)
    let spreadRatio := |spread| / atr
    min (95 / 100) (max (55 / 100) (55 / 100 + 1 / 2 * spreadRatio))

def analyze : Except PyError StrategySignal :=
  let bullish := features.flag "ema_cross_bullish"
  let bearish := features.flag "ema_cross_bearish"
  let minConfidence := provider.params.minConfidence.getD (6 / 10)
  let requireTrend := provider.params.requireTrend.getD true
  let confidence := emaConfidence features context bullish bearish
  let side : SignalSide :=
    if bullish ∧ ¬ bearish then .buy else if bearish ∧ ¬ bullish then .sell else .hold
  let blocked := requireTrend ∧
    (side = .buy ∧ context.trend = .down ∨ side = .sell ∧ context.trend = .up)
  let side : SignalSide := if blocked then .hold else side
  let confidence := if blocked then 1 / 2 else confidence
  let summary :=
    match side with
    | .hold => "No EMA cross"
    | .buy => "EMA cross buy"
    | .sell => "EMA cross sell"
  provider.conclude features context side confidence minConfidence summary
    "EMA cross below min confidence"

end EmaCrossoverProvider

namespace RsiDivergenceProvider

/-- `_rsi_confidence` -/
def rsiConfidence (rsi oversold overbought : ℚ) (side : SignalSide) : ℚ :=
  let confidence (distance : ℚ) := min (95 / 100) (max (55 / 100) (55 / 100 + distance / 40))
  match side with
  | .buy => confidence (max 0 (oversold - rsi))
  | .sell => confidence (max 0 (rsi - overbought))
  | .hold => 1 / 2

def analyze : Except PyError StrategySignal :=
  let rsi := features.indicator "rsi_14" 50
  let oversold := provider.params.oversold.getD 30
  let overbought := provider.params.overbought.getD 70
  let minConfidence := provider.params.minConfidence.getD (65 / 100)
  let avoidHighVol := provider.params.avoidHighVol.getD true
  let picked : SignalSide × String :=
    if rsi < oversold then (.buy, "RSI oversold (" ++ fixedText 1 rsi ++ ")")
    else if overbought < rsi then (.sell, "RSI overbought (" ++ fixedText 1 rsi ++ ")")
    else (.hold, "RSI neutral (" ++ fixedText 1 rsi ++ ")")
  let confidence := rsiConfidence rsi oversold overbought picked.1
  let picked := filtered (avoidHighVol ∧ context.volatility = .high) " — high volatility filter"
    picked
  let picked := filtered (confidence < minConfidence) " — below min confidence" picked
  -- a side that is left has the confidence asked for
  provider.conclude features context picked.1 confidence confidence picked.2 picked.2

end RsiDivergenceProvider

namespace MacdMomentumProvider

/-- `_macd_confidence` -/
def macdConfidence (histogram histogramSlope atr : ℚ) : ℚ :=
  let atrSafe := max atr (1 / 10 ^ 9)
  let histStrength := |histogram| / atrSafe
  let slopeStrength := |histogramSlope| / atrSafe
  clamp (55 / 100 + 35 / 100 * histStrength + 1 / 2 * slopeStrength) (55 / 100) (95 / 100)

def analyze : Except PyError StrategySignal :=
  let macdLine := features.indicator "macd" 0
  let macdSignal := features.indicator "macd_signal" 0
  let histogram := features.indicator "macd_histogram" 0
  let histogramSlope := features.indicator "macd_histogram_slope" 0
  let minConfidence := provider.params.minConfidence.getD (6 / 10)
  let requireSignalAlign := provider.params.requireSignalAlign.getD true
  let minHistogramSlope := provider.params.minHistogramSlope.getD 0
  let requireTrend := provider.params.requireTrend.getD false
  let bullish : Bool := 0 < histogram ∧ minHistogramSlope < histogramSlope ∧
    (requireSignalAlign → macdSignal < macdLine)
  let bearish : Bool := histogram < 0 ∧ histogramSlope < -minHistogramSlope ∧
    (requireSignalAlign → macdLine < macdSignal)
  let picked : SignalSide × String :=
    if bullish ∧ ¬ bearish then (.buy, "MACD histogram momentum bullish")
    else if bearish ∧ ¬ bullish then (.sell, "MACD histogram momentum bearish")
    else (.hold, "No MACD momentum")
  let confidence := macdConfidence histogram histogramSlope context.atr
  let picked := trendFilter context requireTrend picked
  provider.conclude features context picked.1 confidence minConfidence picked.2
    (belowMinConfidence picked.2)

end MacdMomentumProvider

namespace AdxTrendStrengthProvider

/-- `_adx_confidence` -/
def adxConfidence (adx diSpread : ℚ) : ℚ :=
  let adxStrength := max 0 (adx - 20) / 40
  let spreadStrength := min (diSpread / 20) 1
  clamp (55 / 100 + 2 / 10 * adxStrength + 15 / 100 * spreadStrength) (55 / 100) (95 / 100)

def analyze : Except PyError StrategySignal :=
  let adx := features.indicator "adx_14" 0
  let plusDi := features.indicator "plus_di_14" 0
  let minusDi := features.indicator "minus_di_14" 0
  let minConfidence := provider.params.minConfidence.getD (6 / 10)
  let minAdx := provider.params.minAdx.getD 25
  let minDiSpread := provider.params.minDiSpread.getD 5
  let requireTrend := provider.params.requireTrend.getD false
  let regimeFilter := provider.params.regimeFilter
  let diSpread := |plusDi - minusDi|
  let strongTrend : Bool := minAdx ≤ adx ∧ minDiSpread ≤ diSpread
  let bullish : Bool := strongTrend ∧ minusDi < plusDi
  let bearish : Bool := strongTrend ∧ plusDi < minusDi
  let picked : SignalSide × String :=
    if bullish ∧ ¬ bearish then (.buy, "ADX trend strength bullish")
    else if bearish ∧ ¬ bullish then (.sell, "ADX trend strength bearish")
    else (.hold,
      if adx < minAdx then "ADX below minimum — weak trend"
      else if diSpread < minDiSpread then "DI spread too narrow — no conviction"
      else "No ADX trend signal")
  let confidence := adxConfidence adx diSpread
  let picked := trendFilter context requireTrend picked
  let currentRegime := context.trend.literal ++ "_" ++ context.volatility.literal
  let picked := filtered (regimeFilter ≠ [] ∧ currentRegime ∉ regimeFilter)
    (" — regime filter (" ++ currentRegime ++ ")") picked
  provider.conclude features context picked.1 confidence minConfidence picked.2
    (belowMinConfidence picked.2)

end AdxTrendStrengthProvider

namespace BollingerReversionProvider

/-- `_bb_confidence` -/
def bbConfidence (close upper lower : ℚ) (side : SignalSide) : ℚ :=
  let bandWidth := max (upper - lower) (1 / 10 ^ 9)
  let confidence (penetration : ℚ) :=
    clamp (55 / 100 + 12 / 10 * penetration) (55 / 100) (95 / 100)
  match side with
  | .buy => confidence (max 0 ((lower - close) / bandWidth))
  | .sell => confidence (max 0 ((close - upper) / bandWidth))
  | .hold => 1 / 2

def analyze : Except PyError StrategySignal :=
  let close := features.close
  let upper := features.indicator "bb_upper" close
  let lower := features.indicator "bb_lower" close
  let minConfidence := provider.params.minConfidence.getD (6 / 10)
  let avoidHighVol := provider.params.avoidHighVol.getD true
  let maxAdx := provider.params.maxAdx.getD 0
  let picked : SignalSide × String :=
    if close ≤ lower then
      (.buy, "Price at/below lower Bollinger band (" ++ fixedText 2 close ++ " <= " ++
        fixedText 2 lower ++ ")")
    else if upper ≤ close then
      (.sell, "Price at/above upper Bollinger band (" ++ fixedText 2 close ++ " >= " ++
        fixedText 2 upper ++ ")")
    else
      (.hold, "Price inside Bollinger bands (" ++ fixedText 2 lower ++ "–" ++
        fixedText 2 upper ++ ")")
  let confidence := bbConfidence close upper lower picked.1
  let picked := filtered (avoidHighVol ∧ context.volatility = .high) " — high volatility filter"
    picked
  let adx := features.indicator "adx_14" 0
  let picked := filtered (0 < maxAdx ∧ maxAdx < adx) (" — ADX too high for reversion (" ++
    fixedText 1 adx ++ " > " ++ fixedText 1 maxAdx ++ ")") picked
  provider.conclude features context picked.1 confidence minConfidence picked.2
    (belowMinConfidence picked.2)

end BollingerReversionProvider

namespace SuperTrendTrendProvider

/-- `_supertrend_confidence` -/
def supertrendConfidence (close line atr : ℚ) : ℚ :=
  let atrSafe := max atr (1 / 10 ^ 9)
  let distance := |close - line| / atrSafe
  clamp (55 / 100 + 12 / 100 * distance) (55 / 100) (95 / 100)

def analyze : Except PyError StrategySignal :=
  let line := features.indicator "supertrend" context.currentPrice
  let direction := features.indicator "supertrend_direction" 0
  let close := features.close
  let minConfidence := provider.params.minConfidence.getD (6 / 10)
  let requireTrend := provider.params.requireTrend.getD false
  let picked : SignalSide × String :=
    if 0 < direction then (.buy, "SuperTrend bullish — price above line")
    else if direction < 0 then (.sell, "SuperTrend bearish — price below line")
    else (.hold, "SuperTrend neutral")
  let confidence := supertrendConfidence close line context.atr
  let picked := trendFilter context requireTrend picked
  provider.conclude features context picked.1 confidence minConfidence picked.2
    (belowMinConfidence picked.2)

end SuperTrendTrendProvider

namespace VolumeOrderFlowProvider

/-- `_volume_flow_confidence` -/
def volumeFlowConfidence (cmf volumeRatio minCmf : ℚ) : ℚ :=
  let cmfStrength := min (|cmf| / max minCmf (1 / 10 ^ 9)) 2 / 2
  let volStrength := min (max (volumeRatio - 1) 0 / 1) 1
  clamp (55 / 100 + 2 / 10 * cmfStrength + 2 / 10 * volStrength) (55 / 100) (95 / 100)

/-- The key of the Chaikin money flow over the period of the parameters. -/
def cmfKey (params : ProviderParams) : String := "cmf_" ++ toString (params.period.getD 20)

def analyze : Except PyError StrategySignal :=
  let ratioKey := "volume_ratio_" ++ toString (provider.params.period.getD 20)
  let cmf := features.indicator (cmfKey provider.params) (features.indicator "cmf_20" 0)
  let volumeRatio := features.indicator ratioKey (features.indicator "volume_ratio_20" 1)
  let closeDelta := features.indicator "close_delta" 0
  let minConfidence := provider.params.minConfidence.getD (1 / 2)
  let minCmf := provider.params.minCmf.getD (5 / 100)
  let minVolumeRatio := provider.params.minVolumeRatio.getD (12 / 10)
  let requirePriceAlign := provider.params.requirePriceAlign.getD true
  let volumeConfirmed : Bool := minVolumeRatio ≤ volumeRatio
  let bullishFlow : Bool := minCmf ≤ cmf ∧ volumeConfirmed
  let bearishFlow : Bool := cmf ≤ -minCmf ∧ volumeConfirmed
  let picked : SignalSide × String :=
    if bullishFlow ∧ ¬ bearishFlow then
      (.buy, "Volume flow bullish — accumulation with elevated volume")
    else if bearishFlow ∧ ¬ bullishFlow then
      (.sell, "Volume flow bearish — distribution with elevated volume")
    else (.hold,
      if ¬ volumeConfirmed then "Volume below threshold — weak participation"
      else if |cmf| < minCmf then "CMF neutral — no clear money flow"
      else "No volume flow signal")
  let picked := filtered (requirePriceAlign ∧ (picked.1 = .buy ∧ closeDelta ≤ 0 ∨
    picked.1 = .sell ∧ 0 ≤ closeDelta)) " — price alignment filter" picked
  let confidence := volumeFlowConfidence cmf volumeRatio minCmf
  provider.conclude features context picked.1 confidence minConfidence picked.2
    (belowMinConfidence picked.2)

end VolumeOrderFlowProvider

namespace MarketStructureProvider

/-- `_market_structure_confidence` -/
def marketStructureConfidence (bias bos atr close : ℚ) : ℚ :=
  let structureStrength := min |bias| 1
  let bosStrength := min |bos| 1
  let atrSafe := max atr (1 / 10 ^ 9)
  let distance := |close| / atrSafe * (1 / 100) * bosStrength
  clamp (55 / 100 + 15 / 100 * structureStrength + 2 / 10 * bosStrength + 1 / 10 * distance)
    (55 / 100) (95 / 100)

def analyze : Except PyError StrategySignal :=
  let bias := features.indicator "ms_bias" 0
  let bos := features.indicator "ms_bos" 0
  let close := features.close
  let minConfidence := provider.params.minConfidence.getD (6 / 10)
  let requireBos := provider.params.requireBos.getD true
  let requireTrend := provider.params.requireTrend.getD false
  let bullish : Bool := 0 < bias ∧ (¬ requireBos ∨ 0 < bos)
  let bearish : Bool := bias < 0 ∧ (¬ requireBos ∨ bos < 0)
  let picked : SignalSide × String :=
    if bullish ∧ ¬ bearish then
      (.buy, "Market structure bullish — HH/HL" ++ (if 0 < bos then " with bullish BOS" else ""))
    else if bearish ∧ ¬ bullish then
      (.sell, "Market structure bearish — LH/LL" ++ (if bos < 0 then " with bearish BOS" else ""))
    else (.hold,
      if bias = 0 then "Neutral/choppy market structure"
      else if requireBos ∧ bos = 0 then "Structure bias without BOS confirmation"
      else "No market structure signal")
  let confidence := marketStructureConfidence bias bos context.atr close
  let picked := trendFilter context requireTrend picked
  provider.conclude features context picked.1 confidence minConfidence picked.2
    (belowMinConfidence picked.2)

end MarketStructureProvider

namespace CoreLongProvider

/-- `_MIN_CONF` -/
def minConf : ℚ := 1 / 2

/-- `_hold` -/
def hold (summary : String) : Except PyError StrategySignal :=
  provider.buildSignal features .hold minConf (provider.rationale summary)

def smaName (params : ProviderParams) : String := params.smaIndicator.getD "sma_200"

def analyze : Except PyError StrategySignal :=
  let smaName := smaName provider.params
  let confidence := provider.params.confidence.getD (9 / 10)
  let minConfidence := provider.params.minConfidence.getD (6 / 10)
  let regimeOffSide := provider.params.regimeOffSide.getD .hold
  let useAtrStops := provider.params.useAtrStops.getD true
  let price := context.currentPrice
  match features.indicators.lookup smaName with
  | none =>
    hold provider features
      (smaName ++ " not available — insufficient history for regime gate")
  | some sma =>
    let (side, summary) : SignalSide × String :=
      if sma < price then
        (.buy, "Uptrend regime — price " ++ fixedText 2 price ++ " > " ++ smaName ++ " " ++
          fixedText 2 sma)
      else
        (regimeOffSide, "Risk-off — price " ++ fixedText 2 price ++ " <= " ++ smaName ++ " " ++
          fixedText 2 sma)
    match side.direction with
    | none => hold provider features summary
    | some direction =>
      if confidence < minConfidence then hold provider features (belowMinConfidence summary)
      else if useAtrStops then
        let (stopLoss, takeProfit) := provider.atrStops context direction
        provider.buildSignal features side confidence (provider.rationale summary) stopLoss
          takeProfit
      else provider.buildSignal features side confidence (provider.rationale summary)

end CoreLongProvider

/-! ## The registry -/

/-- The values of `_PROVIDER_CLASSES`. -/
inductive ProviderClass
  | emaCrossover | rsiDivergence | macdMomentum | adxTrendStrength | bollingerReversion
  | supertrendTrend | volumeOrderFlow | marketStructure | coreLong
  deriving DecidableEq, Repr

def ProviderClass.analyze : ProviderClass → Except PyError StrategySignal
  | .emaCrossover => EmaCrossoverProvider.analyze provider features context
  | .rsiDivergence => RsiDivergenceProvider.analyze provider features context
  | .macdMomentum => MacdMomentumProvider.analyze provider features context
  | .adxTrendStrength => AdxTrendStrengthProvider.analyze provider features context
  | .bollingerReversion => BollingerReversionProvider.analyze provider features context
  | .supertrendTrend => SuperTrendTrendProvider.analyze provider features context
  | .volumeOrderFlow => VolumeOrderFlowProvider.analyze provider features context
  | .marketStructure => MarketStructureProvider.analyze provider features context
  | .coreLong => CoreLongProvider.analyze provider features context

end TradingPlatform
