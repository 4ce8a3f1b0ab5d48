import TradingPlatform.Config.Files
import TradingPlatform.Lib.Rounding

/-!
# The market context of a bar

`ContextDeriver` labels a bar by the trend of two averages, the size of the true range and the hour
of the day. The percentage of the true range is rounded to four digits before it is compared.
-/

namespace TradingPlatform

/-- The session of an hour of the day, in UTC. -/
def sessionOfHour (hour : ℤ) : Session :=
  if 12 ≤ hour ∧ hour < 16 then .overlap
  else if 7 ≤ hour ∧ hour < 12 then .europe
  else if 16 ≤ hour ∧ hour < 21 then .us
  else .asia

/-- The hour of the day, in UTC. -/
def hourOf (t : ℤ) : ℤ := t % 86400000000 / 3600000000

namespace ContextConfig

variable (config : ContextConfig)

/-- `indicators[name]` -/
def indicator (indicators : List (String × ℚ)) (name : String) : Except PyError ℚ :=
  match indicators.lookup name with
  | some value => .ok value
  | none => .error (.keyError name)

/-- `_derive_trend` -/
def deriveTrend (indicators : List (String × ℚ)) : Except PyError Trend := do
  let fast ← indicator indicators config.fast
  let slow ← indicator indicators config.slow
  return if slow < fast then .up else if fast < slow then .down else .sideways

/-- `_derive_atr_metrics` -/
def deriveAtrMetrics (close : ℚ) (indicators : List (String × ℚ)) : Except PyError (ℚ × ℚ) := do
  let atr ← indicator indicators config.atr
  let atrPct := if close ≠ 0 then atr / close * 100 else 0
  return (atr, roundDigits atrPct 4)

/-- `_derive_volatility` -/
def deriveVolatility (atrPct : ℚ) : Volatility :=
  if atrPct < config.low then .low else if config.high < atrPct then .high else .normal

/-- `ContextDeriver.derive` -/
def derive (symbol timeframe : String) (close : ℚ) (indicators : List (String × ℚ))
    (eventTime : ℤ) : Except PyError MarketContext := do
  let trend ← config.deriveTrend indicators
  let atrMetrics ← config.deriveAtrMetrics close indicators
  return {
    symbol, timeframe, trend, eventTime
    currentPrice := close
    volatility := config.deriveVolatility atrMetrics.2
    atr := atrMetrics.1
    atrPct := atrMetrics.2
    session := sessionOfHour (hourOf eventTime) }

/-- The configuration of `features.yaml`. -/
def default : ContextConfig where
  fast := "ema_12"
  slow := "ema_26"
  atr := "atr_14"
  low := 3 / 10
  high := 1

end ContextConfig

end TradingPlatform
