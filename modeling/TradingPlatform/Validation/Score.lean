import TradingPlatform.Lib.Calendar
import TradingPlatform.Lib.Rounding
import TradingPlatform.Validation.Regimes

/-!
# The score of a run

`compute_strategy_score` and `compute_optimization_score`, with the daily returns and the months
they and the optimiser read. The square root of a float, `x ** 0.5`, is a parameter.
-/

namespace TradingPlatform

/-! ## Closed trades by day and by month -/

/-- The time and the result of a closed trade. -/
abbrev TimedPnl := ℤ × ℚ

/-- The closed trades in the order of their times. -/
def closedByTime (events : List EventEnvelope) : List TimedPnl :=
  ((eventsOfType .positionClosed events).insertionSort (fun a b => a.eventTime ≤ b.eventTime)).map
    fun e => (e.eventTime, e.pnl)

/-- The sums of the results under each key, the keys in ascending order. -/
def sumsBy {κ : Type} [LinearOrder κ] (key : ℤ → κ) (trades : List TimedPnl) : List ℚ :=
  let sums : Dict κ ℚ := trades.foldl
    (fun sums trade => sums.set (key trade.1) (sums.getD (key trade.1) 0 + trade.2)) ∅
  (sums.keys.insertionSort (· ≤ ·)).map fun k => sums.getD k 0

/-- The relative changes of an equity to which results are added one after the other. -/
def dailyReturns (equity : ℚ) : List ℚ → List ℚ
  | [] => []
  | pnl :: rest =>
    let next := equity + pnl
    let returns := dailyReturns next rest
    if equity ≠ 0 then (next - equity) / |equity| :: returns
    else if next ≠ 0 then 1 :: returns
    else returns

/-- `compute_daily_equity_returns` -/
def computeDailyEquityReturns (events : List EventEnvelope) (initialCapital : ℚ) : List ℚ :=
  dailyReturns initialCapital (sumsBy date (closedByTime events))

/-- The months since the year 0. -/
def monthOf (t : ℤ) : ℤ :=
  let d := Calendar.civilDate (date t)
  d.year * 12 + d.month

/-- The `pnl` entries of `compute_monthly_breakdown`. -/
def monthlyPnls (events : List EventEnvelope) : List ℚ := sumsBy monthOf (closedByTime events)

/-! ## Scores -/

/-- `_annualized_sharpe` -/
def annualizedSharpe (sqrt : ℚ → ℚ) (returns : List ℚ) : ℚ :=
  if returns.length < 2 then 0
  else
    let mean : ℚ := returns.sum / returns.length
    let var : ℚ := (returns.map fun r => (r - mean) ^ 2).sum / ((returns.length : ℚ) - 1)
    let std := sqrt var
    if std ≤ 0 then 0 else mean / std * sqrt 252

/-- `compute_strategy_score` -/
def strategyScore (m : OutcomeMetrics) (sharpe : ℚ) : ℚ :=
  let pfTerm := match m.profitFactor with
    | some factor => factor - 1
    | none => 1
  roundDigits (100 * (45 / 100 * clamp (m.returnPct / 10) (-1) 1 +
    20 / 100 * clamp (sharpe / 2) (-1) 1 +
    15 / 100 * clamp ((m.winRate - 1 / 2) * 2) (-1) 1 +
    20 / 100 * clamp pfTerm 0 1) - 15 / 10 * m.maxDrawdownPct) 2

/-- The outcome of a run with the entries that the optimiser and the candidate evaluation read. -/
structure ScoredOutcome extends OutcomeMetrics where
  sharpeRatio : ℚ := 0
  monthlyPnls : List ℚ := []
  regimeAnalysis : RegimeBreakdown := {}
  score : ℚ := 0
  optimizationScore : ℚ := 0
  deriving DecidableEq

/-- `compute_optimization_score` -/
def optimizationScore (score : ℚ) (totalTrades : ℕ) : ℚ :=
  if totalTrades < 10 then min score (-50) else score

/-- The further entries of `compute_outcome_metrics`. -/
def OutcomeMetrics.scored (sqrt : ℚ → ℚ) (m : OutcomeMetrics) (events : List EventEnvelope) :
    ScoredOutcome :=
  let sharpeRatio := annualizedSharpe sqrt (computeDailyEquityReturns events m.initialCapital)
  let score := strategyScore m sharpeRatio
  { m with
    sharpeRatio
    monthlyPnls := monthlyPnls events
    regimeAnalysis := computeRegimeBreakdown events
    score
    optimizationScore := optimizationScore score m.totalTrades }

end TradingPlatform
