import TradingPlatform.Contracts
import TradingPlatform.Lib.Outcome
import TradingPlatform.Lib.Rounding

/-!
# The stability of a research candidate

A candidate is a base signal gated by a magnitude filter. Its trades are rated by the price
`horizon` bars later, on each of a number of sub-windows of the data, and the threshold of the gate
is chosen by the sub-windows before the last. A float that is not a number is `none`, a missing
score `⊥`. Of the statistics of the trades only those the choice is made by are kept.
-/

namespace TradingPlatform

/-! ## The targets -/

/-- A row of the data with its targets for one horizon. -/
structure TargetRow where
  candle : Candle
  fwdRet : Option ℚ
  fwdAbsret : Option ℚ
  fwdMaxrange : Option ℚ

/-- The highest high minus the lowest low of the next `horizon` bars. -/
def forwardRange (df : Frame) (t horizon : ℕ) : Option ℚ :=
  if t + horizon < df.length then
    let next := (df.drop (t + 1)).take horizon
    match (next.map (·.bar.high)).max?, (next.map (·.bar.low)).min? with
    | some high, some low => some (high - low)
    | _, _ => none
  else none

/-- `compute_forward_targets` for one horizon. -/
def computeForwardTargets (df : Frame) (horizon : ℕ) : List TargetRow :=
  df.zipIdx.map fun (c, t) =>
    let fwdRet := df[t + horizon]?.map fun later => (later.bar.close / c.bar.close - 1) * 100
    { candle := c
      fwdRet
      fwdAbsret := fwdRet.map (|·|)
      fwdMaxrange := (forwardRange df t horizon).map (· / c.bar.close * 100) }

/-! ## The trades of a window -/

/-- What a base signal says of a bar. -/
inductive BaseLabel
  | up
  | down
  | other
  deriving DecidableEq

/-- A series over a window: a value for each of its rows. -/
abbrev WindowSeries (α : Type) := List TargetRow → ℕ → α

abbrev BaseSignal := WindowSeries BaseLabel

abbrev MagnitudeFilter := WindowSeries (Option ℚ)

/-- The trade of a row, if it has a target, a direction and passes the mask. -/
def tradePnl (signal : ℕ → BaseLabel) (mask : ℕ → Bool) : Option ℚ × ℕ → Option ℚ
  | (fwd, i) =>
    if mask i then
      match signal i with
      | .up => fwd
      | .down => fwd.map (-·)
      | .other => none
    else none

/-- `_trade_pnls` -/
def tradePnls (window : List TargetRow) (signal : ℕ → BaseLabel) (mask : ℕ → Bool) : List ℚ :=
  (window.map (·.fwdRet)).zipIdx.filterMap (tradePnl signal mask)

structure TradeStats where
  trades : ℕ
  winRate : Option ℚ
  deriving DecidableEq

/-- `_trade_stats_from_pnls` -/
def tradeStatsFromPnls (pnls : List ℚ) : TradeStats where
  trades := pnls.length
  winRate := if pnls = [] then none
    else some ((pnls.countP (0 < ·) : ℚ) / pnls.length * 100)

/-! ## The sub-windows -/

/-- The edges of `split_into_sub_windows`. -/
def windowEdge (n nWindows i : ℕ) : ℕ := i * n / nWindows

/-- A window of `split_into_sub_windows`. -/
def subWindow {α : Type} (df : List α) (nWindows i : ℕ) : List α :=
  (df.take (windowEdge df.length nWindows (i + 1))).drop (windowEdge df.length nWindows i)

structure SubWindowResult where
  windowIndex : ℕ
  nWindows : ℕ
  baselineStats : TradeStats
  filteredStats : TradeStats
  winRateImprovementPp : Option ℚ
  deriving DecidableEq

/-- The gate: the filter has a value, which reaches the threshold. -/
def gateMask (filter : ℕ → Option ℚ) (threshold : ℚ) (i : ℕ) : Bool :=
  (filter i).any fun value => threshold ≤ value

/-- A sub-window of `evaluate_candidate_stability`. -/
def evaluateWindow (baseSignal : BaseSignal) (magnitudeFilter : MagnitudeFilter) (threshold : ℚ)
    (nWindows : ℕ) (window : List TargetRow) (index : ℕ) : SubWindowResult :=
  let signal := baseSignal window
  let gate := gateMask (magnitudeFilter window) threshold
  let baselineStats := tradeStatsFromPnls (tradePnls window signal fun _ => true)
  let filteredStats := tradeStatsFromPnls (tradePnls window signal gate)
  { windowIndex := index
    nWindows
    baselineStats
    filteredStats
    winRateImprovementPp := do
      let filtered ← filteredStats.winRate
      let baseline ← baselineStats.winRate
      return filtered - baseline }

/-- `evaluate_candidate_stability` on at least one window. -/
def evaluateCandidateStability (df : List TargetRow) (baseSignal : BaseSignal)
    (magnitudeFilter : MagnitudeFilter) (threshold : ℚ) (nWindows : ℕ) : List SubWindowResult :=
  ((List.range nWindows).filter fun i => subWindow df nWindows i ≠ []).map fun i =>
    evaluateWindow baseSignal magnitudeFilter threshold nWindows (subWindow df nWindows i) i

/-! ## The sweep -/

structure PercentileSweepPoint where
  percentileThreshold : ℚ
  trainStats : List SubWindowResult
  holdoutStats : Option SubWindowResult
  deriving DecidableEq

structure PercentileSweepResult where
  points : List PercentileSweepPoint
  bestThresholdOnTrain : Option ℚ
  bestThresholdRankUnstable : Bool
  holdoutVerdictForBest : String

/-- `MIN_TRADES_FOR_COMPARISON` -/
def minTradesForComparison : ℕ := 30

/-- `MIN_SUB_WINDOW_IMPROVEMENT_PP` -/
def minSubWindowImprovementPp : ℚ := 1

namespace PercentileSweepPoint

/-- `_train_score` -/
def trainScore (p : PercentileSweepPoint) : WithBot ℚ :=
  let valid := p.trainStats.filterMap fun r =>
    if minTradesForComparison ≤ r.filteredStats.trades then r.winRateImprovementPp else none
  if valid = [] then ⊥ else ↑(valid.sum / valid.length)

/-- The score of a point in one of the windows. -/
def windowScore (p : PercentileSweepPoint) (index : ℕ) : WithBot ℚ :=
  p.trainStats.findSome? fun r => if r.windowIndex = index then r.winRateImprovementPp else none

end PercentileSweepPoint

/-- The points of a sweep: the last window is held out. -/
def sweepPoint (df : List TargetRow) (baseSignal : BaseSignal) (magnitudeFilter : MagnitudeFilter)
    (nWindows : ℕ) (threshold : ℚ) : PercentileSweepPoint :=
  let allWindows := evaluateCandidateStability df baseSignal magnitudeFilter threshold nWindows
  { percentileThreshold := threshold
    trainStats := allWindows.filter fun r => r.windowIndex < nWindows - 1
    holdoutStats := (allWindows.filter fun r => r.windowIndex = nWindows - 1).head? }

/-- The best point on average. -/
def bestPoint (points : List PercentileSweepPoint) : Option PercentileSweepPoint :=
  (points.filter fun p => ⊥ < p.trainScore).argmax (·.trainScore)

/-- The windows in which some point has a score, each with whether the threshold wins there. -/
def perWindowRanks (points : List PercentileSweepPoint) (nTrainWindows : ℕ) (best : ℚ) :
    List Bool :=
  ((List.range nTrainWindows).filter fun i => points.any fun p => ⊥ < p.windowScore i).map fun i =>
    (points.argmax (·.windowScore i)).any fun winner => winner.percentileThreshold = best

/-- The text of a number with its sign and one decimal. -/
def signedText (x : ℚ) : String := (if x < 0 then "" else "+") ++ fixedText 1 x

def holdoutVerdict : Option SubWindowResult → String
  | none => "not_evaluated: holdout sub-window has too few trades"
  | some holdout =>
    if holdout.filteredStats.trades < minTradesForComparison then
      "not_evaluated: holdout sub-window has too few trades"
    else match holdout.winRateImprovementPp with
      | none => "not_evaluated: holdout win-rate improvement undefined"
      | some improvement =>
        if minSubWindowImprovementPp ≤ improvement then
          "confirmed: holdout improvement " ++ signedText improvement ++ "pp"
        else "failed: holdout improvement only " ++ signedText improvement ++ "pp"

/-- `sweep_percentile_thresholds` -/
def sweepPercentileThresholds (df : List TargetRow) (baseSignal : BaseSignal)
    (magnitudeFilter : MagnitudeFilter) (percentileThresholds : List ℚ) (nWindows : ℕ) :
    Except PyError PercentileSweepResult := do
  if nWindows < 2 then
    throw (.valueError "n_windows must be >= 2 to reserve a holdout sub-window")
  let points := percentileThresholds.map (sweepPoint df baseSignal magnitudeFilter nWindows)
  match bestPoint points with
  | none => return {
      points
      bestThresholdOnTrain := none
      bestThresholdRankUnstable := true
      holdoutVerdictForBest := "not_evaluated: no threshold had enough train trades" }
  | some best => return {
      points
      bestThresholdOnTrain := some best.percentileThreshold
      bestThresholdRankUnstable :=
        (perWindowRanks points (nWindows - 1) best.percentileThreshold).any (! ·)
      holdoutVerdictForBest := holdoutVerdict best.holdoutStats }

end TradingPlatform
