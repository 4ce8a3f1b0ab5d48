import TradingPlatform.Validation.Score

/-!
# The scoring of an optimization

The trials of a sweep, the score that ranks them and the choice of the best one. A float minus
infinity is `⊥`. What the parameters of a trial are is left open; the square root and the text of a
float are parameters.
-/

namespace TradingPlatform

/-! ## Trials -/

structure TrialResult (Params : Type) where
  trialId : ℕ
  params : Params
  trainScore : ℚ
  trainOutcome : ScoredOutcome
  testScore : Option ℚ := none
  testOutcome : Option ScoredOutcome := none
  stability : Option ℚ := none
  revisionId : Option String := none
  compositeScore : Option (WithBot ℚ) := none
  foldScores : List ℚ := []
  foldStd : Option ℚ := none
  paretoRank : Option ℕ := none

structure OptimizationResult (Params : Type) where
  symbol : String
  timeframe : String
  trainStart : ℤ
  trainEnd : ℤ
  testStart : ℤ
  testEnd : ℤ
  trials : List (TrialResult Params) := []
  best : Option (TrialResult Params) := none
  bestValid : Bool := false
  selectionMessage : Option String := none
  fallbackTrial : Option (TrialResult Params) := none
  holdoutStart : Option ℤ := none
  holdoutEnd : Option ℤ := none
  optimizationEnd : Option ℤ := none
  holdoutScore : Option ℚ := none
  holdoutOutcome : Option ScoredOutcome := none
  holdoutValid : Bool := false

variable {Params : Type}

/-! ## The score of a trial -/

/-- `compute_stability` -/
def computeStability (outcome : ScoredOutcome) : ℚ :=
  if outcome.monthlyPnls = [] then 0
  else (outcome.monthlyPnls.countP (0 < ·) : ℚ) / outcome.monthlyPnls.length

/-- `composite_score` -/
def compositeScore (trial : TrialResult Params) (minTrades : ℤ) (minReturnPct : ℚ) : WithBot ℚ :=
  match trial.testOutcome, trial.testScore with
  | some outcome, some testScore =>
    if outcome.totalTrades < minTrades ∨ outcome.returnPct < minReturnPct then ⊥
    else if trial.trainOutcome.returnPct < minReturnPct then ⊥
    else
      let returnTerm := clamp (outcome.returnPct / 10) (-1) 1 * 100
      let foldPenalty := trial.foldStd.getD 0 * 10
      ↑(6 / 10 * testScore + 25 / 100 * trial.stability.getD 0 * 100 + 15 / 100 * returnTerm -
        foldPenalty)
  | _, _ => ⊥

/-- What `assign_pareto_ranks` compares of a trial: more is better. -/
def paretoValues (outcome : ScoredOutcome) : ℚ × ℚ × ℚ :=
  (outcome.returnPct, -outcome.maxDrawdownPct, outcome.profitFactor.getD 10)

/-- As good in each value and better in one. No triple dominates itself. -/
def dominates (other values : ℚ × ℚ × ℚ) : Bool :=
  decide (values.1 ≤ other.1 ∧ values.2.1 ≤ other.2.1 ∧ values.2.2 ≤ other.2.2) &&
    decide (values.1 < other.1 ∨ values.2.1 < other.2.1 ∨ values.2.2 < other.2.2)

/-- `assign_pareto_ranks` -/
def assignParetoRanks (finalists : List (TrialResult Params)) : List (TrialResult Params) :=
  let metrics := finalists.filterMap fun trial => trial.testOutcome.map paretoValues
  finalists.map fun trial =>
    match trial.testOutcome with
    | none => trial
    | some outcome =>
      let dominated := metrics.any fun other => dominates other (paretoValues outcome)
      { trial with paretoRank := some (if dominated then 1 else 0) }

/-- The key of `select_best`: a score of zero counts as no score. -/
def selectionKey (trial : TrialResult Params) : WithBot ℚ :=
  match trial.compositeScore with
  | some (some score) => if score = 0 then ⊥ else ↑score
  | _ => ⊥

/-- `select_best`: the finalists with their scores and ranks, and the best of them. -/
def selectBest (finalists : List (TrialResult Params)) (minTrades : ℤ) (minReturnPct : ℚ) :
    List (TrialResult Params) × Option (TrialResult Params) :=
  let scored := assignParetoRanks (finalists.map fun trial =>
    { trial with compositeScore := some (compositeScore trial minTrades minReturnPct) })
  let eligible := scored.filter fun trial => trial.compositeScore.any (⊥ < ·)
  let paretoEligible := eligible.filter (·.paretoRank = some 0)
  let pool := if paretoEligible = [] then eligible else paretoEligible
  (scored, pool.argmax selectionKey)

/-- `_trial_test_trades` -/
def trialTestTrades (trial : TrialResult Params) : ℕ :=
  trial.testOutcome.elim 0 (·.totalTrades)

/-- `build_selection_message` -/
def buildSelectionMessage (floatText : ℚ → String) (minAgreeingProviders : Params → ℤ)
    (finalists : List (TrialResult Params)) (minTrades : ℤ) (minReturnPct : ℚ) : String :=
  if finalists = [] then "No finalists were evaluated on test data."
  else
    let maxTrades := (finalists.map trialTestTrades).foldl max 0
    let agreeingTwo := finalists.countP fun trial => 2 ≤ minAgreeingProviders trial.params
    let negativeTrain := finalists.countP fun trial => trial.trainOutcome.returnPct < minReturnPct
    " ".intercalate (
      ["No trial reached " ++ toString minTrades ++ " test trades (max seen: " ++
        toString maxTrades ++ ")."] ++
      (if 0 < minReturnPct then
        ["Minimum return filter: " ++ floatText minReturnPct ++ "%."] else []) ++
      (if agreeingTwo ≠ 0 then [toString agreeingTwo ++ " finalist(s) require 2+ agreeing " ++
        "providers — high agreement often chokes trade count to near zero."] else []) ++
      (if negativeTrain ≠ 0 then [toString negativeTrain ++ " finalist(s) lost money on train — " ++
        "composite score now requires non-negative train return."] else []) ++
      ["Try: min_agreeing_providers=1, family-constrained discovery (no trend+reversion mix), " ++
        "longer date range, or a provider edge scorecard first."])

/-! ## Folds -/

/-- The mean of a list that is not empty. -/
def mean (values : List ℚ) : ℚ := values.sum / values.length

/-- `_aggregate_fold_outcomes` on the outcomes of at least one fold. -/
def aggregateFoldOutcomes (first : ScoredOutcome) (rest : List ScoredOutcome) : ScoredOutcome :=
  if rest = [] then first
  else
    let outcomes := first :: rest
    let last := rest.getLastD first
    let meanOf := fun (key : ScoredOutcome → ℚ) => mean (outcomes.map key)
    let finiteFactors := outcomes.filterMap (·.profitFactor)
    { last with
      totalTrades := (outcomes.map (·.totalTrades)).sum
      positionsOpened := (outcomes.map (·.positionsOpened)).sum
      positionsClosed := (outcomes.map (·.positionsClosed)).sum
      ordersRejected := (outcomes.map (·.ordersRejected)).sum
      returnPct := meanOf (·.returnPct)
      winRate := meanOf (·.winRate)
      profitFactor := if finiteFactors = [] then last.profitFactor else some (mean finiteFactors)
      maxDrawdownPct := meanOf (·.maxDrawdownPct)
      maxDrawdown := meanOf (·.maxDrawdown)
      sharpeRatio := meanOf (·.sharpeRatio)
      score := meanOf (·.score)
      optimizationScore := meanOf (·.optimizationScore)
      monthlyPnls := outcomes.flatMap (·.monthlyPnls) }

/-- The mean of the scores of the folds and their spread, as `_score_trial_windows` computes
them. -/
def foldSpread (sqrt : ℚ → ℚ) (scores : List ℚ) : ℚ × ℚ :=
  let meanScore := if scores = [] then 0 else mean scores
  if 1 < scores.length then
    let variance : ℚ :=
      (scores.map fun score => (score - meanScore) ^ 2).sum / ((scores.length : ℚ) - 1)
    (meanScore, sqrt variance)
  else (meanScore, 0)

end TradingPlatform
