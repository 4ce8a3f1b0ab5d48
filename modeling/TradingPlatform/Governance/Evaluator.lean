import TradingPlatform.Validation.Scoring

/-!
# The acceptance policy for candidates

`evaluate_candidate` puts the result of an optimization through four checks and accepts it when all
of them pass.
-/

namespace TradingPlatform

/-- `MIN_TRADES_FOR_REGIME_CHECK` -/
def minTradesForRegimeCheck : ℕ := 20

/-- `MAX_SINGLE_REGIME_SHARE` -/
def maxSingleRegimeShare : ℚ := 8 / 10

structure CandidateCheck where
  checkName : String
  passed : Bool
  detail : String
  currentValue : Option ℚ := none
  threshold : Option ℚ := none
  deriving DecidableEq

/-- `Literal["accepted", "rejected"]` -/
inductive EvaluationDecision
  | accepted
  | rejected
  deriving DecidableEq

section Checks

variable {Params : Type} (result : OptimizationResult Params)

/-- `_check_out_of_sample` -/
def checkOutOfSample : CandidateCheck where
  checkName := "out_of_sample"
  passed := result.holdoutValid
  detail :=
    if result.holdoutValid then "Holdout period met minimum trades and return thresholds"
    else "Holdout period failed minimum trades/return thresholds " ++
      "(see OptimizationResult.selection_message for the exact numbers)"

/-- The closed trades of the holdout outcome. -/
def OptimizationResult.holdoutTrades : ℕ := result.holdoutOutcome.elim 0 (·.totalTrades)

/-- `_check_minimum_sample` -/
def checkMinimumSample : CandidateCheck where
  checkName := "minimum_sample"
  passed := minTradesForRegimeCheck ≤ result.holdoutTrades
  detail := toString result.holdoutTrades ++ " holdout trades"
  currentValue := some result.holdoutTrades
  threshold := some minTradesForRegimeCheck

/-- `_check_fold_stability` -/
def checkFoldStability : CandidateCheck :=
  match (result.best <|> result.fallbackTrial).bind fun best =>
    best.foldStd.map fun foldStd => (best, foldStd) with
  | none => {
    checkName := "fold_stability"
    passed := false
    detail := "not_evaluated: no walk-forward folds were run for this candidate" }
  | some (best, foldStd) =>
    let foldMean := if best.foldScores = [] then 0 else mean best.foldScores
    let threshold := |foldMean| * (1 / 2) + 5
    { checkName := "fold_stability"
      passed := foldStd ≤ threshold
      detail := "fold_std=" ++ fixedText 2 foldStd ++ " across " ++
        toString best.foldScores.length ++ " folds"
      currentValue := some foldStd
      threshold := some threshold }

/-- The regime buckets of the holdout outcome. -/
def OptimizationResult.byRegime : Dict String BucketStats :=
  result.holdoutOutcome.elim ∅ (·.regimeAnalysis.byRegime)

/-- The largest share of the trades that one bucket holds. -/
def maxShare (byRegime : Dict String BucketStats) (totalTrades : ℕ) : ℚ :=
  (byRegime.values.map fun bucket => (bucket.trades : ℚ) / totalTrades).foldl max 0

/-- `_check_regime_concentration` -/
def checkRegimeConcentration : CandidateCheck :=
  let totalTrades := tradesIn result.byRegime
  if totalTrades < minTradesForRegimeCheck then {
    checkName := "regime_concentration"
    passed := false
    detail := "not_evaluated: only " ++ toString totalTrades ++ " attributed holdout trades" }
  else
    let share := maxShare result.byRegime totalTrades
    { checkName := "regime_concentration"
      passed := share ≤ maxSingleRegimeShare
      detail := "largest single regime accounts for " ++ fixedText 0 (share * 100) ++
        "% of holdout trades"
      currentValue := some share
      threshold := some maxSingleRegimeShare }

/-- The checks of `evaluate_candidate`. -/
def candidateChecks : List CandidateCheck :=
  [checkOutOfSample result, checkMinimumSample result, checkFoldStability result,
    checkRegimeConcentration result]

/-- `evaluate_candidate` -/
def evaluateCandidate : List CandidateCheck × EvaluationDecision × String :=
  let checks := candidateChecks result
  if checks.all (·.passed) then (checks, .accepted, "All checks passed.")
  else
    let failedNames := (checks.filter fun check => ¬ check.passed).map (·.checkName)
    (checks, .rejected, "Failed: " ++ ", ".intercalate failedNames)

end Checks

end TradingPlatform
