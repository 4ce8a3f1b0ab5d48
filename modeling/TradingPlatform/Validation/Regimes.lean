import TradingPlatform.Lib.Grouping
import TradingPlatform.Validation.Metrics

/-!
# The breakdown by regime and confidence

`compute_regime_breakdown` joins the closed trades of a run with the events of the cycle that opened
their position: the market context gives the regime, the confidence entry of the decision the band.
-/

namespace TradingPlatform

/-! ## Buckets -/

/-- `bucket_stats` -/
structure BucketStats where
  trades : ℕ
  wins : ℕ := 0
  losses : ℕ := 0
  winRate : ℚ := 0
  pnl : ℚ := 0
  grossProfit : ℚ := 0
  grossLoss : ℚ := 0
  deriving DecidableEq, Repr

def bucketStats (pnls : List ℚ) : BucketStats where
  trades := pnls.length
  wins := pnls.countP (0 < ·)
  losses := pnls.countP (· ≤ 0)
  winRate := if pnls = [] then 0 else (pnls.countP (0 < ·) : ℚ) / pnls.length
  pnl := pnls.sum
  grossProfit := (pnls.filter (0 < ·)).sum
  grossLoss := |(pnls.filter (· ≤ 0)).sum|

/-- The lists of a `defaultdict(list)`. -/
abbrev Buckets := Dict String (List ℚ)

/-- `buckets[key].append(pnl)` -/
def Buckets.add (buckets : Buckets) (key : String) (pnl : ℚ) : Buckets :=
  buckets.set key (buckets.getD key [] ++ [pnl])

/-- The trades in all buckets together. -/
def tradesIn (buckets : Dict String BucketStats) : ℕ := (buckets.values.map (·.trades)).sum

/-! ## Labels -/

/-- `classify_regime` -/
def classifyRegime (context : MarketContext) : String :=
  context.trend.literal ++ "_" ++ context.volatility.literal

/-- `_confidence_band` -/
def confidenceBand (confidence : ℚ) : String :=
  if 8 / 10 ≤ confidence then "0.80-1.00"
  else if 7 / 10 ≤ confidence then "0.70-0.79"
  else if 6 / 10 ≤ confidence then "0.60-0.69"
  else "below_0.60"

/-! ## The join -/

/-- A correlation id that is not the empty text. -/
def CorrelationId.truthy : CorrelationId → Bool
  | .given s => decide (s ≠ "")
  | .cycle _ => true

/-- The `confidence` entry of a payload. -/
def Payload.confidence? : Payload → Option ℚ
  | .providerOpinion _ _ confidence _ => some confidence
  | .signalPublished _ signal => some signal.confidence
  | _ => none

/-- `_entry_correlation_by_position` -/
def entryCorrelationByPosition (events : List EventEnvelope) : Dict ℕ CorrelationId :=
  events.foldl (fun mapping e =>
    match e.payload with
    | .positionOpened positionId _ _ => mapping.set positionId e.correlationId
    | _ => mapping) ∅

def contextByCorrelation (events : List EventEnvelope) : Dict CorrelationId MarketContext :=
  events.foldl (fun contexts e =>
    match e.payload with
    | .marketContextDerived context => contexts.set e.correlationId context
    | _ => contexts) ∅

def confidenceByCorrelation (events : List EventEnvelope) : Dict CorrelationId ℚ :=
  events.foldl (fun confidences e =>
    match e.payload with
    | .decisionMade .. =>
      match e.payload.confidence? with
      | some confidence => confidences.set e.correlationId confidence
      | none => confidences
    | _ => confidences) ∅

/-- The cycle a closed trade is attributed to, if there is one with a market context. -/
def entryCycle (events : List EventEnvelope) (closed : ClosedPayload) :
    Option (CorrelationId × MarketContext) := do
  let correlationId ← (entryCorrelationByPosition events).get? closed.positionId
  let context ← if correlationId.truthy then (contextByCorrelation events).get? correlationId
    else none
  return (correlationId, context)

structure RegimeBreakdown where
  byRegime : Dict String BucketStats := ∅
  byConfidenceBand : Dict String BucketStats := ∅
  unattributedTrades : ℕ := 0
  deriving DecidableEq

/-- The variables of the loop over the closed trades. -/
structure BreakdownLoop where
  regimeBuckets : Buckets := ∅
  confidenceBuckets : Buckets := ∅
  unattributed : ℕ := 0

/-- The payloads of the closed trades. -/
def closedPayloads (events : List EventEnvelope) : List ClosedPayload :=
  events.filterMap fun e => match e.payload with
    | .positionClosed closed => some closed
    | _ => none

/-- One closed trade of the loop. -/
def BreakdownLoop.step (events : List EventEnvelope) (b : BreakdownLoop)
    (closed : ClosedPayload) : BreakdownLoop :=
  match entryCycle events closed with
  | none => { b with unattributed := b.unattributed + 1 }
  | some (correlationId, context) =>
    let b := { b with regimeBuckets := b.regimeBuckets.add (classifyRegime context) closed.pnl }
    match (confidenceByCorrelation events).get? correlationId with
    | none => b
    | some confidence => { b with
        confidenceBuckets := b.confidenceBuckets.add (confidenceBand confidence) closed.pnl }

/-- `compute_regime_breakdown` -/
def computeRegimeBreakdown (events : List EventEnvelope) : RegimeBreakdown :=
  let closed := closedPayloads events
  if closed = [] then {}
  else
    let b := closed.foldl (BreakdownLoop.step events) {}
    { byRegime := b.regimeBuckets.map bucketStats
      byConfidenceBand := b.confidenceBuckets.map bucketStats
      unattributedTrades := b.unattributed }

/-! ## How many trades are counted -/

variable {buckets : Buckets} {key : String} {pnl : ℚ}

theorem tradesIn_eq (buckets : Buckets) :
    tradesIn (buckets.map bucketStats) = buckets.values.flatten.length := by
  simp [tradesIn, Dict.values, Dict.map, bucketStats, Function.comp_def, List.length_flatten]

theorem tradesIn_add : tradesIn ((buckets.add key pnl).map bucketStats) =
    tradesIn (buckets.map bucketStats) + 1 := by
  rw [tradesIn_eq, tradesIn_eq]
  exact Dict.flatten_push_perm.length_eq

namespace BreakdownLoop

/-- The trades counted so far, in a regime or as unattributed. -/
def counted (b : BreakdownLoop) : ℕ := tradesIn (b.regimeBuckets.map bucketStats) + b.unattributed

theorem counted_add (b : BreakdownLoop) (regime : String) (pnl : ℚ) :
    tradesIn ((b.regimeBuckets.add regime pnl).map bucketStats) + b.unattributed =
      b.counted + 1 := by
  rw [tradesIn_add, counted]
  omega

/-- A loop whose steps count one trade each has counted all of them. -/
theorem counted_foldl {α : Type} {step : BreakdownLoop → α → BreakdownLoop}
    (hstep : ∀ b x, (step b x).counted = b.counted + 1) (trades : List α) (b : BreakdownLoop) :
    (trades.foldl step b).counted = b.counted + trades.length := by
  induction trades generalizing b with
  | nil => rfl
  | cons first rest ih =>
    rw [List.foldl_cons, ih, hstep, List.length_cons]
    omega

end BreakdownLoop

end TradingPlatform
