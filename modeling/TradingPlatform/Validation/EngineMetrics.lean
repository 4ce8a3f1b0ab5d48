import TradingPlatform.Lib.Tally
import TradingPlatform.Validation.LoggedEvents

/-!
# The engine metrics of a run

`EngineMetricsAccumulator` counts the decisions of a run as the cycles come in, and `finalize` adds
what the decision events say about the snapshots.
-/

namespace TradingPlatform

def DecisionResult.rejectionStage : DecisionResult → Option RejectionStage
  | .approved => none
  | .rejected _ stage => some stage

def RejectionStage.literal : RejectionStage → String
  | .marketFilter => "market_filter"
  | .aggregator => "aggregator"
  | .riskManager => "risk_manager"

structure EngineMetricsAccumulator where
  total : ℕ := 0
  approved : ℕ := 0
  rejectionReasons : Dict String ℕ := ∅
  rejectionStages : Dict String ℕ := ∅
  providerHits : Dict String ℕ := ∅

structure EngineMetrics where
  totalCycles : ℕ
  approved : ℕ
  rejected : ℤ
  approvalRate : ℚ
  byReason : Dict String ℕ
  byStage : Dict String ℕ
  providerContribution : Dict String ℕ
  decisionsWithSnapshotId : ℕ
  snapshotCoverage : ℚ

namespace EngineMetricsAccumulator

/-- The reason a decision is counted under. -/
def reason (d : Decision) : String := orText d.result.rejectionReason "unknown"

def stage (d : Decision) : String :=
  orText (d.result.rejectionStage.map RejectionStage.literal) "unknown"

/-- `observe` -/
def observe (acc : EngineMetricsAccumulator) (d : Decision) : EngineMetricsAccumulator :=
  if d.isApproved then
    { acc with
      total := acc.total + 1
      approved := acc.approved + 1
      providerHits := match d.finalSignal with
        | some signal => signal.contributingProviders.foldl Dict.bump acc.providerHits
        | none => acc.providerHits }
  else
    { acc with
      total := acc.total + 1
      rejectionReasons := acc.rejectionReasons.bump (reason d)
      rejectionStages := acc.rejectionStages.bump (stage d) }

/-- The decision event names a snapshot. -/
def withSnapshot (e : LoggedEvent) : Bool :=
  (e.eventType = .decisionMade ∨ e.eventType = .decisionApproved) ∧
    given e.payload.stateSnapshotId

/-- `_finalize_engine_metrics` -/
def finalize (acc : EngineMetricsAccumulator) (events : List LoggedEvent) : EngineMetrics :=
  let decisionEvents := events.filter (·.eventFamily = .decision)
  let withSnapshotId := decisionEvents.countP withSnapshot
  { totalCycles := acc.total
    approved := acc.approved
    rejected := acc.total - acc.approved
    approvalRate := if acc.total ≠ 0 then (acc.approved : ℚ) / acc.total else 0
    byReason := acc.rejectionReasons
    byStage := acc.rejectionStages
    providerContribution := acc.providerHits
    decisionsWithSnapshotId := withSnapshotId
    snapshotCoverage := if decisionEvents ≠ [] then (withSnapshotId : ℚ) / decisionEvents.length
      else 1 }

end EngineMetricsAccumulator

/-- `compute_engine_metrics` -/
def computeEngineMetrics (decisions : List Decision) (events : List LoggedEvent) : EngineMetrics :=
  (decisions.foldl EngineMetricsAccumulator.observe {}).finalize events

namespace EngineMetricsAccumulator

variable {acc : EngineMetricsAccumulator} {decisions : List Decision}

/-- The reasons are counted over the rejected decisions. -/
theorem rejectionReasons_foldl : (decisions.foldl observe acc).rejectionReasons =
    ((decisions.filter fun d => !d.isApproved).map reason).foldl Dict.bump
      acc.rejectionReasons := by
  induction decisions generalizing acc with
  | nil => rfl
  | cons d decisions ih =>
    rw [List.foldl_cons, ih, List.filter_cons]
    cases happroved : d.isApproved with
    | true => simp [observe, happroved]
    | false => simp [observe, happroved]

end EngineMetricsAccumulator

theorem byReason_computeEngineMetrics {decisions : List Decision} {events : List LoggedEvent} :
    (computeEngineMetrics decisions events).byReason = Dict.tally
      ((decisions.filter fun d => !d.isApproved).map EngineMetricsAccumulator.reason) :=
  EngineMetricsAccumulator.rejectionReasons_foldl

end TradingPlatform
