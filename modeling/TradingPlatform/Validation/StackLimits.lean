import TradingPlatform.Engine.RiskGates
import TradingPlatform.Runtime.LiveStack
import TradingPlatform.Runtime.PositionCap
import TradingPlatform.Validation.Cash
import TradingPlatform.Validation.Job

/-!
# Two copies of the limits

The risk manager takes its limits from the engine configuration; the gate of the orders and the size
of a position take theirs from the store, where they stay as they were set up. A stack that is built
without limits of its own gives its store constants, whatever the engine configuration says.
-/

namespace TradingPlatform

open InMemoryStateStore

/-- The stacks the platform builds from its configuration alone: a live stack, and the stack of a
validation job that is given no `risk_limits`. -/
inductive RuntimeSetup.OnConfig : RuntimeSetup → Prop
  | live (mode : Mode) (decisionEngine : EngineConfig) (fillModel : FillModel)
      (config : ValidationExecutionConfig) (now : ℤ) :
      OnConfig (buildLiveStack mode decisionEngine fillModel config now)
  | validation (job : ValidationJob) (env : JobEnvironment) (emitAll : Bool) (start : ℤ)
      (hlimits : job.riskLimits = none) : OnConfig (job.setup env emitAll start)

/-- The gate rejects the order for the number of open positions. -/
def ExecutionRiskGate.RejectsPosition (intent : OrderIntent) (snapshot : StateSnapshot) : Prop :=
  check intent snapshot = .ok ⟨false, some "max_open_positions"⟩

theorem ExecutionRiskGate.rejectsPosition_iff {intent : OrderIntent} {snapshot : StateSnapshot} :
    RejectsPosition intent snapshot ↔
      snapshot.risk.limits.maxOpenPositions ≤ snapshot.portfolio.openPositions.length := by
  constructor
  · intro h
    by_contra hlt
    unfold RejectsPosition check at h
    dsimp only at h
    rw [if_neg hlt] at h
    split at h
    · simp at h
    · split_ifs at h <;> simp at h
  · exact fun hle => if_pos hle

/-- Without an opposing position the risk manager passes what is below its limit. -/
theorem RiskConfig.maxOpenPositionsCheck_passed {config : RiskConfig} {side : Side}
    {portfolio : PortfolioState} (h : opposingExit side portfolio = false) :
    (config.maxOpenPositionsCheck side portfolio).passed = true ↔
      (portfolio.openPositions.length : ℤ) < config.maxOpenPositions := by
  simp [maxOpenPositionsCheck, checkResult, h]

namespace RuntimeSetup

variable {setup : RuntimeSetup}

/-- The limits that the gate and the position size enforce are those that the risk manager
enforces: where nothing opposes the decision, the gate rejects for the number of open positions what
the risk manager has rejected, and nothing else, and the exposure is bounded by one limit. The
snapshots of the stack carry the limits of its store. -/
structure LimitsAgree (setup : RuntimeSetup) : Prop where
  openPositions : ∀ (aggregated : AggregatorSuccess) (intent : OrderIntent)
    (snapshot : StateSnapshot), snapshot.risk.limits = setup.limits →
    RiskConfig.opposingExit aggregated.side snapshot.portfolio = false →
    ((setup.decisionEngine.risk.maxOpenPositionsCheck aggregated.side
        snapshot.portfolio).passed = true ↔
      ¬ ExecutionRiskGate.RejectsPosition intent snapshot)
  exposure : setup.limits.maxExposurePct = setup.decisionEngine.risk.maxExposurePct

theorem OnConfig.limits (h : setup.OnConfig) :
    setup.limits.maxOpenPositions = 3 ∧ setup.limits.maxExposurePct = 50 := by
  cases h with
  | live => exact ⟨rfl, rfl⟩
  | validation job env emitAll start hlimits =>
    change job.effectiveLimits.maxOpenPositions = 3 ∧ job.effectiveLimits.maxExposurePct = 50
    unfold ValidationJob.effectiveLimits
    rw [hlimits]
    cases job.maxConsecutiveLosses with
    | none => exact ⟨rfl, rfl⟩
    | some losses => exact ⟨rfl, rfl⟩

/-- A snapshot of a store with the limits that holds `n` long positions. -/
def holding (limits : RiskLimits) (n : ℕ) : StateSnapshot :=
  let s := InMemoryStateStore.init 10000 limits
  { snapshotId := 0
    portfolio := { s.portfolio with openPositions := List.replicate n {
      positionId := 1, symbol := "BTC", side := .long, quantity := 1, entryPrice := 100
      entryTime := 0, stopLoss := none, takeProfit := none } }
    risk := s.risk
    version := 1
    correlationId := none }

def buying : AggregatorSuccess := { side := .buy, confidence := 1, weights := ∅, dissent := [] }

def buyIntent : OrderIntent where
  intentId := 0
  decisionId := 0
  correlationId := .cycle 0
  symbol := "BTC"
  side := .buy
  quantity := 1
  limitPrice := some 100
  stopLoss := 99
  takeProfit := 102
  stateSnapshotId := 0
  experimentId := none
  revisionId := none

theorem opposingExit_holding (limits : RiskLimits) (n : ℕ) :
    RiskConfig.opposingExit buying.side (holding limits n).portfolio = false := by
  refine List.any_eq_false.mpr fun p hp => ?_
  rw [List.eq_of_mem_replicate hp]
  decide

/-- On `n` long positions the two limits say the same of a buy. -/
theorem LimitsAgree.holding (h : setup.LimitsAgree) (n : ℕ) :
    (n : ℤ) < setup.decisionEngine.risk.maxOpenPositions ↔
      (n : ℤ) < setup.limits.maxOpenPositions := by
  have hagree := h.openPositions buying buyIntent (RuntimeSetup.holding setup.limits n) rfl
    (opposingExit_holding setup.limits n)
  have hlen : (RuntimeSetup.holding setup.limits n).portfolio.openPositions.length = n :=
    List.length_replicate
  rwa [RiskConfig.maxOpenPositionsCheck_passed (opposingExit_holding setup.limits n),
    ExecutionRiskGate.rejectsPosition_iff, not_le, hlen] at hagree

/-- The two copies of the limits agree exactly if the engine configuration allows 3 open positions
and an exposure of 50 percent. -/
theorem limitsAgree_iff (h : setup.OnConfig) :
    setup.LimitsAgree ↔ setup.decisionEngine.risk.maxOpenPositions = 3 ∧
      setup.decisionEngine.risk.maxExposurePct = 50 := by
  obtain ⟨hpositions, hexposure⟩ := h.limits
  constructor
  · intro hagree
    have htwo := hagree.holding 2
    have hthree := hagree.holding 3
    rw [hpositions] at htwo hthree
    exact ⟨by omega, hagree.exposure.symm.trans hexposure⟩
  · rintro ⟨hconfig, hconfig'⟩
    refine ⟨fun aggregated intent snapshot hlimits hopposing => ?_, hexposure.trans hconfig'.symm⟩
    rw [RiskConfig.maxOpenPositionsCheck_passed hopposing, ExecutionRiskGate.rejectsPosition_iff,
      hlimits, hpositions, hconfig, not_le]

theorem limitsAgree_solo :
    (buildLiveStack .paper .solo { modelId := "no_cost" } .default 0).LimitsAgree :=
  (limitsAgree_iff (.live ..)).mpr ⟨rfl, rfl⟩

/-- The limits of the risk manager with five open positions allowed. -/
def fiveOpen : EngineConfig :=
  { EngineConfig.solo with risk := { EngineConfig.solo.risk with
      maxOpenPositions := 5, maxOpenPositions_nonneg := by decide } }

/-- With five positions allowed in the configuration, the gate of a live stack rejects the fourth,
which the risk manager passes. -/
theorem not_limitsAgree_fiveOpen :
    let setup := buildLiveStack .paper fiveOpen { modelId := "no_cost" } .default 0
    (setup.decisionEngine.risk.maxOpenPositionsCheck buying.side
        (holding setup.limits 3).portfolio).passed = true ∧
      ExecutionRiskGate.RejectsPosition buyIntent (holding setup.limits 3) ∧
      ¬ setup.LimitsAgree := by
  intro setup
  have hpassed : (setup.decisionEngine.risk.maxOpenPositionsCheck buying.side
      (holding setup.limits 3).portfolio).passed = true := by decide +kernel
  have hrejected : ExecutionRiskGate.RejectsPosition buyIntent (holding setup.limits 3) :=
    ExecutionRiskGate.rejectsPosition_iff.mpr (by decide +kernel)
  refine ⟨hpassed, hrejected, fun h => ?_⟩
  exact (h.openPositions buying buyIntent _ rfl (opposingExit_holding _ 3)).mp hpassed hrejected

end RuntimeSetup

end TradingPlatform
