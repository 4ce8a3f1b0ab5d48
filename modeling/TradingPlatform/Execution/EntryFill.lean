import TradingPlatform.Engine.Decision
import TradingPlatform.Execution.Effects

/-!
# Filling an entry that the risk gate has passed

The gate checks an order at the price of its signal, against the state it is decided in. The fill
charges the price of a bar, moved by the slippage, plus the fee, to the state it is applied in. The
two meet the cash and the exposure limit together exactly when that charge is affordable.
-/

namespace TradingPlatform

/-! ## The price of an entry -/

namespace FillModel

/-- The price of the bar an entry starts from. -/
def basePrice (m : FillModel) (bar : Bar) : ℚ :=
  match m.fillAt with
  | .close => bar.close
  | .mid => (bar.high + bar.low) / 2
  | .nextOpen => bar.open

/-- The factor by which slippage moves the price against the order. -/
def slipFactor (m : FillModel) : Side → ℚ
  | .buy => 1 + m.slippageBps / 10000
  | .sell => 1 - m.slippageBps / 10000

/-- The capital that an entry of the given quantity locks. -/
def tradedValue (m : FillModel) (bar : Bar) (side : Side) (quantity : ℚ) : ℚ :=
  m.basePrice bar * m.slipFactor side * quantity

/-- The state can pay for an entry, fee included, and has room for its exposure. -/
structure Affordable (m : FillModel) (bar : Bar) (side : Side) (quantity : ℚ)
    (s : InMemoryStateStore) : Prop where
  cash : m.tradedValue bar side quantity * (1 + m.feeBps / 10000) ≤ s.portfolio.cash
  exposure : s.risk.openExposurePct + s.exposureOf (m.tradedValue bar side quantity) ≤
    s.risk.limits.maxExposurePct

end FillModel

/-- The cash is not negative and the exposure is within its limit. -/
structure InMemoryStateStore.Solvent (s : InMemoryStateStore) : Prop where
  cash : 0 ≤ s.portfolio.cash
  exposure : s.risk.openExposurePct ≤ s.risk.limits.maxExposurePct

instance (s : InMemoryStateStore) : Decidable s.Solvent :=
  decidable_of_iff (0 ≤ s.portfolio.cash ∧
    s.risk.openExposurePct ≤ s.risk.limits.maxExposurePct)
    ⟨fun h => ⟨h.1, h.2⟩, fun h => ⟨h.1, h.2⟩⟩

namespace SimulatedExecutionEngine

variable {engine : SimulatedExecutionEngine} {decision : Decision} {snapshot : StateSnapshot}
  {signal : FinalSignal} {s : InMemoryStateStore} {bar : Bar} {t : StateTransitionEvent}

theorem fillPrice_eq {side : Side} {next : Bool}
    (h : next = true → engine.fillModel.fillAt = .nextOpen) :
    engine.fillPrice bar side next =
      engine.fillModel.basePrice bar * engine.fillModel.slipFactor side := by
  cases hfill : engine.fillModel.fillAt <;> cases next <;> cases side <;>
    simp_all [fillPrice, FillModel.basePrice, FillModel.slipFactor]

/-- `t` opens the position of the order that `execute` submits for the decision on `snapshot`; it is
applied in state `s`, on the prices of `bar`. Without a queue the state is the one the gate has
seen. A queued order is filled by whatever engine state the runtime has reached, in any state. -/
inductive EntryFill (engine : SimulatedExecutionEngine) (decision : Decision)
    (snapshot : StateSnapshot) : InMemoryStateStore → Bar → StateTransitionEvent → Prop
  | atOnce {bar : Bar} {c : EventCtx} {u u' : ℕ} {pass : Pass} {t : StateTransitionEvent}
      (executed : engine.execute decision snapshot bar c u = (.ok pass, u'))
      (made : t ∈ pass.transitions) :
      EntryFill engine decision snapshot ⟨snapshot.portfolio, snapshot.risk⟩ bar t
  | nextBar {bar₀ bar : Bar} {c₀ c : EventCtx} {u₀ u₁ u : ℕ} {pass : Pass}
      {pending : PendingEntry} {later : SimulatedExecutionEngine} {s : InMemoryStateStore}
      (executed : engine.execute decision snapshot bar₀ c₀ u₀ = (.ok pass, u₁))
      (queued : pass.engine.pendingEntries = engine.pendingEntries ++ [pending])
      (sameModel : later.fillModel = engine.fillModel) :
      EntryFill engine decision snapshot s bar (later.fillPending pending bar c u).1.transition

/-- The transition opens a position that locks `value` and charges it with the fee of the model. -/
def OpensFor (m : FillModel) (value : ℚ) (t : StateTransitionEvent) : Prop :=
  ∃ p fill, p.notional = value ∧ fill.fee = value * m.feeBps / 10000 ∧
    t.payload = .positionOpened p fill (value + fill.fee)

theorem opensFor_openPosition {order : Order} {quantity : ℚ} {side : Side}
    {positionSide : PositionSide} {stopLoss takeProfit : ℚ} {c : EventCtx}
    {causationId : Option ℕ} {next : Bool} {u : ℕ}
    (h : next = true → engine.fillModel.fillAt = .nextOpen) :
    OpensFor engine.fillModel (engine.fillModel.tradedValue bar side quantity)
      (engine.openPosition order quantity side positionSide stopLoss takeProfit bar c causationId
        next u).1.transition := by
  obtain ⟨fill, hfee, _, hpay⟩ := openPosition_payload engine order quantity side
    positionSide stopLoss takeProfit bar c causationId next u
  rw [fillPrice_eq h] at hfee hpay
  exact ⟨_, fill, rfl, hfee, hpay⟩

/-- The transition of an entry opens a position of the size computed for the signal at the price of
the fill model. -/
theorem EntryFill.opensFor (h : EntryFill engine decision snapshot s bar t)
    (hsignal : decision.finalSignal = some signal) :
    OpensFor engine.fillModel (engine.fillModel.tradedValue bar signal.side (engine.positionSize
      snapshot signal.entryPrice signal.stopLoss signal.sizeMultiplier)) t := by
  cases h with
  | atOnce executed made =>
    rcases (execute_cases executed).2 _ rfl with ⟨hnone, _⟩ |
      ⟨signal', intent, event, r, u₁, _, _, hsignal', _, hquantity, _, _, _, hsubmit⟩
    · rw [hnone] at made
      exact absurd made List.not_mem_nil
    obtain rfl : signal' = signal := Option.some.inj (hsignal'.symm.trans hsignal)
    by_cases hfill : engine.fillModel.fillAt = .nextOpen
    · obtain ⟨_, htransitions, _⟩ :=
        submitOrder_queued bar _ u₁ decision signal' intent event hfill
      rw [← hsubmit] at htransitions
      rw [htransitions] at made
      exact absurd made List.not_mem_nil
    · obtain ⟨order, cause, u₂, _, htransitions, _⟩ :=
        submitOrder_filled bar _ u₁ decision signal' intent event hfill
      rw [← hsubmit] at htransitions
      rw [htransitions, List.mem_singleton] at made
      rw [made, ← hquantity]
      exact opensFor_openPosition (fun hnext => by cases hnext)
  | @nextBar _ _ _ _ _ _ _ pass pending later _ executed queued sameModel =>
    have hgrow : pass.engine.pendingEntries ≠ engine.pendingEntries := by
      rw [queued]
      simp
    rcases (execute_cases executed).2 _ rfl with ⟨_, hsame⟩ |
      ⟨signal', intent, event, r, u₂, _, _, hsignal', _, hquantity, _, _, _, hsubmit⟩
    · exact absurd (congrArg pendingEntries hsame) hgrow
    obtain rfl : signal' = signal := Option.some.inj (hsignal'.symm.trans hsignal)
    by_cases hfill : engine.fillModel.fillAt = .nextOpen
    · obtain ⟨pending', _, hengine, _, _, hq, hside, _⟩ :=
        submitOrder_queued _ _ _ decision signal' intent event hfill
      rw [← hsubmit] at hengine
      have hlast : engine.pendingEntries ++ [pending'] = engine.pendingEntries ++ [pending] :=
        (congrArg pendingEntries hengine).symm.trans queued
      obtain rfl : pending' = pending := by simpa using hlast
      rw [← hquantity, ← hq, ← hside, ← sameModel]
      exact opensFor_openPosition fun _ => sameModel ▸ hfill
    · obtain ⟨order, cause, u₃, _, _, hengine, _⟩ :=
        submitOrder_filled _ _ _ decision signal' intent event hfill
      rw [← hsubmit] at hengine
      exact absurd (congrArg pendingEntries hengine) hgrow

/-- The state after an entry that locks `value` is solvent exactly when it could pay for it. -/
theorem solvent_apply_iff {m : FillModel} {side : Side} {quantity : ℚ}
    (h : OpensFor m (m.tradedValue bar side quantity) t) :
    (s.apply t).Solvent ↔ m.Affordable bar side quantity s := by
  obtain ⟨p, fill, hnotional, hfee, hpay⟩ := h
  rw [InMemoryStateStore.apply_positionOpened hpay]
  constructor
  · rintro ⟨hcash, hexposure⟩
    refine ⟨?_, ?_⟩
    · change 0 ≤ s.portfolio.cash - _ at hcash
      rw [hfee] at hcash
      linarith
    · rw [← hnotional]
      exact hexposure
  · rintro ⟨hcash, hexposure⟩
    refine ⟨?_, ?_⟩
    · change 0 ≤ s.portfolio.cash - _
      rw [hfee]
      linarith
    · rw [← hnotional] at hexposure
      exact hexposure

/-- After its entry the portfolio of an approved order has its cash not negative and its exposure
within the limit exactly when the order's quantity, at the bar's price with slippage, is covered by
the cash, fee included, and by the exposure that is left. -/
theorem EntryFill.solvent_iff (h : EntryFill engine decision snapshot s bar t)
    (hsignal : decision.finalSignal = some signal) :
    (s.apply t).Solvent ↔ engine.fillModel.Affordable bar signal.side
      (engine.positionSize snapshot signal.entryPrice signal.stopLoss signal.sizeMultiplier) s :=
  solvent_apply_iff (h.opensFor hsignal)

/-! ## An entry that overdraws the cash -/

/-- The transitions of a call of `execute`. -/
def executed (engine : SimulatedExecutionEngine) (decision : Decision) (snapshot : StateSnapshot)
    (bar : Bar) (c : EventCtx) (u : ℕ) : List StateTransitionEvent :=
  match (engine.execute decision snapshot bar c u).1 with
  | .ok pass => pass.transitions
  | .error _ => []

theorem EntryFill.of_executed {c : EventCtx} {u : ℕ}
    (h : t ∈ engine.executed decision snapshot bar c u) :
    EntryFill engine decision snapshot ⟨snapshot.portfolio, snapshot.risk⟩ bar t := by
  unfold executed at h
  split at h
  · next pass hpass => exact .atOnce (Prod.ext hpass rfl) h
  · exact absurd h List.not_mem_nil

/-- An engine that puts the whole equity into a trade and pays a fee of 10 basis points. -/
def allInEngine : SimulatedExecutionEngine where
  fillModel := { modelId := "fee_10", feeBps := 10 }
  config := { ValidationExecutionConfig.default with
    exposurePctPerTrade := 100, exposurePctPerTrade_mem := by norm_num }

/-- A fresh portfolio of 10000 that may be fully invested. -/
def allInSnapshot : StateSnapshot :=
  let limits := { maxDailyDrawdownPct := 5, maxOpenPositions := 3, maxExposurePct := 100 }
  let s := InMemoryStateStore.init 10000 limits
  { snapshotId := 0, portfolio := s.portfolio, risk := s.risk, version := 1, correlationId := none }

/-- A bar that does not move. -/
def flatBar (price : ℚ) : Bar := ⟨price, price, price, price, 1⟩

/-- An approved decision to buy at 100. -/
def buyDecision : Decision where
  decisionId := 0
  result := .approved
  finalSignal := some {
    id := 1, symbol := "BTC", side := .buy, entryPrice := 100, stopLoss := 99, takeProfit := 102
    confidence := 1, riskReward := 2, timeframe := "1h", eventTime := 0, decisionTime := 0
    contributingProviders := [], stateSnapshotId := 0, revisionId := none, sizeMultiplier := 1 }
  decisionLog := EngineConfig.log
    { passed := true, reason := none, details := [] } []
    { method := "majority", side := .buy, confidence := 1, weights := ∅, dissent := [] }
    { passed := true, checks := [], stateSnapshotId := 0, riskStateVersion := 1 } allInSnapshot
  correlationId := .given "cycle"
  eventTime := 0
  decisionTime := 0
  revisionId := none
  experimentId := none

/-- The transition that opens the position of `buyDecision` at 100. -/
def allInEntry : StateTransitionEvent :=
  (allInEngine.executed buyDecision allInSnapshot (flatBar 100) {
    eventTime := 0, processingTime := 0, correlationId := .given "cycle", symbol := "BTC"
    timeframe := "1h", mode := .validation } 2).get ⟨0, by decide +kernel⟩

theorem entryFill_allIn : EntryFill allInEngine buyDecision allInSnapshot
    ⟨allInSnapshot.portfolio, allInSnapshot.risk⟩ (flatBar 100) allInEntry :=
  .of_executed (List.get_mem _ _)

/-- The gate passes the order of 100 units for the whole cash; the fee then takes it below 0. -/
theorem not_solvent_allIn : buyDecision.isApproved = true ∧ 0 ≤ allInSnapshot.portfolio.cash ∧
    EntryFill allInEngine buyDecision allInSnapshot
      ⟨allInSnapshot.portfolio, allInSnapshot.risk⟩ (flatBar 100) allInEntry ∧
    ¬ (InMemoryStateStore.apply ⟨allInSnapshot.portfolio, allInSnapshot.risk⟩ allInEntry).Solvent :=
  ⟨rfl, by decide +kernel, entryFill_allIn, by decide +kernel⟩

theorem solvent_iff_allIn :
    (InMemoryStateStore.apply ⟨allInSnapshot.portfolio, allInSnapshot.risk⟩ allInEntry).Solvent ↔
      allInEngine.fillModel.Affordable (flatBar 100) .buy
        (allInEngine.positionSize allInSnapshot 100 99 1)
        ⟨allInSnapshot.portfolio, allInSnapshot.risk⟩ :=
  EntryFill.solvent_iff entryFill_allIn rfl

end SimulatedExecutionEngine

end TradingPlatform
