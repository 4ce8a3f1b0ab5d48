import TradingPlatform.Execution.Positions
import TradingPlatform.Lib.Run
import TradingPlatform.State.Ledger

/-!
# An account fed by the simulated engine

A store that receives the transitions of `open_position`, `close_position`, of marking to market and
of the runtime's risk updates, in any order, together with the audit of the run. The equity identity
and the exposure identity are decided here: each holds along a run exactly when every close of the
run meets a condition on the state it is applied in.
-/

namespace TradingPlatform

/-! ## The transitions of a fill -/

namespace SimulatedExecutionEngine

open InMemoryStateStore

variable {engine : SimulatedExecutionEngine} {s : InMemoryStateStore} {order : Order}
  {quantity : ℚ} {side : Side} {positionSide : PositionSide} {stopLoss takeProfit : ℚ} {bar : Bar}
  {c : EventCtx} {causationId : Option ℕ} {next : Bool} {u : ℕ}

theorem openPosition_produced (fresh : engine.openedId u ∉ s.openIds) :
    Produced s (engine.openPosition order quantity side positionSide stopLoss takeProfit bar c
      causationId next u).1.transition.payload := by
  obtain ⟨fill, _, _, hpay⟩ := openPosition_payload engine order quantity side positionSide
    stopLoss takeProfit bar c causationId next u
  rw [hpay]
  exact .positionOpened fresh rfl

theorem closePosition_produced {p : PositionState} (hp : p ∈ s.portfolio.openPositions)
    {exitPrice : ℚ} {exitReason : ExitReason} :
    Produced s (engine.closePosition p exitPrice exitReason c u).1.transition.payload := by
  obtain ⟨fill, hfee, hprice, hpay⟩ := closePosition_payload engine c u p exitPrice exitReason
  rw [hpay, netPnl, ← hfee, ← hprice]
  exact .positionClosed hp

end SimulatedExecutionEngine

open SimulatedExecutionEngine

/-! ## The account -/

/-- The store, the engine that produces its transitions, the audit of the run and the next id. -/
structure SimulatedAccount where
  engine : SimulatedExecutionEngine
  stateStore : InMemoryStateStore
  audit : Audit := {}
  uuid : ℕ := 0
  deriving DecidableEq

/-- One transition to produce and apply. `closePosition` names an open position by its index; the
runtime's risk updates never set the exposure. -/
inductive AccountOp
  | openPosition (order : Order) (quantity : ℚ) (side : Side) (positionSide : PositionSide)
      (stopLoss takeProfit : ℚ) (bar : Bar) (c : EventCtx) (causationId : Option ℕ)
      (useNextOpen : Bool)
  | closePosition (index : ℕ) (exitPrice : ℚ) (exitReason : ExitReason) (c : EventCtx)
  | markToMarket (prices : List (String × ℚ)) (eventTime : ℤ) (correlationId : CorrelationId)
  | riskUpdated (updates : RiskUpdate) (eventTime : ℤ) (correlationId : CorrelationId)

namespace SimulatedAccount

/-- `apply_transition`, noted in the audit. -/
def applyTransition (a : SimulatedAccount) (event : StateTransitionEvent) : SimulatedAccount :=
  let ((stateStore, _), uuid) := (a.stateStore.applyTransition event).run a.uuid
  { a with stateStore, uuid, audit := a.audit.record a.stateStore event.payload }

/-- Apply the transition of a fill. -/
def applyFilled (a : SimulatedAccount) (filled : Filled × ℕ) : SimulatedAccount :=
  { a with engine := filled.1.engine, uuid := filled.2 }.applyTransition filled.1.transition

/-- The position an operation closes. -/
def closedBy (a : SimulatedAccount) : AccountOp → Option PositionState
  | .closePosition index .. => a.stateStore.portfolio.openPositions[index]?
  | _ => none

def step (a : SimulatedAccount) : AccountOp → SimulatedAccount
  | .openPosition order quantity side positionSide stopLoss takeProfit bar c causationId next =>
    a.applyFilled ((a.engine.openPosition order quantity side positionSide stopLoss takeProfit bar
      c causationId next).run a.uuid)
  | .closePosition index exitPrice exitReason c =>
    match a.stateStore.portfolio.openPositions[index]? with
    | none => a
    | some position =>
      a.applyFilled ((a.engine.closePosition position exitPrice exitReason c).run a.uuid)
  | .markToMarket prices eventTime correlationId =>
    { a with uuid := a.uuid + 1 }.applyTransition
      { transitionId := a.uuid, payload := .markToMarket prices, eventTime, correlationId }
  | .riskUpdated updates eventTime correlationId =>
    { a with uuid := a.uuid + 1 }.applyTransition
      { transitionId := a.uuid, eventTime, correlationId
        payload := .riskUpdated { updates with openExposurePct := none } }

/-- An account before any transition. -/
def start (engine : SimulatedExecutionEngine) (initialCash : ℚ) (limits : RiskLimits) (now : ℤ)
    (uuid : ℕ) : SimulatedAccount where
  engine := engine
  stateStore := .init initialCash limits now
  uuid := uuid

/-! ## Operations as audited transitions -/

/-- The store agrees with its audit, and no open position has an id still to be drawn. -/
structure Consistent (initialCash : ℚ) (a : SimulatedAccount) : Prop where
  audited : Audited initialCash a.stateStore a.audit
  drawn : ∀ id ∈ a.stateStore.openIds, id < a.uuid

variable {initialCash : ℚ} {a : SimulatedAccount} {op : AccountOp} {position : PositionState}

theorem Consistent.start (engine : SimulatedExecutionEngine) (initialCash : ℚ)
    (limits : RiskLimits) (now : ℤ) (uuid : ℕ) :
    Consistent initialCash (start engine initialCash limits now uuid) where
  audited := Audited.init initialCash limits now
  drawn := by
    intro id hid
    exact absurd hid List.not_mem_nil

/-- The operation applies the transition `t` and notes it in the audit. -/
structure Applies (a : SimulatedAccount) (op : AccountOp) (t : StateTransitionEvent) : Prop where
  produced : InMemoryStateStore.Produced a.stateStore t.payload
  stateStore : (a.step op).stateStore = a.stateStore.apply t
  audit : (a.step op).audit = a.audit.record a.stateStore t.payload
  drawn : ∀ id ∈ (a.step op).stateStore.openIds, id < (a.step op).uuid

theorem Consistent.applies (h : Consistent initialCash a) {t : StateTransitionEvent}
    (ht : Applies a op t) : Consistent initialCash (a.step op) where
  audited := by
    rw [ht.stateStore, ht.audit]
    exact h.audited.step ht.produced
  drawn := ht.drawn

section Operations

variable {order : Order} {quantity : ℚ} {side : Side} {positionSide : PositionSide}
  {stopLoss takeProfit : ℚ} {bar : Bar} {c : EventCtx} {causationId : Option ℕ} {next : Bool}
  {index : ℕ} {exitPrice : ℚ} {exitReason : ExitReason}

theorem applies_openPosition (h : Consistent initialCash a) : ∃ t p fill cost,
    t.payload = .positionOpened p fill cost ∧ Applies a (.openPosition order quantity side
      positionSide stopLoss takeProfit bar c causationId next) t := by
  let filled := (a.engine.openPosition order quantity side positionSide stopLoss takeProfit bar c
    causationId next).run a.uuid
  obtain ⟨fill, _, _, hpay⟩ := openPosition_payload a.engine order quantity side positionSide
    stopLoss takeProfit bar c causationId next a.uuid
  have hlt : a.engine.openedId a.uuid < filled.2 := openedId_lt
  have fresh : a.engine.openedId a.uuid ∉ a.stateStore.openIds := fun hid =>
    absurd (h.drawn _ hid) (not_lt.mpr le_openedId)
  refine ⟨filled.1.transition, _, fill, _, hpay, openPosition_produced fresh, rfl, rfl, ?_⟩
  intro id hid
  have hids : (a.stateStore.apply filled.1.transition).openIds =
      a.stateStore.openIds ++ [a.engine.openedId a.uuid] := by
    rw [InMemoryStateStore.apply_positionOpened (t := filled.1.transition) hpay]
    exact InMemoryStateStore.openIds_applyPositionOpened
  replace hid : id ∈ (a.stateStore.apply filled.1.transition).openIds := hid
  change id < filled.2 + 1
  rw [hids, List.mem_append, List.mem_singleton] at hid
  rcases hid with hid | rfl
  · have := h.drawn id hid
    have : a.uuid ≤ filled.2 := le_openPosition_uuid
    omega
  · omega

theorem applies_closePosition (h : Consistent initialCash a)
    (hp : a.stateStore.portfolio.openPositions[index]? = some position) : ∃ t fill pnl,
    t.payload = .positionClosed position.positionId fill pnl exitReason ∧
      Applies a (.closePosition index exitPrice exitReason c) t := by
  let filled := (a.engine.closePosition position exitPrice exitReason c).run a.uuid
  obtain ⟨fill, _, _, hpay⟩ := closePosition_payload a.engine c a.uuid position exitPrice
    exitReason
  have hstep : a.step (.closePosition index exitPrice exitReason c) = a.applyFilled filled := by
    simp only [step, hp]
    rfl
  refine ⟨filled.1.transition, fill, _, hpay,
    closePosition_produced (List.mem_of_getElem? hp), by rw [hstep]; rfl, by rw [hstep]; rfl, ?_⟩
  intro id hid
  have hsub : id ∈ a.stateStore.openIds := by
    rw [hstep] at hid
    change id ∈ (a.stateStore.apply filled.1.transition).openIds at hid
    rw [InMemoryStateStore.apply_positionClosed (t := filled.1.transition) hpay,
      InMemoryStateStore.openIds_applyPositionClosed] at hid
    exact List.mem_of_mem_filter hid
  have hle : a.uuid ≤ filled.2 := le_closePosition_uuid
  have := h.drawn id hsub
  rw [hstep]
  change id < filled.2 + 1
  omega

theorem applies_markToMarket (h : Consistent initialCash a) {prices : List (String × ℚ)}
    {eventTime : ℤ} {correlationId : CorrelationId} : ∃ t, t.payload = .markToMarket prices ∧
      Applies a (.markToMarket prices eventTime correlationId) t := by
  refine ⟨⟨a.uuid, .markToMarket prices, eventTime, correlationId⟩, rfl, .markToMarket, rfl, rfl,
    fun id hid => ?_⟩
  change id ∈ (a.stateStore.applyMarkToMarket eventTime prices).openIds at hid
  rw [InMemoryStateStore.openIds_applyMarkToMarket] at hid
  exact (h.drawn id hid).trans_le (Nat.le_add_right _ 2)

theorem applies_riskUpdated (h : Consistent initialCash a) {updates : RiskUpdate}
    {eventTime : ℤ} {correlationId : CorrelationId} : ∃ t u, t.payload = .riskUpdated u ∧
      Applies a (.riskUpdated updates eventTime correlationId) t :=
  ⟨⟨a.uuid, .riskUpdated { updates with openExposurePct := none }, eventTime, correlationId⟩, _,
    rfl, .riskUpdated rfl, rfl, rfl, fun id hid => (h.drawn id hid).trans_le (Nat.le_add_right _ 2)⟩

end Operations

/-- Every operation keeps the account consistent. -/
theorem Consistent.step (h : Consistent initialCash a) (op : AccountOp) :
    Consistent initialCash (a.step op) := by
  cases op with
  | openPosition =>
    obtain ⟨t, _, _, _, _, ht⟩ := applies_openPosition h
    exact h.applies ht
  | closePosition index exitPrice exitReason c =>
    cases hp : a.stateStore.portfolio.openPositions[index]? with
    | none => simpa only [SimulatedAccount.step, hp] using h
    | some position =>
      obtain ⟨t, _, _, _, ht⟩ := applies_closePosition h hp
      exact h.applies ht
  | markToMarket =>
    obtain ⟨t, _, ht⟩ := applies_markToMarket h
    exact h.applies ht
  | riskUpdated =>
    obtain ⟨t, _, _, ht⟩ := applies_riskUpdated h
    exact h.applies ht

/-! ## The equity identity along a run -/

/-- The operation marks to market or closes a position. -/
def Settles (a : SimulatedAccount) : AccountOp → Prop
  | .markToMarket .. => True
  | op => (a.closedBy op).isSome

instance (a : SimulatedAccount) : ∀ op, Decidable (a.Settles op)
  | .markToMarket .. => inferInstanceAs (Decidable True)
  | .openPosition .. | .closePosition .. | .riskUpdated .. =>
    inferInstanceAs (Decidable (_ = true))

/-- A mark or a close leaves the equity identity, and the equity equal to the cash when no position
is left open. -/
def SettlesEquity (a : SimulatedAccount) (op : AccountOp) : Prop :=
  a.Settles op → (a.step op).stateStore.EquityIdentity ∧
    ((a.step op).stateStore.portfolio.openPositions = [] →
      (a.step op).stateStore.portfolio.equity = (a.step op).stateStore.portfolio.cash)

instance (a : SimulatedAccount) (op : AccountOp) : Decidable (a.SettlesEquity op) :=
  inferInstanceAs (Decidable (_ → _))

/-- When the operation closes a position, its unrealised result cancels what the equity carries:
the entry fees charged since the last mark and the unrealised results of the positions closed since
then. -/
def CancelsCarried (a : SimulatedAccount) (op : AccountOp) : Prop :=
  ∀ p ∈ a.closedBy op, a.audit.carried + p.unrealizedPnl = 0

instance (a : SimulatedAccount) (op : AccountOp) : Decidable (a.CancelsCarried op) :=
  inferInstanceAs (Decidable (∀ p ∈ a.closedBy op, _))

theorem settlesEquity_iff_carried (h : Consistent initialCash (a.step op)) :
    a.SettlesEquity op ↔ (a.Settles op → (a.step op).audit.carried = 0) := by
  refine imp_congr_right fun _ => ?_
  rw [h.audited.equityIdentity_iff, and_iff_left_iff_imp]
  intro hcarried hnil
  have := h.audited.equity
  rwa [hnil, List.map_nil, List.sum_nil, hcarried, add_zero, add_zero] at this

theorem settlesEquity_iff (h : Consistent initialCash a) (op : AccountOp) :
    a.SettlesEquity op ↔ a.CancelsCarried op := by
  rw [settlesEquity_iff_carried (h.step op)]
  cases op with
  | openPosition => exact ⟨fun _ _ hp => (Option.not_mem_none _ hp).elim, fun _ hs => by cases hs⟩
  | closePosition index exitPrice exitReason c =>
    cases hp : a.stateStore.portfolio.openPositions[index]? with
    | none => simp [Settles, CancelsCarried, closedBy, hp]
    | some position =>
      obtain ⟨t, fill, pnl, hpay, ht⟩ := applies_closePosition h hp
      have hunreal := h.audited.unrealizedOf_eq (List.mem_of_getElem? hp)
      rw [ht.audit, hpay]
      simp [Settles, CancelsCarried, closedBy, hp, Audit.record, hunreal]
  | markToMarket =>
    obtain ⟨t, hpay, ht⟩ := applies_markToMarket h
    rw [ht.audit, hpay]
    exact ⟨fun _ _ hp => (Option.not_mem_none _ hp).elim, fun _ _ => rfl⟩
  | riskUpdated => exact ⟨fun _ _ hp => (Option.not_mem_none _ hp).elim, fun _ hs => by cases hs⟩

/-- The equity identity holds after every mark and every close of a run exactly when every close of
the run cancels what the equity carries. -/
theorem along_settlesEquity_iff (engine : SimulatedExecutionEngine) (initialCash : ℚ)
    (limits : RiskLimits) (now : ℤ) (uuid : ℕ) (ops : List AccountOp) :
    Run.Along step SettlesEquity (start engine initialCash limits now uuid) ops ↔
      Run.Along step CancelsCarried (start engine initialCash limits now uuid) ops :=
  Run.along_iff (I := Consistent initialCash) (fun _ op h _ _ => h.step op)
    (fun _ op h _ => settlesEquity_iff h op) (.start engine initialCash limits now uuid)
    Run.along_true

/-- One unit bought at `entry`, marked and closed at `exitPrice`. -/
def buyMarkClose (entry exitPrice : ℚ) : List AccountOp :=
  let c : EventCtx := {
    eventTime := 0, processingTime := 0, correlationId := .given "cycle", symbol := "BTC"
    timeframe := "1h", mode := .validation }
  [.openPosition { orderId := .ord 0, intentId := 0, submittedAt := 0 } 1 .buy .long 90 120
      { «open» := entry, high := entry, low := entry, close := entry, volume := 1 } c none false,
    .markToMarket [("BTC", exitPrice)] 1 (.given "cycle"),
    .closePosition 0 exitPrice .signal c]

/-- One unit bought at 100 without a fee, marked at 110 and closed at 110: the gain of 10 is in the
equity twice. -/
theorem not_settlesEquity_marked_gain :
    ¬ Run.Along step SettlesEquity
      (start { fillModel := { modelId := "zero_fee" }, config := {} } 10000 defaultLimits 0 0)
      (buyMarkClose 100 110) := by
  decide +kernel

/-! ## The exposure identity along a run -/

/-- After the operation the exposure is what the open positions added when they were opened, and 0
when none is open. -/
def LedgersExposure (a : SimulatedAccount) (op : AccountOp) : Prop :=
  (a.step op).stateStore.ExposureIdentity (a.step op).audit ∧
    ((a.step op).stateStore.portfolio.openPositions = [] →
      (a.step op).stateStore.risk.openExposurePct = 0)

instance (a : SimulatedAccount) (op : AccountOp) : Decidable (a.LedgersExposure op) :=
  inferInstanceAs (Decidable (_ ∧ _))

/-- When the operation closes a position, the close takes off what the opening added. -/
def ReleasesExposure (a : SimulatedAccount) (op : AccountOp) : Prop :=
  ∀ p ∈ a.closedBy op, a.audit.Releases a.stateStore p

instance (a : SimulatedAccount) (op : AccountOp) : Decidable (a.ReleasesExposure op) :=
  inferInstanceAs (Decidable (∀ p ∈ a.closedBy op, _))

theorem ledgersExposure_iff_identity (h : Consistent initialCash (a.step op)) :
    a.LedgersExposure op ↔ (a.step op).stateStore.ExposureIdentity (a.step op).audit := by
  refine and_iff_left_of_imp fun hexp hnil => ?_
  have hids := h.audited.ids
  rw [InMemoryStateStore.openIds, hnil, List.map_nil, List.map_eq_nil_iff] at hids
  have hexp : _ = ((a.step op).audit.contributions.map Prod.snd).sum := hexp
  rw [hexp, hids, List.map_nil, List.sum_nil]

theorem ledgersExposure_iff (h : Consistent initialCash a)
    (hexp : a.stateStore.ExposureIdentity a.audit) (op : AccountOp) :
    a.LedgersExposure op ↔ a.ReleasesExposure op := by
  rw [ledgersExposure_iff_identity (h.step op)]
  cases op with
  | openPosition =>
    obtain ⟨t, p, fill, cost, hpay, ht⟩ := applies_openPosition h
    rw [ht.stateStore, ht.audit, InMemoryStateStore.apply_positionOpened hpay, hpay]
    exact iff_of_true (hexp.opened _ _ _) fun _ hp => (Option.not_mem_none _ hp).elim
  | closePosition index exitPrice exitReason c =>
    cases hp : a.stateStore.portfolio.openPositions[index]? with
    | none => simpa [step, ReleasesExposure, closedBy, hp] using hexp
    | some position =>
      obtain ⟨t, fill, pnl, hpay, ht⟩ := applies_closePosition h hp
      rw [ht.stateStore, ht.audit, InMemoryStateStore.apply_positionClosed hpay, hpay,
        h.audited.exposureIdentity_closed hexp (List.mem_of_getElem? hp)]
      simp [ReleasesExposure, closedBy, hp]
  | markToMarket =>
    exact iff_of_true hexp fun _ hp => (Option.not_mem_none _ hp).elim
  | riskUpdated =>
    exact iff_of_true hexp fun _ hp => (Option.not_mem_none _ hp).elim

/-- The exposure identity holds after every transition of a run exactly when every close of the run
takes off what the opening of its position added. -/
theorem along_ledgersExposure_iff (engine : SimulatedExecutionEngine) (initialCash : ℚ)
    (limits : RiskLimits) (now : ℤ) (uuid : ℕ) (ops : List AccountOp) :
    Run.Along step LedgersExposure (start engine initialCash limits now uuid) ops ↔
      Run.Along step ReleasesExposure (start engine initialCash limits now uuid) ops := by
  refine Run.along_iff
    (I := fun a => Consistent initialCash a ∧ a.stateStore.ExposureIdentity a.audit)
    (D := fun _ _ => True) ?_ ?_ ⟨.start engine initialCash limits now uuid, rfl⟩ Run.along_true
  · rintro a op ⟨h, hexp⟩ _ hrel
    exact ⟨h.step op, ((ledgersExposure_iff h hexp op).mpr hrel).1⟩
  · rintro a op ⟨h, hexp⟩ _
    exact ledgersExposure_iff h hexp op

/-- The same run leaves exposure behind: the opening adds 1 percent of an equity of 10000, the close
takes off the share of an equity of 10010. -/
theorem not_ledgersExposure_marked_gain :
    ¬ Run.Along step LedgersExposure
      (start { fillModel := { modelId := "zero_fee" }, config := {} } 10000 defaultLimits 0 0)
      (buyMarkClose 100 110) := by
  decide +kernel

end SimulatedAccount

end TradingPlatform
