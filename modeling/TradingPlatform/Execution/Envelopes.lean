import TradingPlatform.Execution.Reports

/-!
# The envelopes of the engine

Every event that a pass of the engine returns is of the execution family and has the correlation id
the pass was called with, also the fill of an entry that an earlier cycle has queued.
-/

namespace TradingPlatform

variable {c : EventCtx} {events events' : List EventEnvelope}

/-- An execution event of the call `c`. -/
structure EventEnvelope.OfCall (c : EventCtx) (e : EventEnvelope) : Prop where
  correlationId : e.correlationId = c.correlationId
  family : e.eventFamily = .execution

/-- Every event is an execution event of the call. -/
def OfCall (c : EventCtx) (events : List EventEnvelope) : Prop := ∀ e ∈ events, e.OfCall c

namespace OfCall

theorem nil : OfCall c [] := fun _ he => absurd he List.not_mem_nil

theorem append (h : OfCall c events) (h' : OfCall c events') : OfCall c (events ++ events') :=
  fun e he => (List.mem_append.mp he).elim (h e) (h' e)

theorem envelope {payload : Payload} (h : payload.eventType.family = .execution)
    (cause : Option ℕ) (u : ℕ) : OfCall c [(buildEnvelope c payload cause u).1] := by
  intro e he
  rw [List.mem_singleton.mp he]
  exact ⟨rfl, h⟩

end OfCall

namespace SimulatedExecutionEngine

variable {engine : SimulatedExecutionEngine} {bar : Bar} {u : ℕ}

theorem ofCall_filterEvents (h : OfCall c events) : OfCall c (engine.filterEvents events) :=
  fun e he => h e (mem_of_mem_filterEvents he)

theorem ofCall_emitting {payload : Payload} {cause : Option ℕ}
    (h : payload.eventType.family = .execution) :
    OfCall c ((engine.emitting (buildEnvelope c payload cause) u).1).toList := by
  unfold emitting
  cases engine.emitEvents
  · exact .nil
  · exact .envelope h cause u

/-! ## Fills -/

theorem ofCall_openPosition {order : Order} {quantity : ℚ} {side : Side}
    {positionSide : PositionSide} {stopLoss takeProfit : ℚ} {causationId : Option ℕ}
    {useNextOpen : Bool} :
    OfCall c (engine.openPosition order quantity side positionSide stopLoss takeProfit bar c
      causationId useNextOpen u).1.events :=
  (ofCall_emitting rfl).append (.envelope rfl _ _)

theorem ofCall_closePosition {position : PositionState} {exitPrice : ℚ}
    {exitReason : ExitReason} :
    OfCall c (engine.closePosition position exitPrice exitReason c u).1.events :=
  (ofCall_emitting rfl).append (.envelope rfl _ _)

/-! ## Passes over the bar -/

theorem ofCall_fillEntries (entries : List PendingEntry) :
    OfCall c (fillEntries bar c engine entries u).1.events := by
  induction entries generalizing engine u with
  | nil => exact .nil
  | cons pending rest ih =>
    by_cases hsym : pending.symbol = c.symbol
    · rw [fillEntries_cons_of_eq hsym]
      exact ofCall_openPosition.append ih
    · rw [fillEntries_cons_of_ne hsym]
      exact ih

theorem ofCall_evaluatePositions {approvedSide : Option Side} {incrementBars : Bool}
    (positions : List PositionState) : OfCall c
      (evaluatePositions bar c approvedSide incrementBars engine positions u).1.events := by
  induction positions generalizing engine u with
  | nil => exact .nil
  | cons position rest ih =>
    by_cases hsym : position.symbol = c.symbol
    · cases hexit : (engine.countBar position incrementBars).checkExit position bar
          (engine.barsHeld position incrementBars) approvedSide incrementBars with
      | none =>
        rw [evaluatePositions_cons_of_none hsym hexit]
        exact ih
      | some exit =>
        rw [evaluatePositions_cons_of_some hsym hexit]
        exact ofCall_closePosition.append ih
    · rw [evaluatePositions_cons_of_ne hsym]
      exact ih

theorem ofCall_closeAll {exitPrice : ℚ} (positions : List PositionState) :
    OfCall c (closeAll exitPrice c engine positions u).1.events := by
  induction positions generalizing engine u with
  | nil => exact .nil
  | cons position rest ih =>
    by_cases hsym : position.symbol = c.symbol
    · rw [closeAll_cons_of_eq hsym]
      exact ofCall_closePosition.append ih
    · rw [closeAll_cons_of_ne hsym]
      exact ih

theorem ofCall_evaluateBar (snapshot : StateSnapshot) (approvedSide : Option Side)
    (incrementBars : Bool) : OfCall c
      (engine.evaluateBar bar snapshot c approvedSide incrementBars u).1.events := by
  cases incrementBars with
  | false => exact ofCall_filterEvents (OfCall.nil.append (ofCall_evaluatePositions _))
  | true =>
    have hfilled : OfCall c (engine.processPendingEntries bar c u).1.events :=
      ofCall_filterEvents (ofCall_fillEntries engine.pendingEntries)
    exact ofCall_filterEvents (hfilled.append (ofCall_evaluatePositions _))

/-! ## Orders -/

section Orders

variable {decision : Decision} {signal : FinalSignal} {intent : OrderIntent}
  {intentEvent : Option EventEnvelope} {snapshot : StateSnapshot} {pass : Pass} {u' : ℕ}

theorem ofCall_submitOrder (hintent : OfCall c intentEvent.toList) :
    OfCall c (engine.submitOrder decision signal intent bar c intentEvent u).1.events := by
  unfold submitOrder
  by_cases hfill : engine.fillModel.fillAt = .nextOpen
  · simp only [hfill, if_true]
    exact ofCall_filterEvents ((hintent.append (ofCall_emitting rfl)).append (ofCall_emitting rfl))
  · simp only [hfill, if_false]
    exact ofCall_filterEvents (((hintent.append (ofCall_emitting rfl)).append
      (ofCall_emitting rfl)).append ofCall_openPosition)

theorem ofCall_gateOrder (hintent : OfCall c intentEvent.toList)
    (h : engine.gateOrder decision signal intent snapshot bar c intentEvent u = (.ok pass, u')) :
    OfCall c pass.events := by
  cases hcheck : ExecutionRiskGate.check intent snapshot with
  | error e =>
    simp only [gateOrder, hcheck] at h
    cases h
  | ok r =>
    simp only [gateOrder, hcheck] at h
    by_cases hr : r.passed = true
    · simp only [hr, if_true] at h
      cases h
      exact ofCall_submitOrder hintent
    · simp only [hr] at h
      cases h
      exact ofCall_filterEvents (hintent.append (.envelope rfl _ _))

theorem ofCall_execute (h : engine.execute decision snapshot bar c u = (.ok pass, u')) :
    OfCall c pass.events := by
  cases happroved : decision.isApproved with
  | false =>
    simp only [execute, happroved] at h
    cases h
    exact .nil
  | true =>
    cases hsignal : decision.finalSignal with
    | none =>
      simp only [execute, happroved, hsignal] at h
      cases h
      exact .nil
    | some signal =>
      simp only [execute, happroved, hsignal] at h
      split at h
      · cases h
        exact .nil
      split at h
      · cases h
        exact ofCall_filterEvents (.envelope rfl _ _)
      exact ofCall_gateOrder (ofCall_emitting rfl) h

end Orders

end SimulatedExecutionEngine

end TradingPlatform
