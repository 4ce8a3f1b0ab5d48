import TradingPlatform.Execution.Effects

/-!
# The events of the engine report its transitions

The engine returns its events and its transitions side by side. The `POSITION_OPENED` and
`POSITION_CLOSED` events of a pass report, in order, exactly the trades of its transitions, also
when the engine does not emit every event, and all events of a pass are of the time it was called
with.
-/

namespace TradingPlatform

/-- A position opened, or closed with its result. -/
inductive Trade
  | opened (positionId : ℕ) (position : PositionState)
  | closed (positionId : ℕ) (pnl : ℚ)
  deriving DecidableEq

def Payload.trade? : Payload → Option Trade
  | .positionOpened positionId _ position => some (.opened positionId position)
  | .positionClosed closed => some (.closed closed.positionId closed.pnl)
  | _ => none

def TransitionPayload.trade? : TransitionPayload → Option Trade
  | .positionOpened position _ _ => some (.opened position.positionId position)
  | .positionClosed positionId _ pnl _ => some (.closed positionId pnl)
  | _ => none

/-- The trades that events report. -/
def reportedTrades (events : List EventEnvelope) : List Trade :=
  events.filterMap (·.payload.trade?)

/-- The trades that transitions make. -/
def madeTrades (ts : List StateTransitionEvent) : List Trade := ts.filterMap (·.payload.trade?)

theorem reportedTrades_append {events events' : List EventEnvelope} :
    reportedTrades (events ++ events') = reportedTrades events ++ reportedTrades events' :=
  List.filterMap_append

theorem madeTrades_append {ts ts' : List StateTransitionEvent} :
    madeTrades (ts ++ ts') = madeTrades ts ++ madeTrades ts' := List.filterMap_append

/-- The events report the trades of the transitions in order, at the time `t`. -/
structure Reports (t : ℤ) (events : List EventEnvelope) (ts : List StateTransitionEvent) :
    Prop where
  trades : reportedTrades events = madeTrades ts
  times : ∀ e ∈ events, e.eventTime = t

namespace Reports

variable {t : ℤ} {events events' : List EventEnvelope} {ts ts' : List StateTransitionEvent}

theorem nil : Reports t [] [] := ⟨rfl, fun _ he => absurd he List.not_mem_nil⟩

theorem append (h : Reports t events ts) (h' : Reports t events' ts') :
    Reports t (events ++ events') (ts ++ ts') where
  trades := by rw [reportedTrades_append, madeTrades_append, h.trades, h'.trades]
  times e he := (List.mem_append.mp he).elim (h.times e) (h'.times e)

theorem silent (h : ∀ e ∈ events, e.payload.trade? = none ∧ e.eventTime = t) :
    Reports t events [] :=
  ⟨List.filterMap_eq_nil_iff.mpr fun e he => (h e he).1, fun e he => (h e he).2⟩

/-- Events that report no trade may be added. -/
theorem silent_append (h : Reports t events' ts)
    (hsilent : ∀ e ∈ events, e.payload.trade? = none ∧ e.eventTime = t) :
    Reports t (events ++ events') ts := (silent hsilent).append h

end Reports

abbrev Pass.Reported (t : ℤ) (pass : Pass) : Prop := Reports t pass.events pass.transitions

namespace SimulatedExecutionEngine

variable {engine : SimulatedExecutionEngine} {bar : Bar} {c : EventCtx} {u : ℕ} {t : ℤ}
  {events : List EventEnvelope} {ts : List StateTransitionEvent}

/-- An event that is not among the outcome types reports no trade. -/
theorem trade?_of_not_scoreOutcome {e : EventEnvelope} (h : e.eventType ∉ scoreOutcomeTypes) :
    e.payload.trade? = none := by
  unfold EventEnvelope.eventType at h
  cases hpay : e.payload with
  | positionOpened => exact absurd (by simp [hpay, Payload.eventType, scoreOutcomeTypes]) h
  | positionClosed => exact absurd (by simp [hpay, Payload.eventType, scoreOutcomeTypes]) h
  | _ => rfl

theorem reportedTrades_filterEvents :
    reportedTrades (engine.filterEvents events) = reportedTrades events := by
  unfold filterEvents
  split
  · rfl
  · unfold reportedTrades
    rw [List.filterMap_filter]
    refine List.filterMap_congr fun e _ => ?_
    by_cases h : e.eventType ∈ scoreOutcomeTypes
    · simp [h]
    · simp [h, trade?_of_not_scoreOutcome h]

theorem mem_of_mem_filterEvents {e : EventEnvelope} (h : e ∈ engine.filterEvents events) :
    e ∈ events := by
  unfold filterEvents at h
  split at h
  · exact h
  · exact (List.mem_filter.mp h).1

/-- Leaving out the events that are not of the outcome types loses no trade. -/
theorem reports_filterEvents (h : Reports t events ts) :
    Reports t (engine.filterEvents events) ts where
  trades := reportedTrades_filterEvents.trans h.trades
  times e he := h.times e (mem_of_mem_filterEvents he)

/-! ## Fills -/

theorem reports_openPosition {order : Order} {quantity : ℚ} {side : Side}
    {positionSide : PositionSide} {stopLoss takeProfit : ℚ} {causationId : Option ℕ}
    {useNextOpen : Bool} :
    (engine.openPosition order quantity side positionSide stopLoss takeProfit bar c causationId
      useNextOpen u).1.toPass.Reported c.eventTime := by
  unfold openPosition emitting
  cases engine.emitEvents
  · exact ⟨rfl, fun e he => by rw [List.mem_singleton.mp he]⟩
  · refine ⟨rfl, fun e he => ?_⟩
    rcases List.mem_cons.mp he with rfl | he
    · rfl
    · rw [List.mem_singleton.mp he]

theorem reports_closePosition {position : PositionState} {exitPrice : ℚ}
    {exitReason : ExitReason} :
    (engine.closePosition position exitPrice exitReason c u).1.toPass.Reported c.eventTime := by
  unfold closePosition emitting
  cases engine.emitEvents
  · exact ⟨rfl, fun e he => by rw [List.mem_singleton.mp he]⟩
  · refine ⟨rfl, fun e he => ?_⟩
    rcases List.mem_cons.mp he with rfl | he
    · rfl
    · rw [List.mem_singleton.mp he]

/-! ## Passes over the bar -/

theorem fillEntries_reported (bar : Bar) (c : EventCtx) (entries : List PendingEntry)
    (engine : SimulatedExecutionEngine) (u : ℕ) :
    (fillEntries bar c engine entries u).1.Reported c.eventTime := by
  induction entries generalizing engine u with
  | nil => exact .nil
  | cons pending rest ih =>
    by_cases hsym : pending.symbol = c.symbol
    · rw [fillEntries_cons_of_eq hsym]
      exact reports_openPosition.append (ih _ _)
    · rw [fillEntries_cons_of_ne hsym]
      exact ih engine u

theorem evaluatePositions_reported (bar : Bar) (c : EventCtx) (approvedSide : Option Side)
    (incrementBars : Bool) (positions : List PositionState) (engine : SimulatedExecutionEngine)
    (u : ℕ) :
    (evaluatePositions bar c approvedSide incrementBars engine positions u).1.Reported
      c.eventTime := by
  induction positions generalizing engine u with
  | nil => exact .nil
  | cons position rest ih =>
    by_cases hsym : position.symbol = c.symbol
    · cases hexit : (engine.countBar position incrementBars).checkExit position bar
          (engine.barsHeld position incrementBars) approvedSide incrementBars with
      | none =>
        rw [evaluatePositions_cons_of_none hsym hexit]
        exact ih _ u
      | some exit =>
        obtain ⟨exitReason, exitPrice⟩ := exit
        rw [evaluatePositions_cons_of_some hsym hexit]
        exact reports_closePosition.append (ih _ _)
    · rw [evaluatePositions_cons_of_ne hsym]
      exact ih engine u

theorem closeAll_reported (exitPrice : ℚ) (c : EventCtx) (positions : List PositionState)
    (engine : SimulatedExecutionEngine) (u : ℕ) :
    (closeAll exitPrice c engine positions u).1.Reported c.eventTime := by
  induction positions generalizing engine u with
  | nil => exact .nil
  | cons position rest ih =>
    by_cases hsym : position.symbol = c.symbol
    · rw [closeAll_cons_of_eq hsym]
      exact reports_closePosition.append (ih _ _)
    · rw [closeAll_cons_of_ne hsym]
      exact ih engine u

theorem evaluateBar_reported (bar : Bar) (snapshot : StateSnapshot) (c : EventCtx)
    (approvedSide : Option Side) (incrementBars : Bool) (engine : SimulatedExecutionEngine)
    (u : ℕ) :
    (engine.evaluateBar bar snapshot c approvedSide incrementBars u).1.Reported c.eventTime := by
  cases incrementBars with
  | false =>
    exact reports_filterEvents (Reports.nil.append (evaluatePositions_reported bar c approvedSide
      false snapshot.portfolio.openPositions engine u))
  | true =>
    have hfilled : (engine.processPendingEntries bar c u).1.Reported c.eventTime :=
      reports_filterEvents (fillEntries_reported bar c engine.pendingEntries engine u)
    exact reports_filterEvents (hfilled.append (evaluatePositions_reported bar c approvedSide true
      snapshot.portfolio.openPositions _ _))

/-! ## Orders -/

/-- An event that is emitted on demand and reports no trade. -/
theorem emitting_silent {payload : Payload} {cause : Option ℕ} (h : payload.trade? = none) :
    ∀ e ∈ ((engine.emitting (buildEnvelope c payload cause) u).1).toList,
      e.payload.trade? = none ∧ e.eventTime = c.eventTime := by
  unfold emitting
  cases engine.emitEvents
  · exact fun e he => absurd he List.not_mem_nil
  · intro e he
    rw [List.mem_singleton.mp he]
    exact ⟨h, rfl⟩

section Orders

variable {decision : Decision} {signal : FinalSignal} {intent : OrderIntent}
  {intentEvent : Option EventEnvelope} {snapshot : StateSnapshot}

theorem submitOrder_reported
    (hintent : ∀ e ∈ intentEvent.toList, e.payload.trade? = none ∧ e.eventTime = c.eventTime) :
    (engine.submitOrder decision signal intent bar c intentEvent u).1.Reported c.eventTime := by
  have hevents : ∀ {submitted acknowledged : List EventEnvelope},
      (∀ e ∈ submitted, e.payload.trade? = none ∧ e.eventTime = c.eventTime) →
      (∀ e ∈ acknowledged, e.payload.trade? = none ∧ e.eventTime = c.eventTime) →
      ∀ e ∈ intentEvent.toList ++ submitted ++ acknowledged,
        e.payload.trade? = none ∧ e.eventTime = c.eventTime := by
    intro submitted acknowledged hsubmitted hacknowledged e he
    rcases List.mem_append.mp he with he | he
    · exact (List.mem_append.mp he).elim (hintent e) (hsubmitted e)
    · exact hacknowledged e he
  unfold submitOrder
  by_cases hfill : engine.fillModel.fillAt = .nextOpen
  · simp only [hfill, if_true]
    exact reports_filterEvents (.silent (hevents (emitting_silent rfl) (emitting_silent rfl)))
  · simp only [hfill, if_false]
    exact reports_filterEvents (reports_openPosition.silent_append
      (hevents (emitting_silent rfl) (emitting_silent rfl)))

theorem gateOrder_reported {pass : Pass} {u' : ℕ}
    (hintent : ∀ e ∈ intentEvent.toList, e.payload.trade? = none ∧ e.eventTime = c.eventTime)
    (h : engine.gateOrder decision signal intent snapshot bar c intentEvent u = (.ok pass, u')) :
    pass.Reported c.eventTime := by
  cases hcheck : ExecutionRiskGate.check intent snapshot with
  | error e =>
    simp only [gateOrder, hcheck] at h
    cases h
  | ok r =>
    simp only [gateOrder, hcheck] at h
    by_cases hr : r.passed = true
    · simp only [hr, if_true] at h
      cases h
      exact submitOrder_reported hintent
    · simp only [hr] at h
      cases h
      refine reports_filterEvents (.silent fun e he => ?_)
      rcases List.mem_append.mp he with he | he
      · exact hintent e he
      · rw [List.mem_singleton.mp he]
        exact ⟨rfl, rfl⟩

/-- A pass of `execute` reports what it does, at the time it is given for the decision. -/
theorem execute_reported {pass : Pass} {u' : ℕ}
    (h : engine.execute decision snapshot bar c u = (.ok pass, u')) :
    pass.Reported c.eventTime := by
  cases happroved : decision.isApproved with
  | false =>
    simp only [execute, happroved] at h
    cases h
    exact .nil
  | true =>
    cases hsignal : decision.finalSignal with
    | none =>
      simp only [execute, happroved, hsignal] at h
      cases h
      exact .nil
    | some signal =>
      simp only [execute, happroved, hsignal] at h
      split at h
      · cases h
        exact .nil
      split at h
      · cases h
        refine reports_filterEvents (.silent fun e he => ?_)
        rw [List.mem_singleton.mp he]
        exact ⟨rfl, rfl⟩
      exact gateOrder_reported (emitting_silent rfl) h

end Orders

end SimulatedExecutionEngine

end TradingPlatform
