import TradingPlatform.Execution.Effects

/-!
# The events that the engine builds

Every event of a pass is an envelope of the call, of one of the types that the pass is there for.
A pass over the bar builds fills and no orders; the execution of a decision builds an order intent,
a failure, or nothing at all, and which of them is settled before the risk gate is asked.
-/

namespace TradingPlatform

/-- The events are envelopes of the call `c` with payloads of these types. -/
def BuiltFor (c : EventCtx) (types : List EventType) (events : List EventEnvelope) : Prop :=
  ∀ e ∈ events, ∃ payload cause u, payload.eventType ∈ types ∧
    e = (buildEnvelope c payload cause u).1

namespace BuiltFor

variable {c : EventCtx} {types types' : List EventType} {events events' : List EventEnvelope}

theorem nil : BuiltFor c types [] := fun _ he => absurd he List.not_mem_nil

theorem append (h : BuiltFor c types events) (h' : BuiltFor c types events') :
    BuiltFor c types (events ++ events') :=
  fun e he => (List.mem_append.mp he).elim (h e) (h' e)

theorem mono (h : BuiltFor c types events) (hsub : types ⊆ types') : BuiltFor c types' events := by
  intro e he
  obtain ⟨payload, cause, u, htype, heq⟩ := h e he
  exact ⟨payload, cause, u, hsub htype, heq⟩

theorem envelope {payload : Payload} (h : payload.eventType ∈ types) (cause : Option ℕ) (u : ℕ) :
    BuiltFor c types [(buildEnvelope c payload cause u).1] := by
  intro e he
  exact ⟨payload, cause, u, h, List.mem_singleton.mp he⟩

theorem eventType (h : BuiltFor c types events) {e : EventEnvelope} (he : e ∈ events) :
    e.eventType ∈ types := by
  obtain ⟨payload, cause, u, htype, rfl⟩ := h e he
  exact htype

theorem times (h : BuiltFor c types events) {e : EventEnvelope} (he : e ∈ events) :
    e.eventTime = c.eventTime ∧ e.processingTime = c.processingTime := by
  obtain ⟨payload, cause, u, -, rfl⟩ := h e he
  exact ⟨rfl, rfl⟩

end BuiltFor

namespace SimulatedExecutionEngine

/-- The types of the events of a pass over the bar. -/
def barTypes : List EventType := [.fillReceived, .positionOpened, .positionClosed]

/-- The types of the events of an order that is submitted. -/
def submitTypes : List EventType :=
  [.orderSubmitted, .orderAcknowledged, .fillReceived, .positionOpened]

variable {engine : SimulatedExecutionEngine} {bar : Bar} {c : EventCtx} {u : ℕ}
  {types : List EventType} {events : List EventEnvelope}

theorem builtFor_filterEvents (h : BuiltFor c types events) :
    BuiltFor c types (engine.filterEvents events) := by
  unfold filterEvents
  split
  · exact h
  · exact fun e he => h e (List.mem_of_mem_filter he)

theorem builtFor_emitting {payload : Payload} {cause : Option ℕ}
    (h : payload.eventType ∈ types) :
    BuiltFor c types (engine.emitting (buildEnvelope c payload cause) u).1.toList := by
  unfold emitting
  cases engine.emitEvents
  · exact .nil
  · exact .envelope h cause u

theorem builtFor_openPosition {order : Order} {quantity : ℚ} {side : Side}
    {positionSide : PositionSide} {stopLoss takeProfit : ℚ} {causationId : Option ℕ}
    {useNextOpen : Bool} (hfill : .fillReceived ∈ types) (hopen : .positionOpened ∈ types) :
    BuiltFor c types (engine.openPosition order quantity side positionSide stopLoss takeProfit bar c
      causationId useNextOpen u).1.events :=
  (builtFor_emitting hfill).append (.envelope hopen _ _)

theorem builtFor_closePosition {position : PositionState} {exitPrice : ℚ}
    {exitReason : ExitReason} :
    BuiltFor c barTypes (engine.closePosition position exitPrice exitReason c u).1.events :=
  (builtFor_emitting (by simp [barTypes, Payload.eventType])).append
    (.envelope (by simp [barTypes, Payload.eventType]) _ _)

/-! ## Passes over the bar -/

theorem builtFor_fillEntries (entries : List PendingEntry) :
    BuiltFor c barTypes (fillEntries bar c engine entries u).1.events := by
  induction entries generalizing engine u with
  | nil => exact .nil
  | cons pending rest ih =>
    by_cases hsym : pending.symbol = c.symbol
    · rw [fillEntries_cons_of_eq hsym]
      refine BuiltFor.append ?_ ih
      exact builtFor_openPosition (by simp [barTypes]) (by simp [barTypes])
    · rw [fillEntries_cons_of_ne hsym]
      exact ih

theorem builtFor_evaluatePositions {approvedSide : Option Side} {incrementBars : Bool}
    (positions : List PositionState) : BuiltFor c barTypes
      (evaluatePositions bar c approvedSide incrementBars engine positions u).1.events := by
  induction positions generalizing engine u with
  | nil => exact .nil
  | cons position rest ih =>
    by_cases hsym : position.symbol = c.symbol
    · cases hexit : (engine.countBar position incrementBars).checkExit position bar
          (engine.barsHeld position incrementBars) approvedSide incrementBars with
      | none =>
        rw [evaluatePositions_cons_of_none hsym hexit]
        exact ih
      | some exit =>
        rw [evaluatePositions_cons_of_some hsym hexit]
        exact builtFor_closePosition.append ih
    · rw [evaluatePositions_cons_of_ne hsym]
      exact ih

theorem builtFor_evaluateBar (snapshot : StateSnapshot) (approvedSide : Option Side)
    (incrementBars : Bool) : BuiltFor c barTypes
      (engine.evaluateBar bar snapshot c approvedSide incrementBars u).1.events := by
  cases incrementBars with
  | false => exact builtFor_filterEvents (BuiltFor.nil.append (builtFor_evaluatePositions _))
  | true =>
    have hfilled : BuiltFor c barTypes (engine.processPendingEntries bar c u).1.events :=
      builtFor_filterEvents (builtFor_fillEntries engine.pendingEntries)
    exact builtFor_filterEvents (hfilled.append (builtFor_evaluatePositions _))

/-! ## Orders -/

section Orders

variable {decision : Decision} {signal : FinalSignal} {intent : OrderIntent}
  {intentEvent : Option EventEnvelope} {snapshot : StateSnapshot} {pass : Pass} {u' : ℕ}

/-- The types of the events of an order. -/
def orderTypes : List EventType := .orderIntentCreated :: .orderRejected :: submitTypes

theorem builtFor_submitOrder : ∃ events, BuiltFor c submitTypes events ∧
    (engine.submitOrder decision signal intent bar c intentEvent u).1.events =
      engine.filterEvents (intentEvent.toList ++ events) := by
  unfold submitOrder
  by_cases hfill : engine.fillModel.fillAt = .nextOpen
  · simp only [hfill, if_true]
    refine ⟨_, ?_, congrArg engine.filterEvents (List.append_assoc _ _ _)⟩
    exact (builtFor_emitting (by simp [submitTypes, Payload.eventType])).append
      (builtFor_emitting (by simp [submitTypes, Payload.eventType]))
  · simp only [hfill, if_false]
    refine ⟨_, ?_, congrArg engine.filterEvents
      (List.append_assoc _ _ _ |>.trans (List.append_assoc _ _ _))⟩
    refine BuiltFor.append ?_ (BuiltFor.append ?_ ?_)
    · exact builtFor_emitting (by simp [submitTypes, Payload.eventType])
    · exact builtFor_emitting (by simp [submitTypes, Payload.eventType])
    · exact builtFor_openPosition (by simp [submitTypes]) (by simp [submitTypes])

/-- Whatever the gate decides, the intent stays among the events. -/
theorem builtFor_gateOrder
    (h : engine.gateOrder decision signal intent snapshot bar c intentEvent u = (.ok pass, u')) :
    ∃ events, BuiltFor c (.orderRejected :: submitTypes) events ∧
      pass.events = engine.filterEvents (intentEvent.toList ++ events) := by
  cases hcheck : ExecutionRiskGate.check intent snapshot with
  | error e =>
    simp only [gateOrder, hcheck] at h
    cases h
  | ok r =>
    simp only [gateOrder, hcheck] at h
    by_cases hr : r.passed = true
    · simp only [hr, if_true] at h
      cases h
      obtain ⟨events, hbuilt, heq⟩ := @builtFor_submitOrder engine bar c u decision signal intent
        intentEvent
      exact ⟨events, hbuilt.mono (List.subset_cons_self _ _), heq⟩
    · simp only [hr] at h
      cases h
      exact ⟨_, .envelope List.mem_cons_self _ _, rfl⟩

/-- The order that an approved signal gets: none for a sale of a long-only book, else the size
computed for it. -/
def orderSize? (engine : SimulatedExecutionEngine) (snapshot : StateSnapshot)
    (signal : FinalSignal) : Option ℚ :=
  if engine.config.longOnly ∧ signal.side = .sell then none
  else some (engine.positionSize snapshot signal.entryPrice signal.stopLoss signal.sizeMultiplier)

/-- What `execute` builds: nothing without an order, a failure for an order without a size, and
for any other order an intent first. -/
inductive OrderEvents (engine : SimulatedExecutionEngine) (decision : Decision)
    (snapshot : StateSnapshot) (c : EventCtx) : List EventEnvelope → Prop
  | none (h : ∀ signal, decision.isApproved = true → decision.finalSignal = some signal →
      engine.orderSize? snapshot signal = none) : OrderEvents engine decision snapshot c []
  | failed {signal : FinalSignal} {quantity : ℚ} {u : ℕ} (happroved : decision.isApproved = true)
      (hsignal : decision.finalSignal = some signal)
      (hsize : engine.orderSize? snapshot signal = some quantity) (hle : quantity ≤ 0) :
      OrderEvents engine decision snapshot c
        (engine.filterEvents [(executionFailed c "invalid_position_size" "sizing" u).1])
  | placed {signal : FinalSignal} {quantity : ℚ} {intent : OrderIntent} {u : ℕ}
      {events : List EventEnvelope} (happroved : decision.isApproved = true)
      (hsignal : decision.finalSignal = some signal)
      (hsize : engine.orderSize? snapshot signal = some quantity) (hlt : 0 < quantity)
      (hbuilt : BuiltFor c (.orderRejected :: submitTypes) events) :
      OrderEvents engine decision snapshot c (engine.filterEvents
        ((engine.emitting (buildEnvelope c (.orderIntentCreated intent)) u).1.toList ++ events))

theorem orderEvents_execute (h : engine.execute decision snapshot bar c u = (.ok pass, u')) :
    OrderEvents engine decision snapshot c pass.events := by
  cases happroved : decision.isApproved with
  | false =>
    simp only [execute, happroved] at h
    cases h
    exact .none fun _ htrue => by rw [happroved] at htrue; cases htrue
  | true =>
    cases hsignal : decision.finalSignal with
    | none =>
      simp only [execute, happroved, hsignal] at h
      cases h
      exact .none fun _ _ hsome => by rw [hsignal] at hsome; cases hsome
    | some signal =>
      simp only [execute, happroved, hsignal] at h
      split at h
      · next hshort =>
        cases h
        refine .none fun signal' _ hsome => ?_
        obtain rfl : signal = signal' := Option.some.inj (hsignal.symm.trans hsome)
        exact if_pos hshort
      next hshort =>
      have hsize : engine.orderSize? snapshot signal = some (engine.positionSize snapshot
          signal.entryPrice signal.stopLoss signal.sizeMultiplier) := if_neg hshort
      split at h
      · next hle =>
        cases h
        exact .failed happroved hsignal hsize hle
      · next hlt =>
        obtain ⟨events, hbuilt, heq⟩ := builtFor_gateOrder h
        rw [heq]
        exact .placed happroved hsignal hsize (not_le.mp hlt) hbuilt

namespace OrderEvents

theorem builtFor (h : OrderEvents engine decision snapshot c events) :
    BuiltFor c (.executionFailed :: orderTypes) events := by
  cases h with
  | none => exact .nil
  | failed => exact builtFor_filterEvents (.envelope (by simp [Payload.eventType]) _ _)
  | placed _ _ _ _ hbuilt =>
    refine builtFor_filterEvents (BuiltFor.append ?_ (hbuilt.mono ?_))
    · exact builtFor_emitting (by simp [orderTypes, Payload.eventType])
    · exact List.subset_cons_of_subset _ (List.subset_cons_self _ _)

/-- An engine that keeps back its events keeps back the intents. -/
theorem not_intent (h : OrderEvents engine decision snapshot c events)
    (hemits : engine.emitEvents = false) : ∀ e ∈ events, e.eventType ≠ .orderIntentCreated := by
  have hkept : ∀ events, ∀ e ∈ engine.filterEvents events, e.eventType ≠ .orderIntentCreated := by
    intro events e he htype
    rw [filterEvents, hemits, if_neg Bool.false_ne_true] at he
    have hmem := of_decide_eq_true (List.mem_filter.mp he).2
    rw [htype] at hmem
    simp [scoreOutcomeTypes] at hmem
  cases h with
  | none => exact List.forall_mem_nil _
  | failed => exact hkept _
  | placed => exact hkept _

/-- Of an engine that emits events, an approved signal with an order has an intent among its
events unless its size has failed. -/
theorem intent_iff (h : OrderEvents engine decision snapshot c events)
    (hemits : engine.emitEvents = true) (happroved : decision.isApproved = true)
    {signal : FinalSignal} (hsignal : decision.finalSignal = some signal) :
    (∃ e ∈ events, e.eventType = .orderIntentCreated) ↔
      ¬ (engine.config.longOnly = true ∧ signal.side = .sell) ∧
      ∀ e ∈ events, e.eventType ≠ .executionFailed := by
  have hshort : ∀ {quantity : ℚ}, engine.orderSize? snapshot signal = some quantity →
      ¬ (engine.config.longOnly = true ∧ signal.side = .sell) := by
    intro quantity hsize hshort
    rw [orderSize?, if_pos hshort] at hsize
    cases hsize
  have hkeep : ∀ events, engine.filterEvents events = events := fun _ => if_pos hemits
  cases h with
  | none hnone =>
    have hsize := hnone signal happroved hsignal
    constructor
    · rintro ⟨e, he, -⟩
      cases he
    · rintro ⟨hlong, -⟩
      rw [orderSize?, if_neg hlong] at hsize
      cases hsize
  | failed _ _ _ _ =>
    rw [hkeep]
    constructor
    · rintro ⟨e, he, htype⟩
      rw [List.mem_singleton.mp he] at htype
      cases htype
    · rintro ⟨-, hfailed⟩
      exact absurd rfl (hfailed _ List.mem_cons_self)
  | @placed signal' _ intent u events _ hsignal' hsize _ hbuilt =>
    obtain rfl : signal' = signal := Option.some.inj (hsignal'.symm.trans hsignal)
    rw [hkeep, emitting, if_pos hemits]
    refine iff_of_true ⟨_, List.mem_cons_self, rfl⟩ ⟨hshort hsize, fun e he => ?_⟩
    rcases List.mem_append.mp he with he | he
    · rw [List.mem_singleton.mp he]
      exact fun htype => by cases htype
    · intro htype
      have hmem := hbuilt.eventType he
      rw [htype] at hmem
      simp [submitTypes] at hmem

end OrderEvents

end Orders

end SimulatedExecutionEngine

end TradingPlatform
