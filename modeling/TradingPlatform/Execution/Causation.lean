import TradingPlatform.Execution.Effects

/-!
# The causes of the events of the engine

Identifiers are drawn from one counter, so an event with a smaller identifier has been created
before one with a larger. In a list of traced events every cause is an event of the list that was
created before its effect. Each entry point of the engine extends a traced list to a traced list,
whether it emits every event or not; when it does not, no event of its own names a cause.
-/

namespace TradingPlatform

/-- A cause is one of the events; an engine that keeps back events names none. -/
structure Names (emits : Bool) (events : List EventEnvelope) (causationId : Option ℕ) : Prop where
  known : ∀ id, causationId = some id → ∃ e ∈ events, e.eventId = id
  silent : emits = false → causationId = none

/-- Events under identifiers from `u` up to `u'`, each with an earlier one as its cause, if any. -/
structure Traced (emits : Bool) (u u' : ℕ) (events : List EventEnvelope) : Prop where
  nodup : (events.map (·.eventId)).Nodup
  drawn : ∀ e ∈ events, u ≤ e.eventId ∧ e.eventId < u'
  names : ∀ e ∈ events, Names emits events e.causationId
  earlier : ∀ e ∈ events, ∀ id, e.causationId = some id → id < e.eventId

variable {emits : Bool} {events events' : List EventEnvelope} {u v u' u₁ u₂ : ℕ}
  {cause cause' : Option ℕ} {e : EventEnvelope}

namespace Names

theorem uncaused : Names emits events none where
  known _ hid := by cases hid
  silent _ := rfl

theorem mono (h : Names emits events cause) (hsub : events ⊆ events') :
    Names emits events' cause where
  known id hid :=
    have ⟨e, he, heq⟩ := h.known id hid
    ⟨e, hsub he, heq⟩
  silent := h.silent

theorem or (h : Names emits events cause) (h' : Names emits events cause') :
    Names emits events (cause.or cause') := by
  cases cause with
  | none => exact h'
  | some id => exact h

end Names

namespace Traced

theorem nil : Traced emits u u' [] where
  nodup := List.nodup_nil
  drawn _ he := absurd he List.not_mem_nil
  names _ he := absurd he List.not_mem_nil
  earlier _ he := absurd he List.not_mem_nil

theorem mono (h : Traced emits u u' events) (hu : u₁ ≤ u) (hu' : u' ≤ u₂) :
    Traced emits u₁ u₂ events :=
  { h with drawn := fun e he => ⟨hu.trans (h.drawn e he).1, (h.drawn e he).2.trans_le hu'⟩ }

theorem perm (h : Traced emits u u' events) (hperm : events'.Perm events) :
    Traced emits u u' events' where
  nodup := (hperm.map _).nodup_iff.mpr h.nodup
  drawn e he := h.drawn e (hperm.mem_iff.mp he)
  names e he := (h.names e (hperm.mem_iff.mp he)).mono hperm.symm.subset
  earlier e he := h.earlier e (hperm.mem_iff.mp he)

/-- An event under the next identifier, with an event of the list as its cause. -/
theorem concat (h : Traced emits u v events) (hu : u ≤ v) (hv : v ≤ e.eventId)
    (hlt : e.eventId < u') (hcause : Names emits events e.causationId) :
    Traced emits u u' (events ++ [e]) where
  nodup := by
    rw [List.map_append, List.map_singleton, ← List.concat_eq_append]
    refine h.nodup.concat fun hmem => ?_
    obtain ⟨d, hd, heq⟩ := List.mem_map.mp hmem
    have := (h.drawn d hd).2
    omega
  drawn d hd := by
    rcases List.mem_append.mp hd with hd | hd
    · have := h.drawn d hd
      omega
    · rw [List.mem_singleton.mp hd]
      omega
  names d hd := by
    refine Names.mono ?_ (List.subset_append_left events [e])
    rcases List.mem_append.mp hd with hd | hd
    · exact h.names d hd
    · rwa [List.mem_singleton.mp hd]
  earlier d hd id hid := by
    rcases List.mem_append.mp hd with hd | hd
    · exact h.earlier d hd id hid
    · rw [List.mem_singleton.mp hd] at hid ⊢
      obtain ⟨d', hd', rfl⟩ := hcause.known id hid
      exact (h.drawn d' hd').2.trans_le hv

theorem append (h : Traced emits u v events) (h' : Traced emits v u' events') (hu : u ≤ v)
    (hv : v ≤ u') : Traced emits u u' (events ++ events') where
  nodup := by
    rw [List.map_append]
    refine h.nodup.append h'.nodup fun id hid hid' => ?_
    obtain ⟨e, he, rfl⟩ := List.mem_map.mp hid
    obtain ⟨e', he', heq⟩ := List.mem_map.mp hid'
    have := (h.drawn e he).2
    have := (h'.drawn e' he').1
    omega
  drawn e he := by
    rcases List.mem_append.mp he with he | he
    · exact ⟨(h.drawn e he).1, (h.drawn e he).2.trans_le hv⟩
    · exact ⟨hu.trans (h'.drawn e he).1, (h'.drawn e he).2⟩
  names e he := by
    rcases List.mem_append.mp he with he | he
    · exact (h.names e he).mono (List.subset_append_left events events')
    · exact (h'.names e he).mono (List.subset_append_right events events')
  earlier e he := by
    rcases List.mem_append.mp he with he | he
    · exact h.earlier e he
    · exact h'.earlier e he

/-- Of the identifiers and the causes it does not matter what the engine keeps back. -/
theorem loud (h : Traced emits u u' events) : Traced true u u' events :=
  { h with names := fun e he => ⟨(h.names e he).known, fun hoff => by cases hoff⟩ }

/-- What an engine that keeps back events still returns names no cause. -/
theorem filter (h : Traced false u u' events) (p : EventEnvelope → Bool) :
    Traced false u u' (events.filter p) where
  nodup := h.nodup.sublist (List.filter_sublist.map _)
  drawn e he := h.drawn e (List.mem_of_mem_filter he)
  names e he := by
    rw [(h.names e (List.mem_of_mem_filter he)).silent rfl]
    exact .uncaused
  earlier e he := h.earlier e (List.mem_of_mem_filter he)

end Traced

namespace SimulatedExecutionEngine

variable {engine : SimulatedExecutionEngine} {bar : Bar} {c : EventCtx}

theorem traced_filterEvents (h : Traced engine.emitEvents u u' events) :
    Traced engine.emitEvents u u' (engine.filterEvents events) := by
  unfold filterEvents
  cases hemits : engine.emitEvents with
  | true =>
    rw [hemits] at h
    exact h
  | false =>
    rw [hemits] at h
    exact h.filter _

section Emitting

variable {payload : Payload}

theorem Traced.emitting (h : Traced engine.emitEvents u v events) (hu : u ≤ v)
    (hcause : Names engine.emitEvents events cause) :
    Traced engine.emitEvents u (engine.emitting (buildEnvelope c payload cause) v).2
      (events ++ (engine.emitting (buildEnvelope c payload cause) v).1.toList) := by
  unfold SimulatedExecutionEngine.emitting
  cases hemits : engine.emitEvents with
  | false =>
    rw [hemits] at h
    exact (List.append_nil events).symm ▸ h
  | true =>
    rw [hemits] at h hcause
    exact h.concat hu le_rfl (Nat.lt_succ_self v) hcause

/-- An event that has been emitted can be named as a cause. -/
theorem names_emitting : Names engine.emitEvents
    (events ++ (engine.emitting (buildEnvelope c payload cause) v).1.toList)
    ((engine.emitting (buildEnvelope c payload cause) v).1.map (·.eventId)) := by
  unfold emitting
  cases engine.emitEvents with
  | false => exact .uncaused
  | true =>
    refine ⟨fun id hid => ?_, fun h => by cases h⟩
    exact ⟨_, List.mem_append_right _ (List.mem_singleton_self _), Option.some.inj hid⟩

end Emitting

/-! ## Fills -/

/-- A fill event and the event it causes. -/
theorem traced_fill {payload payload' : Payload} {w : ℕ} (h : Traced engine.emitEvents u v events)
    (hu : u ≤ v) (hcause : Names engine.emitEvents events cause)
    (hw : (engine.emitting (buildEnvelope c payload cause) (v + 1)).2 ≤ w) :
    Traced engine.emitEvents u (w + 2) (events ++
      ((engine.emitting (buildEnvelope c payload cause) (v + 1)).1.toList ++
        [(buildEnvelope c payload' ((engine.emitting (buildEnvelope c payload cause)
          (v + 1)).1.map (·.eventId)) w).1])) := by
  have hdrawn := h.mono le_rfl (Nat.le_add_right v 1)
  have hle : u ≤ v + 1 := hu.trans (Nat.le_add_right v 1)
  rw [← List.append_assoc]
  apply (Traced.emitting hdrawn hle hcause).concat (hle.trans le_emitting_uuid) hw
  · exact Nat.lt_add_of_pos_right Nat.zero_lt_two
  · exact names_emitting

theorem traced_openPosition {order : Order} {quantity : ℚ} {side : Side}
    {positionSide : PositionSide} {stopLoss takeProfit : ℚ} {useNextOpen : Bool}
    (h : Traced engine.emitEvents u v events) (hu : u ≤ v)
    (hcause : Names engine.emitEvents events cause) :
    Traced engine.emitEvents u (engine.openPosition order quantity side positionSide stopLoss
        takeProfit bar c cause useNextOpen v).2
      (events ++ (engine.openPosition order quantity side positionSide stopLoss takeProfit bar c
        cause useNextOpen v).1.events) :=
  traced_fill h hu hcause (Nat.le_add_right _ 1)

theorem traced_closePosition {position : PositionState} {exitPrice : ℚ} {exitReason : ExitReason}
    (h : Traced engine.emitEvents u v events) (hu : u ≤ v) :
    Traced engine.emitEvents u (engine.closePosition position exitPrice exitReason c v).2
      (events ++ (engine.closePosition position exitPrice exitReason c v).1.events) :=
  traced_fill h hu .uncaused le_rfl

/-! ## Passes over the bar -/

theorem traced_fillEntries (entries : List PendingEntry)
    (h : Traced engine.emitEvents u v events) (hu : u ≤ v) :
    Traced engine.emitEvents u (fillEntries bar c engine entries v).2
      (events ++ (fillEntries bar c engine entries v).1.events) := by
  induction entries generalizing engine v events with
  | nil => exact (List.append_nil events).symm ▸ h
  | cons pending rest ih =>
    by_cases hsym : pending.symbol = c.symbol
    · have hqueue : SameQueue engine (engine.fillPending pending bar c v).1.engine :=
        sameQueue_openPosition
      have hfilled : Traced engine.emitEvents u (engine.fillPending pending bar c v).2
          (events ++ (engine.fillPending pending bar c v).1.events) :=
        traced_openPosition h hu .uncaused
      rw [← hqueue.emitEvents] at hfilled
      have hrest := ih hfilled (hu.trans le_openPosition_uuid)
      rw [List.append_assoc, hqueue.emitEvents] at hrest
      rw [fillEntries_cons_of_eq hsym]
      exact hrest
    · rw [fillEntries_cons_of_ne hsym]
      exact ih h hu

theorem traced_evaluatePositions {approvedSide : Option Side} {incrementBars : Bool}
    (positions : List PositionState) (h : Traced engine.emitEvents u v events) (hu : u ≤ v) :
    Traced engine.emitEvents u
      (evaluatePositions bar c approvedSide incrementBars engine positions v).2
      (events ++ (evaluatePositions bar c approvedSide incrementBars engine positions
        v).1.events) := by
  induction positions generalizing engine v events with
  | nil => exact (List.append_nil events).symm ▸ h
  | cons position rest ih =>
    by_cases hsym : position.symbol = c.symbol
    · have hcount : SameQueue engine (engine.countBar position incrementBars) := sameQueue_countBar
      rw [← hcount.emitEvents] at h ⊢
      cases hexit : (engine.countBar position incrementBars).checkExit position bar
          (engine.barsHeld position incrementBars) approvedSide incrementBars with
      | none =>
        rw [evaluatePositions_cons_of_none hsym hexit]
        exact ih h hu
      | some exit =>
        have hqueue : SameQueue (engine.countBar position incrementBars)
            ((engine.countBar position incrementBars).closePosition position exit.2 exit.1 c
              v).1.engine := sameQueue_closePosition
        have hclosed : Traced _ u ((engine.countBar position incrementBars).closePosition position
            exit.2 exit.1 c v).2 _ := traced_closePosition h hu
        rw [← hqueue.emitEvents] at hclosed
        have hrest := ih hclosed (hu.trans le_closePosition_uuid)
        rw [List.append_assoc, hqueue.emitEvents] at hrest
        rw [evaluatePositions_cons_of_some hsym hexit]
        exact hrest
    · rw [evaluatePositions_cons_of_ne hsym]
      exact ih h hu

theorem traced_evaluateBar (snapshot : StateSnapshot) (approvedSide : Option Side)
    (incrementBars : Bool) : Traced engine.emitEvents u
      (engine.evaluateBar bar snapshot c approvedSide incrementBars u).2
      (engine.evaluateBar bar snapshot c approvedSide incrementBars u).1.events := by
  cases incrementBars with
  | false => exact traced_filterEvents (traced_evaluatePositions _ .nil le_rfl)
  | true =>
    have hqueue := (processPendingEntries_spec bar c engine u).2.emitEvents
    have hle := (processPendingEntries_spec bar c engine u).1.le_uuid
    have hfilled : Traced engine.emitEvents u (engine.processPendingEntries bar c u).2
        (engine.processPendingEntries bar c u).1.events :=
      traced_filterEvents (traced_fillEntries engine.pendingEntries .nil le_rfl)
    rw [← hqueue] at hfilled
    refine traced_filterEvents (hqueue ▸ ?_)
    exact traced_evaluatePositions snapshot.portfolio.openPositions hfilled hle

/-! ## Orders -/

section Orders

variable {decision : Decision} {signal : FinalSignal} {intent : OrderIntent}
  {intentEvent : Option EventEnvelope} {snapshot : StateSnapshot} {pass : Pass}

theorem traced_submitOrder (h : Traced engine.emitEvents u v intentEvent.toList) (hu : u ≤ v)
    (hcause : Names engine.emitEvents intentEvent.toList (intentEvent.map (·.eventId))) :
    Traced engine.emitEvents u
      (engine.submitOrder decision signal intent bar c intentEvent v).2
      (engine.submitOrder decision signal intent bar c intentEvent v).1.events := by
  let order : Order :=
    { orderId := .ord v, intentId := intent.intentId, submittedAt := c.processingTime }
  let submitted := engine.emitting (buildEnvelope c (.orderSubmitted order decision.decisionId)
    (intentEvent.map (·.eventId))) (v + 1)
  let causationId := (submitted.1.map (·.eventId)).or (intentEvent.map (·.eventId))
  let acknowledged := engine.emitting (buildEnvelope c (.orderAcknowledged order.orderId)
    causationId) submitted.2
  have hv : u ≤ v + 1 := hu.trans (Nat.le_add_right v 1)
  have hsubmitted : Traced engine.emitEvents u submitted.2
      (intentEvent.toList ++ submitted.1.toList) :=
    Traced.emitting (h.mono le_rfl (Nat.le_add_right v 1)) hv hcause
  have hsubmit : Names engine.emitEvents (intentEvent.toList ++ submitted.1.toList) causationId :=
    names_emitting.or (hcause.mono (List.subset_append_left _ _))
  have hle : u ≤ submitted.2 := hv.trans le_emitting_uuid
  have hacknowledged : Traced engine.emitEvents u acknowledged.2
      (intentEvent.toList ++ submitted.1.toList ++ acknowledged.1.toList) :=
    Traced.emitting hsubmitted hle hsubmit
  have hack : Names engine.emitEvents
      (intentEvent.toList ++ submitted.1.toList ++ acknowledged.1.toList)
      ((acknowledged.1.map (·.eventId)).or causationId) :=
    names_emitting.or (hsubmit.mono (List.subset_append_left _ _))
  by_cases hfill : engine.fillModel.fillAt = .nextOpen
  · simp only [submitOrder, hfill, if_true]
    exact traced_filterEvents hacknowledged
  · simp only [submitOrder, hfill, if_false]
    exact traced_filterEvents (traced_openPosition hacknowledged (hle.trans le_emitting_uuid) hack)

theorem traced_gateOrder (hintent : Traced engine.emitEvents u v intentEvent.toList) (hu : u ≤ v)
    (hcause : Names engine.emitEvents intentEvent.toList (intentEvent.map (·.eventId)))
    (h : engine.gateOrder decision signal intent snapshot bar c intentEvent v = (.ok pass, u')) :
    Traced engine.emitEvents u u' pass.events := by
  cases hcheck : ExecutionRiskGate.check intent snapshot with
  | error e =>
    simp only [gateOrder, hcheck] at h
    cases h
  | ok r =>
    simp only [gateOrder, hcheck] at h
    cases hr : r.passed with
    | true =>
      simp only [hr, if_true] at h
      cases h
      exact traced_submitOrder hintent hu hcause
    | false =>
      simp only [hr] at h
      cases h
      exact traced_filterEvents (hintent.concat hu le_rfl (Nat.lt_succ_self v) hcause)

theorem traced_placeOrder {quantity : ℚ}
    (h : engine.placeOrder decision signal quantity snapshot bar c u = (.ok pass, u')) :
    Traced engine.emitEvents u u' pass.events := by
  let created := engine.emitting (buildEnvelope c
    (.orderIntentCreated (orderIntent u decision signal quantity snapshot c))) (u + 1)
  have hcreated : Traced engine.emitEvents u created.2 ([] ++ created.1.toList) :=
    Traced.emitting .nil (Nat.le_add_right u 1) .uncaused
  have hcause : Names engine.emitEvents ([] ++ created.1.toList) (created.1.map (·.eventId)) :=
    names_emitting
  exact traced_gateOrder hcreated ((Nat.le_add_right u 1).trans le_emitting_uuid) hcause h

theorem traced_execute (h : engine.execute decision snapshot bar c u = (.ok pass, u')) :
    Traced engine.emitEvents u u' pass.events := by
  cases happroved : decision.isApproved with
  | false =>
    simp only [execute, happroved] at h
    cases h
    exact .nil
  | true =>
    cases hsignal : decision.finalSignal with
    | none =>
      simp only [execute, happroved, hsignal] at h
      cases h
      exact .nil
    | some signal =>
      simp only [execute, happroved, hsignal] at h
      split at h
      · cases h
        exact .nil
      split at h
      · cases h
        exact traced_filterEvents
          (Traced.nil.concat le_rfl le_rfl (Nat.lt_succ_self u) .uncaused)
      exact traced_placeOrder h

end Orders

end SimulatedExecutionEngine

end TradingPlatform
