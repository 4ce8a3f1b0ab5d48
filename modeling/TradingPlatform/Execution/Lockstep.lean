import TradingPlatform.Execution.Effects
import TradingPlatform.Lib.Lockstep

/-!
# Two engines in lockstep

Whether an engine emits every event decides how many identifiers it draws, so the positions of two
engines that differ in that flag have different ids. Under a renaming of the position ids the
engines make the same transitions and the same events of the outcome types, and stay in lockstep;
the other generated ids do not matter.
-/

namespace TradingPlatform

open SimulatedExecutionEngine (scoreOutcomeTypes)

/-! ## Records up to the ids of their positions -/

inductive SamePosition (ρ : Renaming) (p : PositionState) : PositionState → Prop
  | mk {id : ℕ} (positionId : ρ.rel p.positionId id) : SamePosition ρ p { p with positionId := id }

/-- The stores differ in the ids of the open positions at most. -/
inductive SameStore (ρ : Renaming) (s : InMemoryStateStore) : InMemoryStateStore → Prop
  | mk {positions : List PositionState}
      (openPositions : List.Forall₂ (SamePosition ρ) s.portfolio.openPositions positions) :
      SameStore ρ s ⟨{ s.portfolio with openPositions := positions }, s.risk⟩

inductive SameSnapshot (ρ : Renaming) (snapshot : StateSnapshot) : StateSnapshot → Prop
  | mk {id : ℕ} {positions : List PositionState}
      (openPositions : List.Forall₂ (SamePosition ρ) snapshot.portfolio.openPositions positions) :
      SameSnapshot ρ snapshot { snapshot with
        snapshotId := id
        portfolio := { snapshot.portfolio with openPositions := positions } }

inductive SameTransitionPayload (ρ : Renaming) : TransitionPayload → TransitionPayload → Prop
  | positionOpened {p p' : PositionState} (fill fill' : Fill) (cost : ℚ)
      (position : SamePosition ρ p p') :
      SameTransitionPayload ρ (.positionOpened p fill cost) (.positionOpened p' fill' cost)
  | positionClosed {id id' : ℕ} (fill fill' : Fill) (pnl : ℚ) (exitReason : ExitReason)
      (positionId : ρ.rel id id') :
      SameTransitionPayload ρ (.positionClosed id fill pnl exitReason)
        (.positionClosed id' fill' pnl exitReason)
  | riskUpdated (updates : RiskUpdate) :
      SameTransitionPayload ρ (.riskUpdated updates) (.riskUpdated updates)
  | markToMarket (prices : List (String × ℚ)) :
      SameTransitionPayload ρ (.markToMarket prices) (.markToMarket prices)

inductive SameTransition (ρ : Renaming) (t : StateTransitionEvent) : StateTransitionEvent → Prop
  | mk {id : ℕ} {payload : TransitionPayload}
      (samePayload : SameTransitionPayload ρ t.payload payload) :
      SameTransition ρ t { t with transitionId := id, payload := payload }

/-- Payloads of the outcome types, up to generated ids. -/
inductive SamePayload (ρ : Renaming) : Payload → Payload → Prop
  | positionOpened {id id' : ℕ} {p p' : PositionState} (fillId fillId' : ℕ)
      (positionId : ρ.rel id id') (position : SamePosition ρ p p') :
      SamePayload ρ (.positionOpened id fillId p) (.positionOpened id' fillId' p')
  | positionClosed {id : ℕ} (closed : ClosedPayload) (fillId : ℕ)
      (positionId : ρ.rel closed.positionId id) :
      SamePayload ρ (.positionClosed closed)
        (.positionClosed { closed with positionId := id, fillId := fillId })
  | orderRejected (reason : Option String) (stage : String) :
      SamePayload ρ (.orderRejected reason stage) (.orderRejected reason stage)

inductive SameEvent (ρ : Renaming) (e : EventEnvelope) : EventEnvelope → Prop
  | mk {id : ℕ} {cause : Option ℕ} {payload : Payload}
      (samePayload : SamePayload ρ e.payload payload) :
      SameEvent ρ e { e with eventId := id, causationId := cause, payload := payload }

/-- The `POSITION_OPENED`, `POSITION_CLOSED` and `ORDER_REJECTED` events. -/
def outcomeEvents (events : List EventEnvelope) : List EventEnvelope :=
  events.filter (·.eventType ∈ scoreOutcomeTypes)

/-- The same sequence of outcome events. -/
def SameEvents (ρ : Renaming) (events events' : List EventEnvelope) : Prop :=
  List.Forall₂ (SameEvent ρ) (outcomeEvents events) (outcomeEvents events')

/-- A queued entry up to the ids of its order. -/
inductive SameEntry (entry : PendingEntry) : PendingEntry → Prop
  | mk {order : Order} {intent : OrderIntent} :
      SameEntry entry { entry with order := order, intent := intent }

inductive SameSignal (signal : FinalSignal) : FinalSignal → Prop
  | mk {id snapshotId : ℕ} :
      SameSignal signal { signal with id := id, stateSnapshotId := snapshotId }

/-- The decisions have the same outcome. -/
structure SameDecision (decision decision' : Decision) : Prop where
  result : decision'.result = decision.result
  finalSignal : Option.Rel SameSignal decision.finalSignal decision'.finalSignal
  eventTime : decision'.eventTime = decision.eventTime

theorem SameDecision.isApproved {decision decision' : Decision}
    (h : SameDecision decision decision') : decision'.isApproved = decision.isApproved := by
  unfold Decision.isApproved
  rw [h.result]

/-- The engines fill alike, hold the same queue and have counted the same bars for each position. -/
structure SameEngine (ρ : Renaming) (engine engine' : SimulatedExecutionEngine) : Prop where
  fillModel : engine'.fillModel = engine.fillModel
  config : engine'.config = engine.config
  mode : engine'.mode = engine.mode
  positionBars : ∀ {a b}, ρ.rel a b → engine'.positionBars.getD b 0 = engine.positionBars.getD a 0
  pendingEntries : List.Forall₂ SameEntry engine.pendingEntries engine'.pendingEntries

structure SameEffects (ρ : Renaming) (pass pass' : Pass) : Prop where
  events : SameEvents ρ pass.events pass'.events
  transitions : List.Forall₂ (SameTransition ρ) pass.transitions pass'.transitions

structure SamePass (ρ : Renaming) (pass pass' : Pass) : Prop extends SameEffects ρ pass pass' where
  engine : SameEngine ρ pass.engine pass'.engine

/-! ## Extending the renaming -/

section Mono

variable {ρ σ : Renaming}

theorem SamePosition.mono {p p' : PositionState} (h : SamePosition ρ p p') (hle : ρ ≤ σ) :
    SamePosition σ p p' := by
  cases h with
  | mk positionId => exact ⟨hle positionId⟩

theorem SameStore.mono {s s' : InMemoryStateStore} (h : SameStore ρ s s') (hle : ρ ≤ σ) :
    SameStore σ s s' := by
  cases h with
  | mk openPositions => exact ⟨openPositions.imp fun _ _ h => h.mono hle⟩

theorem SameTransitionPayload.mono {payload payload' : TransitionPayload}
    (h : SameTransitionPayload ρ payload payload') (hle : ρ ≤ σ) :
    SameTransitionPayload σ payload payload' := by
  cases h with
  | positionOpened fill fill' cost position => exact .positionOpened _ _ _ (position.mono hle)
  | positionClosed fill fill' pnl reason positionId =>
    exact .positionClosed _ _ _ _ (hle positionId)
  | riskUpdated updates => exact .riskUpdated updates
  | markToMarket prices => exact .markToMarket prices

theorem SameTransition.mono {t t' : StateTransitionEvent} (h : SameTransition ρ t t')
    (hle : ρ ≤ σ) : SameTransition σ t t' := by
  cases h with
  | mk samePayload => exact ⟨samePayload.mono hle⟩

theorem SamePayload.mono {payload payload' : Payload} (h : SamePayload ρ payload payload')
    (hle : ρ ≤ σ) : SamePayload σ payload payload' := by
  cases h with
  | positionOpened fillId fillId' positionId position =>
    exact .positionOpened _ _ (hle positionId) (position.mono hle)
  | positionClosed closed fillId positionId => exact .positionClosed _ _ (hle positionId)
  | orderRejected reason stage => exact .orderRejected _ _

theorem SameEvent.mono {e e' : EventEnvelope} (h : SameEvent ρ e e') (hle : ρ ≤ σ) :
    SameEvent σ e e' := by
  cases h with
  | mk samePayload => exact ⟨samePayload.mono hle⟩

theorem SameEvents.mono {events events' : List EventEnvelope} (h : SameEvents ρ events events')
    (hle : ρ ≤ σ) : SameEvents σ events events' := h.imp fun _ _ h => h.mono hle

theorem SameEffects.mono {pass pass' : Pass} (h : SameEffects ρ pass pass') (hle : ρ ≤ σ) :
    SameEffects σ pass pass' :=
  ⟨h.events.mono hle, h.transitions.imp fun _ _ h => h.mono hle⟩

end Mono

/-! ## Applying transitions -/

section Store

variable {ρ : Renaming} {s s' : InMemoryStateStore} {t t' : StateTransitionEvent}

theorem SamePosition.positionId_rel {p p' : PositionState} (h : SamePosition ρ p p') :
    ρ.rel p.positionId p'.positionId := by
  obtain ⟨positionId⟩ := h
  exact positionId

theorem SamePosition.symbol_eq {p p' : PositionState} (h : SamePosition ρ p p') :
    p'.symbol = p.symbol := by
  obtain ⟨_⟩ := h
  rfl

theorem SamePosition.revalue {prices : List (String × ℚ)} {p p' : PositionState}
    (h : SamePosition ρ p p') :
    SamePosition ρ (InMemoryStateStore.revalue prices p)
      (InMemoryStateStore.revalue prices p') := by
  obtain ⟨positionId⟩ := h
  cases hlookup : prices.lookup p.symbol with
  | none =>
    simp only [InMemoryStateStore.revalue, hlookup]
    exact ⟨positionId⟩
  | some price =>
    simp only [InMemoryStateStore.revalue, hlookup]
    exact ⟨positionId⟩

/-- The positions of a portfolio are worth the same under other ids. -/
theorem SamePosition.sum_eq {ps ps' : List PositionState}
    (h : List.Forall₂ (SamePosition ρ) ps ps') :
    (ps'.map fun p => p.notional + p.unrealizedPnl).sum =
      (ps.map fun p => p.notional + p.unrealizedPnl).sum := by
  induction h with
  | nil => rfl
  | cons hp _ ih =>
    obtain ⟨positionId⟩ := hp
    rw [List.map_cons, List.map_cons, List.sum_cons, List.sum_cons, ih]
    rfl

/-- A transition keeps the stores the same. -/
theorem SameStore.apply (h : SameStore ρ s s') (ht : SameTransition ρ t t') :
    SameStore ρ (s.apply t) (s'.apply t') := by
  obtain ⟨openPositions⟩ := h
  obtain ⟨transitionId, payload, eventTime, correlationId⟩ := t
  obtain ⟨samePayload⟩ := ht
  cases samePayload with
  | positionOpened fill fill' cost position =>
    obtain ⟨positionId⟩ := position
    exact ⟨List.rel_append openPositions (.cons ⟨positionId⟩ .nil)⟩
  | positionClosed fill fill' pnl reason positionId =>
    have hrel : ∀ p p', SamePosition ρ p p' → ρ.rel p.positionId p'.positionId :=
      fun _ _ h => h.positionId_rel
    have hremaining := Renaming.filter_ne hrel positionId openPositions
    have hclosed := Renaming.find?_eq hrel positionId openPositions
    simp only [InMemoryStateStore.apply, InMemoryStateStore.applyPositionClosed]
    generalize s.portfolio.openPositions.find? _ = closed at hclosed ⊢
    generalize List.find? _ _ = closed' at hclosed ⊢
    cases hclosed with
    | none => exact ⟨hremaining⟩
    | some hposition =>
      obtain ⟨_⟩ := hposition
      exact ⟨hremaining⟩
  | riskUpdated updates => exact ⟨openPositions⟩
  | markToMarket prices =>
    have hvalued : List.Forall₂ (SamePosition ρ) (List.map (InMemoryStateStore.revalue prices) _)
        (List.map (InMemoryStateStore.revalue prices) _) :=
      List.rel_map (fun _ _ h => h.revalue) openPositions
    simp only [InMemoryStateStore.apply, InMemoryStateStore.applyMarkToMarket,
      SamePosition.sum_eq hvalued]
    exact ⟨hvalued⟩

end Store

/-! ## Events -/

section Events

variable {ρ : Renaming} {events events' : List EventEnvelope} {c : EventCtx}

theorem outcomeEvents_append : outcomeEvents (events ++ events') =
    outcomeEvents events ++ outcomeEvents events' := List.filter_append ..

theorem SameEvents.append {later later' : List EventEnvelope} (h : SameEvents ρ events events')
    (hlater : SameEvents ρ later later') :
    SameEvents ρ (events ++ later) (events' ++ later') := by
  unfold SameEvents
  rw [outcomeEvents_append, outcomeEvents_append]
  exact List.rel_append h hlater

/-- Events of other types do not matter. -/
theorem SameEvents.of_silent (h : outcomeEvents events = []) (h' : outcomeEvents events' = []) :
    SameEvents ρ events events' := by
  unfold SameEvents
  rw [h, h']
  exact .nil

theorem outcomeEvents_filterEvents (engine : SimulatedExecutionEngine) :
    outcomeEvents (engine.filterEvents events) = outcomeEvents events := by
  unfold SimulatedExecutionEngine.filterEvents outcomeEvents
  split
  · rfl
  · rw [List.filter_filter]
    simp

theorem SameEvents.filterEvents (h : SameEvents ρ events events')
    (engine engine' : SimulatedExecutionEngine) :
    SameEvents ρ (engine.filterEvents events) (engine'.filterEvents events') := by
  unfold SameEvents
  rw [outcomeEvents_filterEvents, outcomeEvents_filterEvents]
  exact h

theorem SamePayload.eventType_eq {payload payload' : Payload} (h : SamePayload ρ payload payload') :
    payload'.eventType = payload.eventType := by cases h <;> rfl

theorem SamePayload.mem_outcomeTypes {payload payload' : Payload}
    (h : SamePayload ρ payload payload') : payload.eventType ∈ scoreOutcomeTypes := by
  cases h <;> simp [Payload.eventType, scoreOutcomeTypes]

theorem outcomeEvents_singleton {e : EventEnvelope} (h : e.eventType ∉ scoreOutcomeTypes) :
    outcomeEvents [e] = [] := by simpa [outcomeEvents] using h

theorem sameEvents_singleton {payload payload' : Payload} (h : SamePayload ρ payload payload')
    {cause cause' : Option ℕ} {u u' : ℕ} :
    SameEvents ρ [(buildEnvelope c payload cause u).1]
      [(buildEnvelope c payload' cause' u').1] := by
  have hmem := h.mem_outcomeTypes
  have hmem' : payload'.eventType ∈ scoreOutcomeTypes := h.eventType_eq ▸ hmem
  simp only [SameEvents, outcomeEvents, EventEnvelope.eventType, buildEnvelope_payload, hmem, hmem',
    decide_true, List.filter_cons_of_pos, List.filter_nil]
  exact .cons ⟨h⟩ .nil

end Events

/-! ## Passes -/

section Passes

variable {ρ σ : Renaming} {pass pass' rest rest' : Pass}

theorem SameEffects.append (h : SameEffects ρ pass pass') (hrest : SamePass ρ rest rest') :
    SamePass ρ (pass.append rest) (pass'.append rest') where
  events := h.events.append hrest.events
  transitions := List.rel_append h.transitions hrest.transitions
  engine := hrest.engine

theorem SameTransition.of_payload {t t' : StateTransitionEvent}
    (h : SameTransitionPayload ρ t.payload t'.payload) (htime : t'.eventTime = t.eventTime)
    (hcorrelation : t'.correlationId = t.correlationId) : SameTransition ρ t t' := by
  obtain ⟨_, payload, eventTime, correlationId⟩ := t'
  obtain rfl := htime
  obtain rfl := hcorrelation
  exact ⟨h⟩

/-- A step of the engines that changes the bars they have counted. -/
theorem SameEngine.of_queue {engine engine' next next' : SimulatedExecutionEngine}
    (h : SameEngine ρ engine engine') (hnext : engine.SameQueue next)
    (hnext' : engine'.SameQueue next')
    (hbars : ∀ {a b}, σ.rel a b → next'.positionBars.getD b 0 = next.positionBars.getD a 0) :
    SameEngine σ next next' where
  fillModel := by rw [hnext'.fillModel, h.fillModel, hnext.fillModel]
  config := by rw [hnext'.config, h.config, hnext.config]
  mode := by rw [hnext'.mode, h.mode, hnext.mode]
  positionBars := hbars
  pendingEntries := by
    rw [hnext'.pendingEntries, hnext.pendingEntries]
    exact h.pendingEntries

theorem SameEngine.fillPrice_eq {engine engine' : SimulatedExecutionEngine}
    (h : SameEngine ρ engine engine') (bar : Bar) (side : Side) (next : Bool) :
    engine'.fillPrice bar side next = engine.fillPrice bar side next := by
  unfold SimulatedExecutionEngine.fillPrice
  rw [h.fillModel]

theorem SameEngine.fee_eq {engine engine' : SimulatedExecutionEngine}
    (h : SameEngine ρ engine engine') (price quantity : ℚ) :
    engine'.fee price quantity = engine.fee price quantity := by
  unfold SimulatedExecutionEngine.fee
  rw [h.fillModel]

theorem SameEngine.idle {engine engine' : SimulatedExecutionEngine}
    (h : SameEngine ρ engine engine') : SamePass ρ { engine } { engine := engine' } :=
  ⟨⟨.of_silent rfl rfl, .nil⟩, h⟩

end Passes

namespace SimulatedExecutionEngine

variable {ρ : Renaming} {engine engine' : SimulatedExecutionEngine} {bar : Bar} {c : EventCtx}

/-- An event that is not of the outcome types, emitted or not. -/
theorem lockstep_emitting {payload payload' : Payload} {cause cause' : Option ℕ}
    (eventType : EventType) (h : payload.eventType = eventType)
    (h' : payload'.eventType = eventType) (hout : eventType ∉ scoreOutcomeTypes) :
    Lockstep ρ
      (fun σ e e' => σ = ρ ∧ outcomeEvents e.toList = [] ∧ outcomeEvents e'.toList = [])
      (engine.emitting (buildEnvelope c payload cause))
      (engine'.emitting (buildEnvelope c payload' cause')) := by
  have hsilent : ∀ (engine : SimulatedExecutionEngine) {payload : Payload} {cause : Option ℕ}
      (u : ℕ), payload.eventType = eventType →
      outcomeEvents (engine.emitting (buildEnvelope c payload cause) u).1.toList = [] := by
    intro engine payload cause u hpay
    unfold emitting
    cases engine.emitEvents
    · rfl
    · rw [← hpay] at hout
      exact outcomeEvents_singleton hout
  exact .free (fun _ => le_emitting_uuid) (fun _ => le_emitting_uuid)
    fun u u' => ⟨rfl, hsilent engine u h, hsilent engine' u' h'⟩

/-- An id that needs no partner. -/
theorem lockstep_uuid4 : Lockstep ρ (fun σ _ _ => σ = ρ) uuid4 uuid4 :=
  .free (Nat.le_add_right · 1) (Nat.le_add_right · 1) fun _ _ => rfl

/-! ## Fills -/

section Fills

variable {order order' : Order} {quantity : ℚ} {side : Side} {positionSide : PositionSide}
  {stopLoss takeProfit exitPrice : ℚ} {cause cause' : Option ℕ} {next : Bool}
  {position position' : PositionState} {reason : ExitReason}

/-- The one outcome event of an opening. -/
theorem outcomeEvents_openPosition (engine : SimulatedExecutionEngine) (u : ℕ) : ∃ fillId cause' v,
    outcomeEvents (engine.openPosition order quantity side positionSide stopLoss takeProfit bar c
      cause next u).1.events = outcomeEvents [(buildEnvelope c (.positionOpened (engine.openedId u)
        fillId (entryPosition (engine.openedId u) quantity (engine.fillPrice bar side next)
          positionSide stopLoss takeProfit c)) cause' v).1] := by
  unfold openedId openPosition emitting
  cases engine.emitEvents <;> exact ⟨_, _, _, rfl⟩

/-- Both engines open the position, under ids of their own. -/
theorem lockstep_openPosition (h : SameEngine ρ engine engine') :
    Lockstep ρ (fun σ filled filled' => SamePass σ filled.toPass filled'.toPass)
      (engine.openPosition order quantity side positionSide stopLoss takeProfit bar c cause next)
      (engine'.openPosition order' quantity side positionSide stopLoss takeProfit bar c cause'
        next) := by
  intro u u' hbelow
  have hle : u ≤ engine.openedId u := le_openedId
  have hle' : u' ≤ engine'.openedId u' := le_openedId
  have hadds := Renaming.adds_extend hbelow hle hle'
  generalize hσ : ρ.extend hbelow hle hle' = σ at hadds
  have hbelowσ := hσ ▸ Renaming.below_extend hbelow hle hle'
  have hprice : engine'.fillPrice bar side next = engine.fillPrice bar side next :=
    h.fillPrice_eq bar side next
  have hposition : SamePosition σ (entryPosition (engine.openedId u) quantity
      (engine.fillPrice bar side next) positionSide stopLoss takeProfit c)
      (entryPosition (engine'.openedId u') quantity
        (engine'.fillPrice bar side next) positionSide stopLoss takeProfit c) := by
    rw [hprice]
    exact ⟨hadds.pair⟩
  refine ⟨σ, hadds.le, hbelowσ.mono openedId_lt openedId_lt, ⟨?_, ?_⟩, ?_⟩
  · obtain ⟨fillId, cause₁, v, hevents⟩ := outcomeEvents_openPosition engine u
    obtain ⟨fillId', cause₁', v', hevents'⟩ := outcomeEvents_openPosition engine' u'
    change List.Forall₂ _ (outcomeEvents (Filled.events _)) (outcomeEvents (Filled.events _))
    rw [hevents, hevents']
    exact sameEvents_singleton (.positionOpened _ _ hadds.pair hposition)
  · obtain ⟨fill, hfee, _, hpay⟩ := openPosition_payload engine order quantity side positionSide
      stopLoss takeProfit bar c cause next u
    obtain ⟨fill', hfee', _, hpay'⟩ := openPosition_payload engine' order' quantity side
      positionSide stopLoss takeProfit bar c cause' next u'
    have hcost : engine'.fillPrice bar side next * quantity + fill'.fee =
        engine.fillPrice bar side next * quantity + fill.fee := by
      rw [hfee, hfee', hprice, h.fee_eq]
    refine .cons (.of_payload ?_ rfl rfl) .nil
    rw [hpay, hpay', hcost]
    exact .positionOpened _ _ _ hposition
  · have hqueue : SameQueue engine (engine.openPosition order quantity side positionSide stopLoss
        takeProfit bar c cause next u).1.engine := sameQueue_openPosition
    have hqueue' : SameQueue engine' (engine'.openPosition order' quantity side positionSide
        stopLoss takeProfit bar c cause' next u').1.engine := sameQueue_openPosition
    refine h.of_queue hqueue hqueue' fun {a b} hab => ?_
    change Dict.getD (Filled.engine _).positionBars b 0 =
      Dict.getD (Filled.engine _).positionBars a 0
    rw [positionBars_openPosition, positionBars_openPosition]
    have hiff := σ.eq_iff hadds.pair hab
    by_cases ha : engine.openedId u = a
    · obtain rfl := ha
      obtain rfl := hiff.mp rfl
      simp [Dict.getD]
    · have hold := (hadds.only hab).resolve_right fun hnew => ha hnew.1.symm
      simpa [Dict.getD, Dict.get?_set_of_ne ha, Dict.get?_set_of_ne (mt hiff.mpr ha)] using
        h.positionBars hold

/-- The one outcome event of a closing. -/
theorem outcomeEvents_closePosition (engine : SimulatedExecutionEngine) (u : ℕ) :
    ∃ fillId cause' v,
    outcomeEvents (engine.closePosition position exitPrice reason c u).1.events =
      outcomeEvents [(buildEnvelope c (.positionClosed {
        exitPrice, fillId
        exitReason := reason
        pnl := engine.netPnl position exitPrice
        positionId := position.positionId
        entryPrice := position.entryPrice
        side := position.side
        quantity := position.quantity
        stopLoss := position.stopLoss
        takeProfit := position.takeProfit
        barsHeld := engine.positionBars.getD position.positionId 0 }) cause' v).1] := by
  unfold closePosition emitting
  cases engine.emitEvents <;> exact ⟨_, _, _, rfl⟩

theorem positionBars_closePosition (engine : SimulatedExecutionEngine) (u : ℕ) :
    (engine.closePosition position exitPrice reason c u).1.engine.positionBars =
      engine.positionBars.erase position.positionId := by
  unfold closePosition emitting
  cases engine.emitEvents <;> rfl

/-- Both engines close the position. -/
theorem lockstep_closePosition (h : SameEngine ρ engine engine')
    (hp : SamePosition ρ position position') :
    Lockstep ρ (fun σ filled filled' => SamePass σ filled.toPass filled'.toPass)
      (engine.closePosition position exitPrice reason c)
      (engine'.closePosition position' exitPrice reason c) := by
  refine .free (fun _ => le_closePosition_uuid) (fun _ => le_closePosition_uuid) fun u u' => ?_
  obtain ⟨hid⟩ := hp
  rename_i id
  have hpnl : engine'.netPnl { position with positionId := id } exitPrice =
      engine.netPnl position exitPrice :=
    congrArg (position.grossPnl exitPrice - ·) (h.fee_eq exitPrice position.quantity)
  refine ⟨⟨?_, ?_⟩, ?_⟩
  · obtain ⟨fillId, cause₁, v, hevents⟩ := outcomeEvents_closePosition engine u
    obtain ⟨fillId', cause₁', v', hevents'⟩ := outcomeEvents_closePosition engine' u'
    change List.Forall₂ _ (outcomeEvents (Filled.events _)) (outcomeEvents (Filled.events _))
    rw [hevents, hevents', hpnl, h.positionBars hid]
    exact sameEvents_singleton (.positionClosed _ _ hid)
  · obtain ⟨fill, _, _, hpay⟩ := closePosition_payload engine c u position exitPrice reason
    obtain ⟨fill', _, _, hpay'⟩ :=
      closePosition_payload engine' c u' { position with positionId := id }
      exitPrice reason
    refine .cons (.of_payload ?_ rfl rfl) .nil
    rw [hpay, hpay', hpnl]
    exact .positionClosed _ _ _ _ hid
  · have hqueue : SameQueue engine (engine.closePosition position exitPrice reason c u).1.engine :=
      sameQueue_closePosition
    have hqueue' : SameQueue engine' (engine'.closePosition { position with positionId := id }
        exitPrice reason c u').1.engine := sameQueue_closePosition
    refine h.of_queue hqueue hqueue' fun {a b} hab => ?_
    change Dict.getD (Filled.engine _).positionBars b 0 =
      Dict.getD (Filled.engine _).positionBars a 0
    rw [positionBars_closePosition, positionBars_closePosition]
    have hiff := ρ.eq_iff hid hab
    by_cases ha : position.positionId = a
    · obtain rfl := ha
      obtain rfl := hiff.mp rfl
      simp [Dict.getD]
    · simpa [Dict.getD, Dict.get?_erase_of_ne ha, Dict.get?_erase_of_ne (mt hiff.mpr ha)] using
        h.positionBars hab

end Fills

/-! ## Passes over the bar -/

/-- The effects of a fill, then what follows it. -/
theorem lockstep_append {filled filled' : Filled} {rest rest' : StateM ℕ Pass}
    (h : SameEffects ρ filled.toPass filled'.toPass) (hrest : Lockstep ρ SamePass rest rest') :
    Lockstep ρ SamePass (do return filled.toPass.append (← rest))
      (do return filled'.toPass.append (← rest')) :=
  hrest.bind fun _ _ _ hle hpass => .pure ((h.mono hle).append hpass)

theorem lockstep_fillEntries {entries entries' : List PendingEntry}
    (h : SameEngine ρ engine engine') (hentries : List.Forall₂ SameEntry entries entries') :
    Lockstep ρ SamePass (fillEntries bar c engine entries)
      (fillEntries bar c engine' entries') := by
  induction hentries generalizing ρ engine engine' with
  | nil => exact .pure h.idle
  | @cons pending _ rest rest' hpending _ ih =>
    obtain ⟨⟩ := hpending
    unfold fillEntries
    by_cases hsym : pending.symbol = c.symbol
    · simp only [hsym, ne_eq, not_true, if_false]
      exact (lockstep_openPosition h).bind fun σ _ _ _ hfilled =>
        lockstep_append hfilled.toSameEffects (ih hfilled.engine)
    · simp only [hsym, ne_eq, not_false_iff, if_true]
      exact ih h

theorem lockstep_processPendingEntries (h : SameEngine ρ engine engine') :
    Lockstep ρ SamePass (engine.processPendingEntries bar c)
      (engine'.processPendingEntries bar c) := by
  refine (lockstep_fillEntries h h.pendingEntries).bind fun σ pass pass' _ hpass => .pure ?_
  have hqueue : List.Forall₂ SameEntry (engine.pendingEntries.filter (·.symbol ≠ c.symbol))
      (engine'.pendingEntries.filter (·.symbol ≠ c.symbol)) :=
    List.rel_filter (fun _ _ ⟨⟩ => Iff.rfl) h.pendingEntries
  exact ⟨⟨hpass.events.filterEvents engine engine', hpass.transitions⟩,
    { hpass.engine with pendingEntries := hqueue }⟩

theorem SameEngine.barsHeld_eq {position position' : PositionState} {incrementBars : Bool}
    (h : SameEngine ρ engine engine') (hp : SamePosition ρ position position') :
    engine'.barsHeld position' incrementBars = engine.barsHeld position incrementBars := by
  unfold barsHeld
  rw [h.positionBars hp.positionId_rel]

theorem SameEngine.checkExit_eq {position position' : PositionState} {barsHeld : ℕ}
    {approvedSide : Option Side} {checkTimeout : Bool} (h : SameEngine ρ engine engine')
    (hp : SamePosition ρ position position') :
    engine'.checkExit position' bar barsHeld approvedSide checkTimeout =
      engine.checkExit position bar barsHeld approvedSide checkTimeout := by
  obtain ⟨_⟩ := hp
  unfold checkExit
  rw [h.config]
  rfl

theorem SameEngine.countBar {position position' : PositionState} {incrementBars : Bool}
    (h : SameEngine ρ engine engine') (hp : SamePosition ρ position position') :
    SameEngine ρ (engine.countBar position incrementBars)
      (engine'.countBar position' incrementBars) := by
  refine h.of_queue sameQueue_countBar sameQueue_countBar fun {a b} hab => ?_
  have hheld : engine'.barsHeld position' true = engine.barsHeld position true :=
    SameEngine.barsHeld_eq h hp
  have hiff := ρ.eq_iff hp.positionId_rel hab
  cases incrementBars with
  | false => exact h.positionBars hab
  | true =>
    by_cases ha : position.positionId = a
    · simp [SimulatedExecutionEngine.countBar, Dict.getD, ha, hiff.mp ha, hheld]
    · simpa [SimulatedExecutionEngine.countBar, Dict.getD, Dict.get?_set_of_ne ha,
        Dict.get?_set_of_ne (mt hiff.mpr ha)] using h.positionBars hab

theorem lockstep_evaluatePositions {positions positions' : List PositionState}
    {approvedSide : Option Side} {incrementBars : Bool} (h : SameEngine ρ engine engine')
    (hpositions : List.Forall₂ (SamePosition ρ) positions positions') :
    Lockstep ρ SamePass (evaluatePositions bar c approvedSide incrementBars engine positions)
      (evaluatePositions bar c approvedSide incrementBars engine' positions') := by
  induction positions generalizing ρ engine engine' positions' with
  | nil =>
    cases hpositions
    exact .pure h.idle
  | cons position rest ih =>
    cases hpositions with
    | cons hp hrest =>
    have hcount : SameEngine ρ (engine.countBar position incrementBars)
        (engine'.countBar _ incrementBars) := SameEngine.countBar h hp
    unfold evaluatePositions
    rw [hp.symbol_eq]
    by_cases hsym : position.symbol = c.symbol
    · simp only [hsym, ne_eq, not_true, if_false]
      rw [SameEngine.barsHeld_eq h hp, SameEngine.checkExit_eq hcount hp]
      cases (engine.countBar position incrementBars).checkExit position bar
          (engine.barsHeld position incrementBars) approvedSide incrementBars with
      | none => exact ih hcount hrest
      | some exit =>
        exact (lockstep_closePosition hcount hp).bind fun σ _ _ hle hfilled =>
          lockstep_append hfilled.toSameEffects
            (ih hfilled.engine (hrest.imp fun _ _ h => h.mono hle))
    · simp only [hsym, ne_eq, not_false_iff, if_true]
      exact ih h hrest

/-- The exits of `evaluate_bar`, after the queued entries. -/
theorem lockstep_exits {snapshot snapshot' : StateSnapshot} {approvedSide : Option Side}
    {incrementBars : Bool} {pending pending' : Pass} (h : SamePass ρ pending pending')
    (hsnapshot : SameSnapshot ρ snapshot snapshot') :
    Lockstep ρ SamePass
      (do
        let exits ← evaluatePositions bar c approvedSide incrementBars pending.engine
          snapshot.portfolio.openPositions
        let pass := pending.append exits
        return { pass with events := engine.filterEvents pass.events })
      (do
        let exits ← evaluatePositions bar c approvedSide incrementBars pending'.engine
          snapshot'.portfolio.openPositions
        let pass := pending'.append exits
        return { pass with events := engine'.filterEvents pass.events }) := by
  obtain ⟨openPositions⟩ := hsnapshot
  refine (lockstep_evaluatePositions h.engine openPositions).bind fun σ exits exits' hle hexits =>
    .pure ?_
  have hboth := (h.toSameEffects.mono hle).append hexits
  exact ⟨⟨hboth.events.filterEvents engine engine', hboth.transitions⟩, hboth.engine⟩

theorem SameSnapshot.mono {σ : Renaming} {snapshot snapshot' : StateSnapshot}
    (h : SameSnapshot ρ snapshot snapshot') (hle : ρ ≤ σ) : SameSnapshot σ snapshot snapshot' := by
  cases h with
  | mk openPositions => exact ⟨openPositions.imp fun _ _ h => h.mono hle⟩

theorem lockstep_evaluateBar {snapshot snapshot' : StateSnapshot} {approvedSide : Option Side}
    {incrementBars : Bool} (h : SameEngine ρ engine engine')
    (hsnapshot : SameSnapshot ρ snapshot snapshot') :
    Lockstep ρ SamePass (engine.evaluateBar bar snapshot c approvedSide incrementBars)
      (engine'.evaluateBar bar snapshot' c approvedSide incrementBars) := by
  cases incrementBars with
  | false => exact lockstep_exits h.idle hsnapshot
  | true =>
    exact (lockstep_processPendingEntries h).bind fun σ _ _ hle hpass =>
      lockstep_exits hpass (SameSnapshot.mono hsnapshot hle)

theorem lockstep_closeAll {positions positions' : List PositionState} {exitPrice : ℚ}
    (h : SameEngine ρ engine engine')
    (hpositions : List.Forall₂ (SamePosition ρ) positions positions') :
    Lockstep ρ SamePass (closeAll exitPrice c engine positions)
      (closeAll exitPrice c engine' positions') := by
  induction positions generalizing ρ engine engine' positions' with
  | nil =>
    cases hpositions
    exact .pure h.idle
  | cons position rest ih =>
    cases hpositions with
    | cons hp hrest =>
    unfold closeAll
    rw [hp.symbol_eq]
    by_cases hsym : position.symbol = c.symbol
    · simp only [hsym, ne_eq, not_true, if_false]
      exact (lockstep_closePosition h hp).bind fun σ _ _ hle hfilled =>
        lockstep_append hfilled.toSameEffects
          (ih hfilled.engine (hrest.imp fun _ _ h => h.mono hle))
    · simp only [hsym, ne_eq, not_false_iff, if_true]
      exact ih h hrest

theorem lockstep_liquidateOpenPositions (bar : Bar) (c : EventCtx)
    {snapshot snapshot' : StateSnapshot} (h : SameEngine ρ engine engine')
    (hsnapshot : SameSnapshot ρ snapshot snapshot') :
    Lockstep ρ SamePass (engine.liquidateOpenPositions bar snapshot c)
      (engine'.liquidateOpenPositions bar snapshot' c) := by
  obtain ⟨openPositions⟩ := hsnapshot
  exact lockstep_closeAll h openPositions

/-! ## Orders -/

section Orders

variable {decision decision' : Decision} {signal signal' : FinalSignal}
  {intent intent' : OrderIntent} {intentEvent intentEvent' : Option EventEnvelope}
  {snapshot snapshot' : StateSnapshot}

/-- The engines submit orders of the same quantity. -/
theorem lockstep_submitOrder (h : SameEngine ρ engine engine')
    (hdecision : SameDecision decision decision') (hsignal : SameSignal signal signal')
    (hquantity : intent'.quantity = intent.quantity)
    (hsilent : outcomeEvents intentEvent.toList = [] ∧ outcomeEvents intentEvent'.toList = []) :
    Lockstep ρ SamePass (engine.submitOrder decision signal intent bar c intentEvent)
      (engine'.submitOrder decision' signal' intent' bar c intentEvent') := by
  obtain ⟨⟩ := hsignal
  unfold submitOrder
  refine lockstep_uuid4.bind ?_
  rintro _ orderUuid orderUuid' _ rfl
  refine (lockstep_emitting .orderSubmitted rfl rfl (by decide)).bind ?_
  rintro _ submit submit' _ ⟨rfl, hsubmit⟩
  refine (lockstep_emitting .orderAcknowledged rfl rfl (by decide)).bind ?_
  rintro σ ack ack' _ ⟨rfl, hack⟩
  have hevents : SameEvents σ (intentEvent.toList ++ submit.toList ++ ack.toList)
      (intentEvent'.toList ++ submit'.toList ++ ack'.toList) :=
    .of_silent (by simp only [outcomeEvents_append, hsilent, hsubmit, hack, List.append_nil])
      (by simp only [outcomeEvents_append, hsilent, hsubmit, hack, List.append_nil])
  rw [hdecision.eventTime, hquantity]
  have hmodel := congrArg FillModel.fillAt h.fillModel
  by_cases hfill : engine.fillModel.fillAt = .nextOpen
  · simp only [hmodel, hfill, if_true]
    exact .pure ⟨⟨hevents.filterEvents engine engine', .nil⟩,
      { h with pendingEntries := List.rel_append h.pendingEntries (.cons ⟨⟩ .nil) }⟩
  · simp only [hmodel, hfill, if_false]
    refine (lockstep_openPosition h).bind fun τ filled filled' hle hfilled => .pure ?_
    exact ⟨⟨((hevents.mono hle).append hfilled.events).filterEvents engine engine',
      hfilled.transitions⟩, hfilled.engine⟩

theorem check_eq (hsnapshot : SameSnapshot ρ snapshot snapshot')
    (hquantity : intent'.quantity = intent.quantity)
    (hprice : intent'.limitPrice = intent.limitPrice) :
    ExecutionRiskGate.check intent' snapshot' = ExecutionRiskGate.check intent snapshot := by
  obtain ⟨openPositions⟩ := hsnapshot
  unfold ExecutionRiskGate.check
  rw [hquantity, hprice]
  simp only [openPositions.length_eq]

theorem lockstep_gateOrder (h : SameEngine ρ engine engine')
    (hdecision : SameDecision decision decision') (hsignal : SameSignal signal signal')
    (hquantity : intent'.quantity = intent.quantity)
    (hprice : intent'.limitPrice = intent.limitPrice)
    (hsnapshot : SameSnapshot ρ snapshot snapshot')
    (hsilent : outcomeEvents intentEvent.toList = [] ∧ outcomeEvents intentEvent'.toList = []) :
    Lockstep ρ (fun σ => Except.Rel (SamePass σ))
      (engine.gateOrder decision signal intent snapshot bar c intentEvent)
      (engine'.gateOrder decision' signal' intent' snapshot' bar c intentEvent') := by
  unfold gateOrder
  rw [check_eq hsnapshot hquantity hprice]
  cases ExecutionRiskGate.check intent snapshot with
  | error e => exact .pure (.error e)
  | ok r =>
    by_cases hr : r.passed = true
    · simp only [hr, if_true]
      exact (lockstep_submitOrder h hdecision hsignal hquantity hsilent).bind
        fun σ _ _ _ hpass => .pure (.ok hpass)
    · simp only [hr]
      refine .free (fun u => Nat.le_add_right u 1) (fun u => Nat.le_add_right u 1) fun u u' =>
        .ok ⟨⟨?_, .nil⟩, h⟩
      exact ((SameEvents.of_silent hsilent.1 hsilent.2).append
        (sameEvents_singleton (.orderRejected _ _))).filterEvents engine engine'

theorem SameEngine.positionSize_eq (h : SameEngine ρ engine engine')
    (hsnapshot : SameSnapshot ρ snapshot snapshot') (entry stopLoss sizeMultiplier : ℚ) :
    engine'.positionSize snapshot' entry stopLoss sizeMultiplier =
      engine.positionSize snapshot entry stopLoss sizeMultiplier := by
  obtain ⟨_⟩ := hsnapshot
  unfold positionSize baseQuantity
  rw [h.config]

theorem lockstep_placeOrder {quantity : ℚ} (h : SameEngine ρ engine engine')
    (hdecision : SameDecision decision decision') (hsignal : SameSignal signal signal')
    (hsnapshot : SameSnapshot ρ snapshot snapshot') :
    Lockstep ρ (fun σ => Except.Rel (SamePass σ))
      (engine.placeOrder decision signal quantity snapshot bar c)
      (engine'.placeOrder decision' signal' quantity snapshot' bar c) := by
  have hprice : signal'.entryPrice = signal.entryPrice := by
    obtain ⟨⟩ := hsignal
    rfl
  unfold placeOrder
  refine lockstep_uuid4.bind ?_
  rintro _ intentId intentId' _ rfl
  refine (lockstep_emitting .orderIntentCreated rfl rfl (by decide)).bind ?_
  rintro _ event event' _ ⟨rfl, hsilent⟩
  exact lockstep_gateOrder h hdecision hsignal rfl (congrArg some hprice) hsnapshot hsilent

/-- Both engines execute a decision, or raise the same error. -/
theorem lockstep_execute (bar : Bar) (c : EventCtx) (h : SameEngine ρ engine engine')
    (hdecision : SameDecision decision decision') (hsnapshot : SameSnapshot ρ snapshot snapshot') :
    Lockstep ρ (fun σ => Except.Rel (SamePass σ)) (engine.execute decision snapshot bar c)
      (engine'.execute decision' snapshot' bar c) := by
  have hidle : Lockstep ρ (fun σ => Except.Rel (ε := PyError) (SamePass σ))
      (return .ok { engine }) (return .ok { engine := engine' }) := .pure (.ok h.idle)
  unfold execute
  rw [hdecision.isApproved]
  cases decision.isApproved with
  | false => exact hidle
  | true =>
    have hsignals := hdecision.finalSignal
    generalize decision.finalSignal = signal at hsignals ⊢
    generalize decision'.finalSignal = signal' at hsignals ⊢
    cases hsignals with
    | none => exact hidle
    | @some signal signal' hsignal =>
      have hsame := hsignal
      obtain ⟨⟩ := hsignal
      dsimp only
      rw [h.config, SameEngine.positionSize_eq h hsnapshot]
      split
      · exact hidle
      split
      · refine .free (fun u => Nat.le_add_right u 1) (fun u => Nat.le_add_right u 1) fun u u' =>
          .ok ⟨⟨?_, .nil⟩, h⟩
        exact (SameEvents.of_silent rfl rfl).filterEvents engine engine'
      · exact lockstep_placeOrder h hdecision hsame hsnapshot

end Orders

end SimulatedExecutionEngine

end TradingPlatform
