import TradingPlatform.Execution.Account
import TradingPlatform.Execution.Effects

/-!
# The engine's maps and the store it trades on

The simulated engine keeps the bars and the order of each position in maps of its own and never
reads the store it trades on: it works on a snapshot and returns transitions. `Moves` puts the two
side by side, the store taking each transition as it is made. Every entry point of the engine moves
a book this way, and every move keeps the book `Coupled`.
-/

namespace TradingPlatform

/-- The id of the position a transition closes. -/
def StateTransitionEvent.closedId? (t : StateTransitionEvent) : Option ℕ :=
  match t.payload with
  | .positionClosed id _ _ _ => some id
  | _ => none

/-- The ids of the positions a list of transitions closes. -/
def closedIds (ts : List StateTransitionEvent) : List ℕ := ts.filterMap (·.closedId?)

theorem closedIds_append {ts ts' : List StateTransitionEvent} :
    closedIds (ts ++ ts') = closedIds ts ++ closedIds ts' := List.filterMap_append

/-- An engine, the store it trades on and the next identifier. -/
structure Book where
  engine : SimulatedExecutionEngine
  stateStore : InMemoryStateStore
  uuid : ℕ

namespace Book

open InMemoryStateStore SimulatedExecutionEngine

/-- What the engine's functions do to a book, with the transitions they return: the bar is counted
for an open position, identifiers are drawn, the queue of entries is changed, a position is opened,
or an open position is closed. -/
inductive Moves (c : EventCtx) : Book → List StateTransitionEvent → Book → Prop
  | refl {b : Book} : Moves c b [] b
  | count {b b' : Book} {ts : List StateTransitionEvent} {p : PositionState}
      (isOpen : p ∈ b.stateStore.portfolio.openPositions) (incrementBars : Bool)
      (tail : Moves c { b with engine := b.engine.countBar p incrementBars } ts b') :
      Moves c b ts b'
  | draw {b b' : Book} {ts : List StateTransitionEvent} {u : ℕ} (hle : b.uuid ≤ u)
      (tail : Moves c { b with uuid := u } ts b') : Moves c b ts b'
  | queue {b b' : Book} {ts : List StateTransitionEvent} {entries : List PendingEntry}
      (tail : Moves c { b with engine := { b.engine with pendingEntries := entries } } ts b') :
      Moves c b ts b'
  | «open» {b b' : Book} {ts : List StateTransitionEvent} {order : Order} {quantity : ℚ}
      {side : Side} {positionSide : PositionSide} {stopLoss takeProfit : ℚ} {bar : Bar}
      {cause : Option ℕ} {next : Bool} {filled : Filled × ℕ}
      (hfilled : b.engine.openPosition order quantity side positionSide stopLoss takeProfit bar c
        cause next b.uuid = filled)
      (tail : Moves c ⟨filled.1.engine, b.stateStore.apply filled.1.transition, filled.2⟩ ts b') :
      Moves c b (filled.1.transition :: ts) b'
  | close {b b' : Book} {ts : List StateTransitionEvent} {p : PositionState} {exitPrice : ℚ}
      {exitReason : ExitReason} {filled : Filled × ℕ}
      (isOpen : p ∈ b.stateStore.portfolio.openPositions)
      (hfilled : b.engine.closePosition p exitPrice exitReason c b.uuid = filled)
      (tail : Moves c ⟨filled.1.engine, b.stateStore.apply filled.1.transition, filled.2⟩ ts b') :
      Moves c b (filled.1.transition :: ts) b'

variable {c : EventCtx} {b b₁ b₂ b₃ b' : Book} {ts ts' : List StateTransitionEvent}

theorem Moves.trans (h : Moves c b₁ ts b₂) (h' : Moves c b₂ ts' b₃) :
    Moves c b₁ (ts ++ ts') b₃ := by
  induction h with
  | refl => exact h'
  | count isOpen incrementBars _ ih => exact .count isOpen incrementBars (ih h')
  | draw hle _ ih => exact .draw hle (ih h')
  | queue _ ih => exact .queue (ih h')
  | «open» hfilled _ ih => exact .open hfilled (ih h')
  | close isOpen hfilled _ ih => exact .close isOpen hfilled (ih h')

theorem Moves.stateStore (h : Moves c b ts b') :
    b'.stateStore = Run.exec InMemoryStateStore.apply b.stateStore ts := by
  induction h with
  | refl => rfl
  | count _ _ _ ih => exact ih
  | draw _ _ ih => exact ih
  | queue _ ih => exact ih
  | «open» _ _ ih => exact ih
  | close _ _ _ ih => exact ih

theorem Moves.le_uuid (h : Moves c b ts b') : b.uuid ≤ b'.uuid := by
  induction h with
  | refl => exact le_rfl
  | count _ _ _ ih => exact ih
  | draw hle _ ih => exact hle.trans ih
  | queue _ ih => exact ih
  | «open» hfilled _ ih => exact (hfilled ▸ le_openPosition_uuid).trans ih
  | close _ hfilled _ ih => exact (hfilled ▸ le_closePosition_uuid).trans ih

/-- A position that is open after a move was open before it or has an id drawn since. -/
theorem Moves.mem_openPositions {p : PositionState} (h : Moves c b ts b')
    (hp : p ∈ b'.stateStore.portfolio.openPositions) :
    p ∈ b.stateStore.portfolio.openPositions ∨ b.uuid ≤ p.positionId := by
  induction h with
  | refl => exact .inl hp
  | count _ _ _ ih => exact ih hp
  | draw hle _ ih =>
    rcases ih hp with hold | hnew
    · exact .inl hold
    · exact .inr (hle.trans hnew)
  | queue _ ih => exact ih hp
  | @«open» b _ _ order quantity side positionSide stopLoss takeProfit bar cause next filled
      hfilled _ ih =>
    have hle : b.uuid ≤ filled.2 := hfilled ▸ le_openPosition_uuid
    subst hfilled
    obtain ⟨fill, _, _, hpay⟩ := openPosition_payload b.engine order quantity side positionSide
      stopLoss takeProfit bar c cause next b.uuid
    rcases ih hp with hold | hnew
    · rw [apply_positionOpened hpay] at hold
      rcases List.mem_append.mp hold with hold | hnew
      · exact .inl hold
      · rw [List.mem_singleton.mp hnew]
        exact .inr le_openedId
    · exact .inr (hle.trans hnew)
  | @close b _ _ position exitPrice exitReason filled _ hfilled _ ih =>
    have hle : b.uuid ≤ filled.2 := hfilled ▸ le_closePosition_uuid
    subst hfilled
    obtain ⟨fill, _, _, hpay⟩ :=
      closePosition_payload b.engine c b.uuid position exitPrice exitReason
    rcases ih hp with hold | hnew
    · rw [apply_positionClosed hpay, openPositions_applyPositionClosed] at hold
      exact .inl (Keyed.mem_remove.mp hold).1
    · exact .inr (hle.trans hnew)

/-! ## The coupling -/

/-- The engine's maps have exactly the ids of the open positions, which are distinct and already
drawn. `closed` are the ids of the positions closed so far. -/
structure Coupled (closed : List ℕ) (b : Book) : Prop where
  bars : b.engine.positionBars.keys = b.stateStore.openIds
  orders : b.engine.positionOrders.keys = b.stateStore.openIds
  nodup : b.stateStore.openIds.Nodup
  drawn : ∀ id ∈ b.stateStore.openIds, id < b.uuid
  closed_nodup : closed.Nodup
  gone : ∀ id ∈ closed, id ∉ b.stateStore.openIds ∧ id < b.uuid

variable {closed : List ℕ}

theorem Coupled.start {engine : SimulatedExecutionEngine} (hbars : engine.positionBars = ∅)
    (horders : engine.positionOrders = ∅) {s : InMemoryStateStore}
    (hs : s.portfolio.openPositions = []) (u : ℕ) : Coupled [] ⟨engine, s, u⟩ := by
  have hids : s.openIds = [] := by rw [openIds, hs]; rfl
  refine ⟨?_, ?_, ?_, ?_, List.nodup_nil, fun id hid => absurd hid List.not_mem_nil⟩
  · rw [hbars, hids]
    rfl
  · rw [horders, hids]
    rfl
  · rw [hids]
    exact List.nodup_nil
  · rw [hids]
    exact fun id hid => absurd hid List.not_mem_nil

/-- A stretch that changes neither the maps nor the set of open positions. -/
theorem Coupled.congr (h : Coupled closed b)
    (hbars : b'.engine.positionBars = b.engine.positionBars)
    (horders : b'.engine.positionOrders = b.engine.positionOrders)
    (hids : b'.stateStore.openIds = b.stateStore.openIds) (hle : b.uuid ≤ b'.uuid) :
    Coupled closed b' where
  bars := by rw [hbars, hids]; exact h.bars
  orders := by rw [horders, hids]; exact h.orders
  nodup := hids ▸ h.nodup
  drawn := by
    intro id hid
    rw [hids] at hid
    exact (h.drawn id hid).trans_le hle
  closed_nodup := h.closed_nodup
  gone := by
    intro id hid
    rw [hids]
    exact ⟨(h.gone id hid).1, (h.gone id hid).2.trans_le hle⟩

theorem Coupled.countBar (h : Coupled closed b) {p : PositionState}
    (isOpen : p ∈ b.stateStore.portfolio.openPositions) (incrementBars : Bool) :
    Coupled closed { b with engine := b.engine.countBar p incrementBars } := by
  refine { h with bars := ?_, orders := ?_ }
  · have hmem : p.positionId ∈ b.engine.positionBars.keys := by
      rw [h.bars]
      exact List.mem_map_of_mem isOpen
    rw [← h.bars]
    cases incrementBars with
    | false => rfl
    | true => exact Dict.keys_set.trans (if_pos hmem)
  · rw [← h.orders]
    cases incrementBars <;> rfl

/-- The position opened has an id that has not been drawn before. -/
theorem Coupled.fresh (h : Coupled closed b) : b.engine.openedId b.uuid ∉ b.stateStore.openIds :=
  fun hid => absurd (h.drawn _ hid) (not_lt.mpr le_openedId)

section Fills

variable {order : Order} {quantity : ℚ} {side : Side} {positionSide : PositionSide}
  {stopLoss takeProfit : ℚ} {bar : Bar} {cause : Option ℕ} {next : Bool} {p : PositionState}
  {exitPrice : ℚ} {exitReason : ExitReason} {filled : Filled × ℕ}

theorem Coupled.open (h : Coupled closed b)
    (hfilled : b.engine.openPosition order quantity side positionSide stopLoss takeProfit bar c
      cause next b.uuid = filled) :
    Coupled (closed ++ closedIds [filled.1.transition])
      ⟨filled.1.engine, b.stateStore.apply filled.1.transition, filled.2⟩ := by
  subst hfilled
  obtain ⟨fill, _, _, hpay⟩ := openPosition_payload b.engine order quantity side positionSide
    stopLoss takeProfit bar c cause next b.uuid
  set filled := b.engine.openPosition order quantity side positionSide stopLoss takeProfit bar c
    cause next b.uuid with hfilled
  have hlt : b.engine.openedId b.uuid < filled.2 := openedId_lt
  have hle : b.uuid ≤ b.engine.openedId b.uuid := le_openedId
  have hids : (b.stateStore.apply filled.1.transition).openIds =
      b.stateStore.openIds ++ [b.engine.openedId b.uuid] := by
    rw [apply_positionOpened hpay]
    exact openIds_applyPositionOpened
  have hnone : closedIds [filled.1.transition] = [] := by
    simp only [closedIds, StateTransitionEvent.closedId?, List.filterMap_cons, hpay,
      List.filterMap_nil]
  rw [hnone, List.append_nil]
  refine ⟨?_, ?_, ?_, ?_, h.closed_nodup, ?_⟩
  · have hnew : b.engine.openedId b.uuid ∉ b.engine.positionBars.keys := h.bars ▸ h.fresh
    have hset : filled.1.engine.positionBars =
        b.engine.positionBars.set (b.engine.openedId b.uuid) 0 := positionBars_openPosition
    rw [hset, hids, ← h.bars, Dict.keys_set_of_not_mem hnew]
  · have hnew : b.engine.openedId b.uuid ∉ b.engine.positionOrders.keys := h.orders ▸ h.fresh
    have hset : filled.1.engine.positionOrders =
        b.engine.positionOrders.set (b.engine.openedId b.uuid) order.orderId :=
      positionOrders_openPosition
    rw [hset, hids, ← h.orders, Dict.keys_set_of_not_mem hnew]
  · rw [hids]
    refine List.nodup_append.mpr ⟨h.nodup, List.nodup_singleton _, ?_⟩
    rintro id hid _ hnew rfl
    exact h.fresh (List.mem_singleton.mp hnew ▸ hid)
  · intro id hid
    rw [hids, List.mem_append, List.mem_singleton] at hid
    change id < filled.2
    rcases hid with hid | rfl
    · have := h.drawn id hid
      omega
    · exact hlt
  · intro id hid
    obtain ⟨hgone, hdrawn⟩ := h.gone id hid
    rw [hids, List.mem_append, List.mem_singleton]
    change ¬ (id ∈ b.stateStore.openIds ∨ _) ∧ id < filled.2
    refine ⟨?_, by omega⟩
    rintro (hopen | rfl)
    · exact hgone hopen
    · omega

theorem Coupled.close (h : Coupled closed b) (isOpen : p ∈ b.stateStore.portfolio.openPositions)
    (hfilled : b.engine.closePosition p exitPrice exitReason c b.uuid = filled) :
    Coupled (closed ++ closedIds [filled.1.transition])
      ⟨filled.1.engine, b.stateStore.apply filled.1.transition, filled.2⟩ := by
  subst hfilled
  obtain ⟨fill, _, _, hpay⟩ := closePosition_payload b.engine c b.uuid p exitPrice exitReason
  set filled := b.engine.closePosition p exitPrice exitReason c b.uuid with hfilled
  have hle : b.uuid ≤ filled.2 := le_closePosition_uuid
  have hids : (b.stateStore.apply filled.1.transition).openIds =
      b.stateStore.openIds.filter fun id => decide (id ≠ p.positionId) := by
    rw [apply_positionClosed hpay]
    exact openIds_applyPositionClosed
  have hmem : p.positionId ∈ b.stateStore.openIds := List.mem_map_of_mem isOpen
  have hone : closedIds [filled.1.transition] = [p.positionId] := by
    simp only [closedIds, StateTransitionEvent.closedId?, List.filterMap_cons, hpay,
      List.filterMap_nil]
  rw [hone]
  refine ⟨?_, ?_, ?_, ?_, ?_, ?_⟩
  · rw [hids, ← h.bars]
    exact Dict.keys_erase
  · rw [hids, ← h.orders]
    exact Dict.keys_erase
  · rw [hids]
    exact h.nodup.filter _
  · intro id hid
    rw [hids] at hid
    exact (h.drawn id (List.mem_of_mem_filter hid)).trans_le hle
  · refine List.nodup_append.mpr ⟨h.closed_nodup, List.nodup_singleton _, ?_⟩
    rintro id hid _ hnew rfl
    exact (h.gone id hid).1 (List.mem_singleton.mp hnew ▸ hmem)
  · intro id hid
    rw [hids, List.mem_filter, decide_eq_true_eq]
    change ¬ (id ∈ b.stateStore.openIds ∧ _) ∧ id < filled.2
    rcases List.mem_append.mp hid with hid | hid
    · obtain ⟨hgone, hdrawn⟩ := h.gone id hid
      exact ⟨fun hopen => hgone hopen.1, by omega⟩
    · obtain rfl := List.mem_singleton.mp hid
      have := h.drawn _ hmem
      exact ⟨fun hopen => hopen.2 rfl, by omega⟩

end Fills

/-- Every move keeps the book coupled. -/
theorem Moves.coupled (h : Moves c b ts b') (hc : Coupled closed b) :
    Coupled (closed ++ closedIds ts) b' := by
  induction h generalizing closed with
  | refl => rwa [show closedIds [] = [] from rfl, List.append_nil]
  | count isOpen incrementBars _ ih => exact ih (hc.countBar isOpen incrementBars)
  | draw hle _ ih => exact ih (hc.congr rfl rfl rfl hle)
  | queue _ ih => exact ih (hc.congr rfl rfl rfl le_rfl)
  | @«open» _ _ ts _ _ _ _ _ _ _ _ _ filled hfilled _ ih =>
    have := ih (hc.open hfilled)
    rwa [List.append_assoc, ← closedIds_append] at this
  | @close _ _ ts _ _ _ filled isOpen hfilled _ ih =>
    have := ih (hc.close isOpen hfilled)
    rwa [List.append_assoc, ← closedIds_append] at this

theorem Moves.produced (h : Moves c b ts b') (hc : Coupled closed b) :
    b.stateStore.ProducedFrom ts := by
  induction h generalizing closed with
  | refl => trivial
  | count isOpen incrementBars _ ih => exact ih (hc.countBar isOpen incrementBars)
  | draw hle _ ih => exact ih (hc.congr rfl rfl rfl hle)
  | queue _ ih => exact ih (hc.congr rfl rfl rfl le_rfl)
  | «open» hfilled _ ih =>
    refine ⟨?_, ih (hc.open hfilled)⟩
    rw [← hfilled]
    exact openPosition_produced hc.fresh
  | close isOpen hfilled _ ih =>
    refine ⟨?_, ih (hc.close isOpen hfilled)⟩
    rw [← hfilled]
    exact closePosition_produced isOpen

/-! ## The entry points -/

/-- The book after a pass whose transitions have been applied. -/
def after (b : Book) (pass : Pass × ℕ) : Book :=
  ⟨pass.1.engine, Run.exec InMemoryStateStore.apply b.stateStore pass.1.transitions, pass.2⟩

theorem fillEntries_moves (bar : Bar) (entries : List PendingEntry) (b : Book) :
    Moves c b (fillEntries bar c b.engine entries b.uuid).1.transitions
      (b.after (fillEntries bar c b.engine entries b.uuid)) := by
  induction entries generalizing b with
  | nil => exact .refl
  | cons pending rest ih =>
    by_cases hsym : pending.symbol = c.symbol
    · rw [fillEntries_cons_of_eq hsym]
      exact .open rfl (ih ⟨_, _, _⟩)
    · rw [fillEntries_cons_of_ne hsym]
      exact ih b

/-- The positions still to be visited stay open when another one is closed. -/
theorem mem_of_close {s : InMemoryStateStore} {p q : PositionState} {t : StateTransitionEvent}
    {fill : Fill} {pnl : ℚ} {reason : ExitReason}
    (ht : t.payload = .positionClosed p.positionId fill pnl reason)
    (hq : q ∈ s.portfolio.openPositions) (hne : q.positionId ≠ p.positionId) :
    q ∈ (s.apply t).portfolio.openPositions := by
  rw [apply_positionClosed ht, openPositions_applyPositionClosed]
  exact Keyed.mem_remove.mpr ⟨hq, hne⟩

section Visit

variable {position : PositionState} {rest : List PositionState} {exitPrice : ℚ}
  {exitReason : ExitReason}

/-- Closing the first of a list of open positions with distinct ids leaves the others open. -/
theorem visit_rest {s : InMemoryStateStore} {engine : SimulatedExecutionEngine} {u : ℕ}
    (hnd : ((position :: rest).map (·.positionId)).Nodup)
    (hopen : ∀ p ∈ position :: rest, p ∈ s.portfolio.openPositions) :
    ∀ p ∈ rest, p ∈ (s.apply (engine.closePosition position exitPrice exitReason c
      u).1.transition).portfolio.openPositions := by
  obtain ⟨fill, _, _, hpay⟩ :=
    closePosition_payload engine c u position exitPrice exitReason
  intro p hp
  refine mem_of_close hpay (hopen p (List.mem_cons_of_mem _ hp)) fun hid => ?_
  rw [List.map_cons, List.nodup_cons] at hnd
  exact hnd.1 (hid ▸ List.mem_map_of_mem hp)

end Visit

theorem evaluatePositions_moves (bar : Bar) (approvedSide : Option Side) (incrementBars : Bool)
    (positions : List PositionState) (b : Book) (hnd : (positions.map (·.positionId)).Nodup)
    (hopen : ∀ p ∈ positions, p ∈ b.stateStore.portfolio.openPositions) :
    Moves c b
      (evaluatePositions bar c approvedSide incrementBars b.engine positions b.uuid).1.transitions
      (b.after (evaluatePositions bar c approvedSide incrementBars b.engine positions b.uuid)) := by
  induction positions generalizing b with
  | nil => exact .refl
  | cons position rest ih =>
    have hrest : (rest.map (·.positionId)).Nodup := (List.nodup_cons.mp hnd).2
    by_cases hsym : position.symbol = c.symbol
    · cases hexit : (b.engine.countBar position incrementBars).checkExit position bar
          (b.engine.barsHeld position incrementBars) approvedSide incrementBars with
      | none =>
        rw [evaluatePositions_cons_of_none hsym hexit]
        refine .count (hopen position List.mem_cons_self) incrementBars ?_
        exact ih { b with engine := b.engine.countBar position incrementBars } hrest
          fun p hp => hopen p (List.mem_cons_of_mem _ hp)
      | some exit =>
        obtain ⟨exitReason, exitPrice⟩ := exit
        rw [evaluatePositions_cons_of_some hsym hexit]
        refine .count (hopen position List.mem_cons_self) incrementBars ?_
        refine .close (hopen position List.mem_cons_self) rfl ?_
        exact ih ⟨_, _, _⟩ hrest (visit_rest hnd hopen)
    · rw [evaluatePositions_cons_of_ne hsym]
      exact ih b hrest fun p hp => hopen p (List.mem_cons_of_mem _ hp)

theorem closeAll_moves (exitPrice : ℚ) (positions : List PositionState) (b : Book)
    (hnd : (positions.map (·.positionId)).Nodup)
    (hopen : ∀ p ∈ positions, p ∈ b.stateStore.portfolio.openPositions) :
    Moves c b (closeAll exitPrice c b.engine positions b.uuid).1.transitions
      (b.after (closeAll exitPrice c b.engine positions b.uuid)) := by
  induction positions generalizing b with
  | nil => exact .refl
  | cons position rest ih =>
    have hrest : (rest.map (·.positionId)).Nodup := (List.nodup_cons.mp hnd).2
    by_cases hsym : position.symbol = c.symbol
    · rw [closeAll_cons_of_eq hsym]
      refine .close (hopen position List.mem_cons_self) rfl ?_
      exact ih ⟨_, _, _⟩ hrest (visit_rest hnd hopen)
    · rw [closeAll_cons_of_ne hsym]
      exact ih b hrest fun p hp => hopen p (List.mem_cons_of_mem _ hp)

/-- Openings close nothing. -/
theorem mem_of_openings {s : InMemoryStateStore} {p : PositionState}
    (hts : ∀ t ∈ ts, t.IsOpening) (hp : p ∈ s.portfolio.openPositions) :
    p ∈ (Run.exec InMemoryStateStore.apply s ts).portfolio.openPositions := by
  induction ts generalizing s with
  | nil => exact hp
  | cons t ts ih =>
    obtain ⟨q, fill, cost, hpay⟩ := hts t List.mem_cons_self
    refine ih (fun t' ht' => hts t' (List.mem_cons_of_mem _ ht')) ?_
    rw [apply_positionOpened hpay]
    exact List.mem_append_left _ hp

/-- A pass on a snapshot of the store moves the book. -/
theorem evaluateBar_moves (bar : Bar) (approvedSide : Option Side) (incrementBars : Bool)
    {snapshot : StateSnapshot} (b : Book) (hnd : b.stateStore.openIds.Nodup)
    (hsnap : snapshot.portfolio = b.stateStore.portfolio) :
    Moves c b
      (b.engine.evaluateBar bar snapshot c approvedSide incrementBars b.uuid).1.transitions
      (b.after (b.engine.evaluateBar bar snapshot c approvedSide incrementBars b.uuid)) := by
  have hnd' : (snapshot.portfolio.openPositions.map (·.positionId)).Nodup := by rwa [hsnap]
  cases incrementBars with
  | false =>
    exact evaluatePositions_moves bar approvedSide false snapshot.portfolio.openPositions b hnd'
      fun p hp => hsnap ▸ hp
  | true =>
    let filled := fillEntries bar c b.engine b.engine.pendingEntries b.uuid
    have hfilled : Moves c b filled.1.transitions (b.after filled) :=
      fillEntries_moves bar b.engine.pendingEntries b
    have hopenings : ∀ t ∈ filled.1.transitions, t.IsOpening := fun t ht =>
      ((fillEntries_spec bar c b.engine.pendingEntries b.engine b.uuid).1.isOpening.2 t ht).1
    let drained : Book := { b.after filled with engine := { filled.1.engine with
      pendingEntries := b.engine.pendingEntries.filter (·.symbol ≠ c.symbol) } }
    let exits := evaluatePositions bar c approvedSide true drained.engine
      snapshot.portfolio.openPositions drained.uuid
    have hexits : Moves c drained exits.1.transitions (drained.after exits) :=
      evaluatePositions_moves bar approvedSide true snapshot.portfolio.openPositions drained hnd'
        fun p hp => mem_of_openings hopenings (hsnap ▸ hp)
    have hafter : b.after (b.engine.evaluateBar bar snapshot c approvedSide true b.uuid) =
        drained.after exits := by
      change Book.mk _ (Run.exec _ _ (filled.1.transitions ++ exits.1.transitions)) _ = _
      rw [Run.exec_append]
      rfl
    rw [hafter]
    exact hfilled.trans (.queue hexits)

/-- An execution that does not raise moves the book. -/
theorem execute_moves {decision : Decision} {snapshot : StateSnapshot} {bar : Bar} (b : Book)
    {pass : Pass} {u : ℕ} (h : b.engine.execute decision snapshot bar c b.uuid = (.ok pass, u)) :
    Moves c b pass.transitions (b.after (pass, u)) := by
  obtain ⟨hle, hcases⟩ := execute_cases h
  have hidle : ∀ {entries : List PendingEntry}, pass.transitions = [] →
      pass.engine = { b.engine with pendingEntries := entries } →
      Moves c b pass.transitions (b.after (pass, u)) := by
    intro entries hts hengine
    have hafter : b.after (pass, u) =
        ⟨{ b.engine with pendingEntries := entries }, b.stateStore, u⟩ := by
      rw [after, hts, hengine]
      rfl
    rw [hafter, hts]
    exact .draw hle (.queue .refl)
  rcases hcases pass rfl with ⟨hts, hengine⟩ |
    ⟨signal, intent, event, _, u₁, hle₁, _, _, _, _, _, _, _, hsubmit⟩
  · exact hidle hts hengine
  by_cases hfill : b.engine.fillModel.fillAt = .nextOpen
  · obtain ⟨pending, hts, hengine, _⟩ :=
      submitOrder_queued bar c u₁ decision signal intent event hfill
    rw [← hsubmit] at hts hengine
    exact hidle hts hengine
  · obtain ⟨order, cause, u₂, hle₂, hts, hengine, hu⟩ :=
      submitOrder_filled bar c u₁ decision signal intent event hfill
    rw [← hsubmit] at hts hengine hu
    replace hu : u = _ := hu
    have hafter : b.after (pass, u) = ⟨pass.engine, b.stateStore.apply (b.engine.openPosition order
        intent.quantity signal.side (entrySide signal.side) signal.stopLoss signal.takeProfit bar c
        cause false u₂).1.transition, u⟩ := by
      rw [after, hts]
      rfl
    rw [hafter, hts, hengine, hu]
    exact .draw (hle₁.trans hle₂) (.open rfl .refl)

end Book

namespace SimulatedExecutionEngine

variable {engine : SimulatedExecutionEngine} {bar : Bar} {c : EventCtx} {u : ℕ}

/-! ## What a pass leaves open -/

/-- The exit test reads the configuration of the engine and no other part of it. -/
theorem checkExit_congr {engine' : SimulatedExecutionEngine} (h : SameQueue engine engine')
    (p : PositionState) (bar : Bar) (barsHeld : ℕ) (approvedSide : Option Side)
    (checkTimeout : Bool) :
    engine'.checkExit p bar barsHeld approvedSide checkTimeout =
      engine.checkExit p bar barsHeld approvedSide checkTimeout := by
  unfold checkExit
  rw [h.config]

/-- A position that the exit test keeps has not been held for the limit. -/
theorem barsHeld_lt_of_kept {p : PositionState} {barsHeld : ℕ}
    (h : engine.checkExit p bar barsHeld none true = none) :
    barsHeld < engine.config.maxBarsInTrade := by
  simp only [checkExit] at h
  cases hlevels : checkLevels p bar with
  | some hit => simp [hlevels] at h
  | none =>
    simp only [hlevels, true_and] at h
    exact not_le.mp fun hle => by simp [hle] at h

/-- A position that the same-bar exit test keeps is not one the approved side closes. -/
theorem not_opposes_of_kept {p : PositionState} {barsHeld : ℕ} {side : Side}
    (h : engine.checkExit p bar barsHeld (some side) false = none) :
    side.opposes p.side = false := by
  simp only [checkExit] at h
  cases hopp : side.opposes p.side with
  | false => rfl
  | true => simp [hopp] at h

theorem get?_countBar_of_ne {p : PositionState} {incrementBars : Bool} {id : ℕ}
    (h : id ≠ p.positionId) :
    (engine.countBar p incrementBars).positionBars.get? id = engine.positionBars.get? id := by
  cases incrementBars with
  | false => rfl
  | true => exact Dict.get?_set_of_ne h.symm

/-- The bars recorded for a position once the bar has been counted. -/
theorem getD_countBar (engine : SimulatedExecutionEngine) (p : PositionState)
    (incrementBars : Bool) :
    (engine.countBar p incrementBars).positionBars.getD p.positionId 0 =
      engine.barsHeld p incrementBars := by
  cases incrementBars with
  | false => rfl
  | true =>
    change Option.getD (Dict.get? (Dict.set _ _ _) _) 0 = _
    rw [Dict.get?_set_self]
    rfl

theorem get?_closePosition_of_ne {p : PositionState} {exitPrice : ℚ} {exitReason : ExitReason}
    {id : ℕ} (h : id ≠ p.positionId) :
    (engine.closePosition p exitPrice exitReason c u).1.engine.positionBars.get? id =
      engine.positionBars.get? id := Dict.get?_erase_of_ne h.symm

/-- A pass leaves the bars of the positions it does not visit as they are. -/
theorem get?_evaluatePositions (bar : Bar) (c : EventCtx) (approvedSide : Option Side)
    (incrementBars : Bool) {id : ℕ} (positions : List PositionState)
    (engine : SimulatedExecutionEngine) (u : ℕ) (hid : id ∉ positions.map (·.positionId)) :
    (evaluatePositions bar c approvedSide incrementBars engine positions
      u).1.engine.positionBars.get? id = engine.positionBars.get? id := by
  induction positions generalizing engine u with
  | nil => rfl
  | cons position rest ih =>
    rw [List.map_cons, List.mem_cons, not_or] at hid
    obtain ⟨hne, hrest⟩ := hid
    by_cases hsym : position.symbol = c.symbol
    · cases hexit : (engine.countBar position incrementBars).checkExit position bar
          (engine.barsHeld position incrementBars) approvedSide incrementBars with
      | none =>
        rw [evaluatePositions_cons_of_none hsym hexit]
        exact (ih _ _ hrest).trans (get?_countBar_of_ne hne)
      | some exit =>
        obtain ⟨exitReason, exitPrice⟩ := exit
        rw [evaluatePositions_cons_of_some hsym hexit]
        exact (ih _ _ hrest).trans ((get?_closePosition_of_ne hne).trans (get?_countBar_of_ne hne))
    · rw [evaluatePositions_cons_of_ne hsym]
      exact ih _ _ hrest

/-- Filling entries sets the bars of the positions it opens to 0 and changes no others. -/
theorem get?_fillEntries (bar : Bar) (c : EventCtx) (id : ℕ) (entries : List PendingEntry)
    (engine : SimulatedExecutionEngine) (u : ℕ) :
    (fillEntries bar c engine entries u).1.engine.positionBars.get? id =
      engine.positionBars.get? id ∨
    (fillEntries bar c engine entries u).1.engine.positionBars.get? id = some 0 := by
  induction entries generalizing engine u with
  | nil => exact .inl rfl
  | cons pending rest ih =>
    by_cases hsym : pending.symbol = c.symbol
    · rw [fillEntries_cons_of_eq hsym]
      let filled := engine.fillPending pending bar c u
      have hset : filled.1.engine.positionBars.get? id =
          if engine.openedId u = id then some 0 else engine.positionBars.get? id := by
        rw [← Dict.get?_set]
        exact congrArg (Dict.get? · id) positionBars_openPosition
      rcases ih filled.1.engine filled.2 with hsame | hzero
      · rw [hset] at hsame
        split at hsame
        · exact .inr hsame
        · exact .inl hsame
      · exact .inr hzero
    · rw [fillEntries_cons_of_ne hsym]
      exact ih engine u

/-- A position of the symbol that a pass leaves in the engine's map has passed the exit test with
the bars the map now records for it. -/
theorem kept_evaluatePositions (bar : Bar) (c : EventCtx) (approvedSide : Option Side)
    (incrementBars : Bool) (positions : List PositionState) (engine : SimulatedExecutionEngine)
    (u : ℕ) (hnd : (positions.map (·.positionId)).Nodup) :
    let engine' := (evaluatePositions bar c approvedSide incrementBars engine positions u).1.engine
    ∀ p ∈ positions, p.symbol = c.symbol → engine'.positionBars.get? p.positionId ≠ none →
      engine.checkExit p bar (engine'.positionBars.getD p.positionId 0) approvedSide incrementBars =
        none := by
  induction positions generalizing engine u with
  | nil => exact fun p hp => absurd hp List.not_mem_nil
  | cons position rest ih =>
    obtain ⟨hnew, hrest⟩ := List.nodup_cons.mp hnd
    by_cases hsym : position.symbol = c.symbol
    · have hqueue : SameQueue engine (engine.countBar position incrementBars) :=
        sameQueue_countBar
      cases hexit : (engine.countBar position incrementBars).checkExit position bar
          (engine.barsHeld position incrementBars) approvedSide incrementBars with
      | none =>
        rw [evaluatePositions_cons_of_none hsym hexit]
        intro engine' p hp hsymp hkept
        rcases List.mem_cons.mp hp with rfl | hp
        · have hbars : engine'.positionBars.get? p.positionId =
              (engine.countBar p incrementBars).positionBars.get? p.positionId :=
            get?_evaluatePositions bar c approvedSide incrementBars rest _ u hnew
          rw [Dict.getD, hbars, ← Dict.getD, getD_countBar, ← checkExit_congr hqueue]
          exact hexit
        · rw [← checkExit_congr hqueue]
          exact ih _ u hrest p hp hsymp hkept
      | some exit =>
        obtain ⟨exitReason, exitPrice⟩ := exit
        rw [evaluatePositions_cons_of_some hsym hexit]
        intro engine' p hp hsymp hkept
        rcases List.mem_cons.mp hp with rfl | hp
        · refine absurd ?_ hkept
          have hbars : engine'.positionBars.get? p.positionId = _ :=
            get?_evaluatePositions bar c approvedSide incrementBars rest _ _ hnew
          rw [hbars]
          exact Dict.get?_erase_self
        · rw [← checkExit_congr (hqueue.trans sameQueue_closePosition)]
          exact ih _ _ hrest p hp hsymp hkept
    · rw [evaluatePositions_cons_of_ne hsym]
      intro engine' p hp hsymp hkept
      rcases List.mem_cons.mp hp with rfl | hp
      · exact absurd hsymp hsym
      · exact ih _ u hrest p hp hsymp hkept

end SimulatedExecutionEngine

namespace Book

open InMemoryStateStore SimulatedExecutionEngine

variable {c : EventCtx} {b : Book} {closed : List ℕ} {snapshot : StateSnapshot}

/-- After a pass that counts the bar, every open position of the bar's symbol has been held for
fewer bars than the limit. -/
theorem evaluateBar_belowLimit (bar : Bar) (hc : Coupled closed b)
    (hsnap : snapshot.portfolio = b.stateStore.portfolio) {p : PositionState} :
    let pass := b.engine.evaluateBar bar snapshot c none true b.uuid
    p ∈ (b.after pass).stateStore.portfolio.openPositions → p.symbol = c.symbol →
      ∃ n, pass.1.engine.positionBars.get? p.positionId = some n ∧
        n < b.engine.config.maxBarsInTrade := by
  intro pass hp hsym
  have hmoves : Moves c b pass.1.transitions (b.after pass) :=
    evaluateBar_moves bar none true b hc.nodup hsnap
  have hkey : p.positionId ∈ pass.1.engine.positionBars.keys := by
    have hbars : pass.1.engine.positionBars.keys = _ := (hmoves.coupled hc).bars
    rw [hbars]
    exact List.mem_map_of_mem hp
  obtain ⟨n, hn⟩ := Option.ne_none_iff_exists'.mp (Dict.mem_keys_iff.mp hkey)
  refine ⟨n, hn, ?_⟩
  let filled := fillEntries bar c b.engine b.engine.pendingEntries b.uuid
  let drained : SimulatedExecutionEngine := { filled.1.engine with
    pendingEntries := b.engine.pendingEntries.filter (·.symbol ≠ c.symbol) }
  let exits := evaluatePositions bar c none true drained snapshot.portfolio.openPositions filled.2
  have hconfig : drained.config = b.engine.config :=
    (fillEntries_spec bar c b.engine.pendingEntries b.engine b.uuid).2.config
  have hn : exits.1.engine.positionBars.get? p.positionId = some n := hn
  by_cases hold : p ∈ snapshot.portfolio.openPositions
  · have hnd : (snapshot.portfolio.openPositions.map (·.positionId)).Nodup := by
      rw [hsnap]
      exact hc.nodup
    have hkept := kept_evaluatePositions bar c none true snapshot.portfolio.openPositions drained
      filled.2 hnd p hold hsym (by rw [hn]; exact Option.some_ne_none n)
    rw [Dict.getD, hn, Option.getD_some] at hkept
    rw [← hconfig]
    exact barsHeld_lt_of_kept hkept
  · have hnew : b.uuid ≤ p.positionId :=
      (hmoves.mem_openPositions hp).resolve_left fun h => hold (hsnap ▸ h)
    have hids : p.positionId ∉ b.stateStore.openIds := fun h =>
      absurd (hc.drawn _ h) (not_lt.mpr hnew)
    have hsame : exits.1.engine.positionBars.get? p.positionId =
        filled.1.engine.positionBars.get? p.positionId :=
      get?_evaluatePositions bar c none true snapshot.portfolio.openPositions drained filled.2
        (by rw [hsnap]; exact hids)
    rw [hsame] at hn
    rcases get?_fillEntries bar c p.positionId b.engine.pendingEntries b.engine b.uuid with
      hkeep | hzero
    · refine absurd ?_ hids
      rw [← hc.bars, Dict.mem_keys_iff, ← hkeep, hn]
      exact Option.some_ne_none n
    · obtain rfl := Option.some.inj (hn.symm.trans hzero)
      exact b.engine.config.maxBarsInTrade_ge

end Book

end TradingPlatform
