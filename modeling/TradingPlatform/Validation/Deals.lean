import TradingPlatform.Execution.EventTypes
import TradingPlatform.Runtime.PassRule
import TradingPlatform.Runtime.Rebuilding

/-!
# The deals of a run

The `POSITION_OPENED` and `POSITION_CLOSED` events of a run with all they say: a position is opened
once, under an id of its own, and a close repeats the terms of the position that an earlier event
has opened under its id, with the result that these terms give and the bars counted for it.
-/

namespace TradingPlatform

open InMemoryStateStore SimulatedExecutionEngine

/-- A position that an event opens or closes. -/
inductive Deal
  | opened (positionId : ℕ) (symbol : String) (time : ℤ) (position : PositionState)
  | closed (symbol : String) (time : ℤ) (payload : ClosedPayload)

namespace Deal

def positionId : Deal → ℕ
  | .opened positionId _ _ _ => positionId
  | .closed _ _ payload => payload.positionId

def closedId? : Deal → Option ℕ
  | .opened _ _ _ _ => none
  | .closed _ _ payload => some payload.positionId

end Deal

def EventEnvelope.deal? (e : EventEnvelope) : Option Deal :=
  match e.payload with
  | .positionOpened positionId _ position =>
    some (.opened positionId e.symbol e.eventTime position)
  | .positionClosed closed => some (.closed e.symbol e.eventTime closed)
  | _ => none

/-- The deals that events report. -/
def deals (events : List EventEnvelope) : List Deal := events.filterMap (·.deal?)

theorem deals_append {events events' : List EventEnvelope} :
    deals (events ++ events') = deals events ++ deals events' := List.filterMap_append

/-- Positions that differ in the mark at most have the same terms. -/
theorem PositionState.terms_eq {p q : PositionState} (h : q.unmarked = p.unmarked) :
    q.positionId = p.positionId ∧ q.symbol = p.symbol ∧ q.side = p.side ∧
    q.quantity = p.quantity ∧ q.entryPrice = p.entryPrice ∧ q.stopLoss = p.stopLoss ∧
    q.takeProfit = p.takeProfit := by
  simp only [PositionState.unmarked, PositionState.mk.injEq] at h
  obtain ⟨hid, hsym, hside, hquantity, hentry, -, hstop, htake, -⟩ := h
  exact ⟨hid, hsym, hside, hquantity, hentry, hstop, htake⟩

/-- The close of a position on its own terms. -/
structure Settles (fillModel : FillModel) (config : ValidationExecutionConfig)
    (position : PositionState) (closed : ClosedPayload) : Prop where
  entryPrice : closed.entryPrice = position.entryPrice
  side : closed.side = position.side
  quantity : closed.quantity = position.quantity
  stopLoss : closed.stopLoss = position.stopLoss
  takeProfit : closed.takeProfit = position.takeProfit
  pnl : closed.pnl = position.grossPnl closed.exitPrice -
    closed.exitPrice * closed.quantity * fillModel.feeBps / 10000
  barsHeld : closed.barsHeld ≤ config.maxBarsInTrade
  timeout : closed.exitReason = .timeout → closed.barsHeld = config.maxBarsInTrade

/-- What the deals before it make of a deal. -/
def Deal.Lawful (fillModel : FillModel) (config : ValidationExecutionConfig)
    (before : List Deal) : Deal → Prop
  | .opened positionId symbol time position =>
    position.positionId = positionId ∧ position.symbol = symbol ∧ position.entryTime = time ∧
    ∀ d ∈ before, d.positionId ≠ positionId
  | .closed symbol _ payload =>
    (∀ d ∈ before, d.closedId? ≠ some payload.positionId) ∧
    ∃ time position, .opened payload.positionId symbol time position ∈ before ∧
      Settles fillModel config position payload

/-! ## What the engine reports -/

section Events

variable {engine : SimulatedExecutionEngine} {bar : Bar} {c : EventCtx} {u : ℕ}
  {events : List EventEnvelope}

theorem deal?_eq_none {e : EventEnvelope} : e.deal? = none ↔ e.payload.trade? = none := by
  unfold EventEnvelope.deal? Payload.trade?
  cases e.payload <;> simp

theorem deals_eq_nil (h : reportedTrades events = []) : deals events = [] :=
  List.filterMap_eq_nil_iff.mpr fun e he =>
    deal?_eq_none.mpr (List.filterMap_eq_nil_iff.mp h e he)

theorem deals_filterEvents : deals (engine.filterEvents events) = deals events := by
  unfold filterEvents
  split
  · rfl
  · unfold deals
    rw [List.filterMap_filter]
    refine List.filterMap_congr fun e _ => ?_
    by_cases h : e.eventType ∈ scoreOutcomeTypes
    · simp [h]
    · simp [h, deal?_eq_none.mpr (trade?_of_not_scoreOutcome h)]

/-- The opening that a trade is in a call. -/
def Trade.opening? (c : EventCtx) : Trade → Option Deal
  | .opened positionId position => some (.opened positionId c.symbol c.eventTime position)
  | .closed _ _ => none

/-- Events of the call `c` that report one opening. -/
theorem deals_of_opened {types : List EventType} {positionId : ℕ} {position : PositionState}
    (hbuilt : BuiltFor c types events)
    (h : reportedTrades events = [.opened positionId position]) :
    deals events = [.opened positionId c.symbol c.eventTime position] := by
  have hread : deals events = (reportedTrades events).filterMap (Trade.opening? c) := by
    unfold deals reportedTrades
    rw [List.filterMap_filterMap]
    refine List.filterMap_congr fun e he => ?_
    have hmem : ∀ trade, e.payload.trade? = some trade → trade ∈ reportedTrades events :=
      fun trade htrade => List.mem_filterMap.mpr ⟨e, he, htrade⟩
    obtain ⟨payload, cause, v, -, rfl⟩ := hbuilt e he
    cases payload with
    | positionClosed payload =>
      have hclosed := hmem _ rfl
      rw [h] at hclosed
      cases List.mem_singleton.mp hclosed
    | _ => rfl
  rw [hread, h]
  rfl

theorem deals_openPosition {order : Order} {quantity : ℚ} {side : Side}
    {positionSide : PositionSide} {stopLoss takeProfit : ℚ} {cause : Option ℕ} {next : Bool} :
    deals (engine.openPosition order quantity side positionSide stopLoss takeProfit bar c cause
      next u).1.events = [.opened (engine.openedId u) c.symbol c.eventTime
        (entryPosition (engine.openedId u) quantity (engine.fillPrice bar side next) positionSide
          stopLoss takeProfit c)] := by
  unfold openedId openPosition emitting
  cases engine.emitEvents <;> rfl

theorem deals_closePosition {p : PositionState} {exitPrice : ℚ} {exitReason : ExitReason} :
    ∃ fillId, deals (engine.closePosition p exitPrice exitReason c u).1.events =
      [.closed c.symbol c.eventTime {
        exitReason, exitPrice, fillId
        pnl := engine.netPnl p exitPrice
        positionId := p.positionId
        entryPrice := p.entryPrice
        side := p.side
        quantity := p.quantity
        stopLoss := p.stopLoss
        takeProfit := p.takeProfit
        barsHeld := engine.positionBars.getD p.positionId 0 }] := by
  unfold closePosition emitting
  cases engine.emitEvents
  · exact ⟨_, rfl⟩
  · exact ⟨_, rfl⟩

theorem le_barsHeld_of_timeout {p : PositionState} {barsHeld : ℕ} {approvedSide : Option Side}
    {checkTimeout : Bool} {exitPrice : ℚ}
    (h : engine.checkExit p bar barsHeld approvedSide checkTimeout = some (.timeout, exitPrice)) :
    engine.config.maxBarsInTrade ≤ barsHeld := by
  have hlevels : ∀ price, checkLevels p bar ≠ some (.timeout, price) := by
    intro price hlevels
    simp only [checkLevels] at hlevels
    split at hlevels
    · cases hlevels
    · obtain ⟨_, _, htarget⟩ := Option.map_eq_some_iff.mp hlevels
      cases htarget
  unfold checkExit at h
  split at h
  · split at h <;> cases h
  · split at h
    · next hit => exact absurd (hit.trans h) (hlevels exitPrice)
    · split at h
      · next hcount => exact hcount.2
      · cases h

theorem barsHeld_lt_of_counted {p : PositionState} {barsHeld : ℕ} {approvedSide : Option Side}
    (h : engine.checkExit p bar barsHeld approvedSide true = none) :
    barsHeld < engine.config.maxBarsInTrade := by
  cases approvedSide with
  | none => exact barsHeld_lt_of_kept h
  | some side => exact barsHeld_lt_of_kept h

end Events

/-! ## The log and the book -/

namespace Book

variable {fillModel : FillModel} {config : ValidationExecutionConfig} {log : List Deal} {b : Book}
  {c : EventCtx} {bar : Bar}

/-- The deals so far are lawful and tell of the open positions: each of them has been opened on the
terms it has now, has not been closed, and has been held for fewer bars than the limit. -/
structure Tells (fillModel : FillModel) (config : ValidationExecutionConfig) (log : List Deal)
    (b : Book) : Prop where
  model_eq : b.engine.fillModel = fillModel
  config_eq : b.engine.config = config
  lawful : Follows (Deal.Lawful fillModel config) log
  drawn : ∀ d ∈ log, d.positionId < b.uuid
  opened : ∀ p ∈ b.stateStore.portfolio.openPositions, ∃ time q,
    .opened p.positionId p.symbol time q ∈ log ∧ q.unmarked = p.unmarked
  unclosed : ∀ p ∈ b.stateStore.portfolio.openPositions, ∀ d ∈ log,
    d.closedId? ≠ some p.positionId
  below : ∀ p ∈ b.stateStore.portfolio.openPositions,
    b.engine.positionBars.getD p.positionId 0 < config.maxBarsInTrade
  nodup : b.stateStore.openIds.Nodup

namespace Tells

theorem start (hmodel : b.engine.fillModel = fillModel) (hconfig : b.engine.config = config)
    (hs : b.stateStore.portfolio.openPositions = []) : Tells fillModel config [] b where
  model_eq := hmodel
  config_eq := hconfig
  lawful := .nil
  drawn := List.forall_mem_nil _
  opened := hs ▸ List.forall_mem_nil _
  unclosed := hs ▸ List.forall_mem_nil _
  below := hs ▸ List.forall_mem_nil _
  nodup := by rw [openIds, hs]; exact List.nodup_nil

theorem draw {u : ℕ} (hle : b.uuid ≤ u) (h : Tells fillModel config log b) :
    Tells fillModel config log { b with uuid := u } :=
  { h with drawn := fun d hd => (h.drawn d hd).trans_le hle }

theorem queue {entries : List PendingEntry} (h : Tells fillModel config log b) :
    Tells fillModel config log { b with engine := { b.engine with pendingEntries := entries } } :=
  { h with }

/-- Bookkeeping changes the mark of a position at most. -/
theorem books {t : StateTransitionEvent} (ht : PlatformRuntime.bookkeeping t.payload = true)
    (h : Tells fillModel config log b) :
    Tells fillModel config log { b with stateStore := b.stateStore.apply t } := by
  have hsame : ∀ p ∈ (b.stateStore.apply t).portfolio.openPositions,
      ∃ q ∈ b.stateStore.portfolio.openPositions, q.unmarked = p.unmarked := by
    intro p hp
    cases hpay : t.payload with
    | riskUpdated updates =>
      rw [apply_riskUpdated hpay] at hp
      exact ⟨p, hp, rfl⟩
    | markToMarket prices =>
      rw [apply_markToMarket hpay] at hp
      obtain ⟨q, hq, rfl⟩ := List.mem_map.mp hp
      refine ⟨q, hq, ?_⟩
      unfold revalue
      split <;> rfl
    | _ =>
      rw [hpay] at ht
      cases ht
  have hids : (b.stateStore.apply t).openIds = b.stateStore.openIds := by
    cases hpay : t.payload with
    | riskUpdated updates =>
      rw [apply_riskUpdated hpay]
      rfl
    | markToMarket prices =>
      rw [apply_markToMarket hpay]
      exact openIds_applyMarkToMarket _ _
    | _ =>
      rw [hpay] at ht
      cases ht
  refine { h with opened := ?_, unclosed := ?_, below := ?_, nodup := hids ▸ h.nodup }
  · intro p hp
    obtain ⟨q, hq, hqp⟩ := hsame p hp
    obtain ⟨time, r, hr, hrq⟩ := h.opened q hq
    obtain ⟨hid, hsym, -⟩ := PositionState.terms_eq hqp
    exact ⟨time, r, hid ▸ hsym ▸ hr, hrq.trans hqp⟩
  · intro p hp
    obtain ⟨q, hq, hqp⟩ := hsame p hp
    obtain ⟨hid, -⟩ := PositionState.terms_eq hqp
    exact hid ▸ h.unclosed q hq
  · intro p hp
    obtain ⟨q, hq, hqp⟩ := hsame p hp
    obtain ⟨hid, -⟩ := PositionState.terms_eq hqp
    exact hid ▸ h.below q hq

/-- A position of the log has an id that has been drawn. -/
theorem lt_uuid (h : Tells fillModel config log b) {p : PositionState}
    (hp : p ∈ b.stateStore.portfolio.openPositions) : p.positionId < b.uuid := by
  obtain ⟨time, q, hq, -⟩ := h.opened p hp
  exact h.drawn _ hq

section Fills

variable {order : Order} {quantity : ℚ} {side : Side} {positionSide : PositionSide}
  {stopLoss takeProfit : ℚ} {cause : Option ℕ} {next : Bool} {p : PositionState} {exitPrice : ℚ}
  {exitReason : ExitReason} {incrementBars : Bool} {filled : Filled × ℕ}

theorem «open» (h : Tells fillModel config log b)
    (hfilled : b.engine.openPosition order quantity side positionSide stopLoss takeProfit bar c
      cause next b.uuid = filled) :
    Tells fillModel config (log ++ deals filled.1.events)
      ⟨filled.1.engine, b.stateStore.apply filled.1.transition, filled.2⟩ := by
  subst hfilled
  set filled := b.engine.openPosition order quantity side positionSide stopLoss takeProfit bar c
    cause next b.uuid with hfilled
  obtain ⟨fill, -, -, hpay⟩ := openPosition_payload b.engine order quantity side positionSide
    stopLoss takeProfit bar c cause next b.uuid
  let opened := entryPosition (b.engine.openedId b.uuid) quantity
    (b.engine.fillPrice bar side next) positionSide stopLoss takeProfit c
  have hlog : deals filled.1.events =
      [.opened (b.engine.openedId b.uuid) c.symbol c.eventTime opened] := deals_openPosition
  have hlt : b.engine.openedId b.uuid < filled.2 := openedId_lt
  have hle : b.uuid ≤ b.engine.openedId b.uuid := le_openedId
  have hbars : filled.1.engine.positionBars =
      b.engine.positionBars.set (b.engine.openedId b.uuid) 0 := positionBars_openPosition
  have hopen : (b.stateStore.apply filled.1.transition).portfolio.openPositions =
      b.stateStore.portfolio.openPositions ++ [opened] := by
    rw [apply_positionOpened hpay]
    rfl
  have hfresh : ∀ p ∈ b.stateStore.portfolio.openPositions,
      b.engine.openedId b.uuid ≠ p.positionId :=
    fun p hp => ((h.lt_uuid hp).trans_le hle).ne'
  rw [hlog]
  refine ⟨h.model_eq, h.config_eq, ?_, ?_, ?_, ?_, ?_, ?_⟩
  · exact h.lawful.concat ⟨rfl, rfl, rfl, fun d hd => ((h.drawn d hd).trans_le hle).ne⟩
  · intro d hd
    rcases List.mem_append.mp hd with hd | hd
    · exact (h.drawn d hd).trans (hle.trans_lt hlt)
    · rw [List.mem_singleton.mp hd]
      exact hlt
  · intro p hp
    rcases List.mem_append.mp (hopen ▸ hp) with hp | hp
    · obtain ⟨time, q, hq, hqp⟩ := h.opened p hp
      exact ⟨time, q, List.mem_append_left _ hq, hqp⟩
    · rw [List.mem_singleton.mp hp]
      exact ⟨c.eventTime, opened, List.mem_append_right _ (List.mem_singleton_self _), rfl⟩
  · intro p hp d hd
    rcases List.mem_append.mp hd with hd | hd
    · rcases List.mem_append.mp (hopen ▸ hp) with hp | hp
      · exact h.unclosed p hp d hd
      · rw [List.mem_singleton.mp hp]
        intro hclosed
        have hid : d.positionId = b.engine.openedId b.uuid := by
          cases d with
          | opened => cases hclosed
          | closed => exact Option.some.inj hclosed
        exact absurd (h.drawn d hd) (not_lt.mpr (hid ▸ hle))
    · rw [List.mem_singleton.mp hd]
      exact Option.some_ne_none _ ∘ Eq.symm
  · intro p hp
    change filled.1.engine.positionBars.getD p.positionId 0 < _
    rw [hbars]
    rcases List.mem_append.mp (hopen ▸ hp) with hp | hp
    · rw [Dict.getD, Dict.get?_set_of_ne (hfresh p hp)]
      exact h.below p hp
    · rw [List.mem_singleton.mp hp, Dict.getD]
      change Option.getD (Dict.get? _ (b.engine.openedId b.uuid)) 0 < _
      rw [Dict.get?_set_self]
      exact config.maxBarsInTrade_ge
  · rw [openIds, hopen, List.map_append]
    refine List.nodup_append.mpr ⟨h.nodup, List.nodup_singleton _, ?_⟩
    rintro id hid _ hnew rfl
    obtain ⟨p, hp, rfl⟩ := List.mem_map.mp hid
    exact hfresh p hp (List.mem_singleton.mp hnew).symm

/-- The bar is counted for a position that the exit test keeps. -/
theorem countBar (h : Tells fillModel config log b)
    (hlt : b.engine.barsHeld p incrementBars < config.maxBarsInTrade) :
    Tells fillModel config log { b with engine := b.engine.countBar p incrementBars } := by
  have hqueue : SameQueue b.engine (b.engine.countBar p incrementBars) := sameQueue_countBar
  refine { h with
    model_eq := hqueue.fillModel.trans h.model_eq
    config_eq := hqueue.config.trans h.config_eq
    below := fun q hq => ?_ }
  by_cases hid : q.positionId = p.positionId
  · change (b.engine.countBar p incrementBars).positionBars.getD q.positionId 0 < _
    rw [hid, getD_countBar]
    exact hlt
  · change (b.engine.countBar p incrementBars).positionBars.getD q.positionId 0 < _
    rw [Dict.getD, get?_countBar_of_ne hid]
    exact h.below q hq

/-- A position is closed on the bar that has been counted for it. -/
theorem close (h : Tells fillModel config log b)
    (isOpen : p ∈ b.stateStore.portfolio.openPositions) (hsym : p.symbol = c.symbol)
    (htimeout : exitReason = .timeout →
      config.maxBarsInTrade ≤ b.engine.barsHeld p incrementBars)
    (hfilled : (b.engine.countBar p incrementBars).closePosition p exitPrice exitReason c b.uuid =
      filled) :
    Tells fillModel config (log ++ deals filled.1.events)
      ⟨filled.1.engine, b.stateStore.apply filled.1.transition, filled.2⟩ := by
  have hqueue : SameQueue b.engine (b.engine.countBar p incrementBars) := sameQueue_countBar
  have hle : b.uuid < filled.2 := hfilled ▸ lt_closePosition_uuid
  subst hfilled
  set filled := (b.engine.countBar p incrementBars).closePosition p exitPrice exitReason c b.uuid
    with hfilled
  obtain ⟨fill, -, -, hpay⟩ := closePosition_payload (b.engine.countBar p incrementBars) c b.uuid p
    exitPrice exitReason
  obtain ⟨fillId, hlog⟩ := @deals_closePosition (b.engine.countBar p incrementBars) c b.uuid p
    exitPrice exitReason
  obtain ⟨time, q, hq, hqp⟩ := h.opened p isOpen
  have hremain : ∀ r ∈ (b.stateStore.apply filled.1.transition).portfolio.openPositions,
      r ∈ b.stateStore.portfolio.openPositions ∧ r.positionId ≠ p.positionId := by
    intro r hr
    rw [apply_positionClosed hpay, openPositions_applyPositionClosed] at hr
    exact Keyed.mem_remove.mp hr
  rw [hlog]
  refine ⟨hqueue.fillModel.trans h.model_eq, hqueue.config.trans h.config_eq, ?_, ?_, ?_, ?_, ?_,
    ?_⟩
  · refine h.lawful.concat ⟨h.unclosed p isOpen, time, q, hsym ▸ hq, ?_⟩
    obtain ⟨-, -, hside, hquantity, hentry, hstop, htake⟩ := PositionState.terms_eq hqp
    have hbars : (b.engine.countBar p incrementBars).positionBars.getD p.positionId 0 =
        b.engine.barsHeld p incrementBars := getD_countBar b.engine p incrementBars
    have hle : b.engine.barsHeld p incrementBars ≤ config.maxBarsInTrade := by
      have hbelow := h.below p isOpen
      unfold barsHeld
      split <;> omega
    refine ⟨hentry.symm, hside.symm, hquantity.symm, hstop.symm, htake.symm, ?_, ?_, ?_⟩
    · have hgross : q.grossPnl exitPrice = p.grossPnl exitPrice := by
        rw [PositionState.grossPnl, PositionState.grossPnl, hside, hentry, hquantity]
      change (b.engine.countBar p incrementBars).netPnl p exitPrice = _
      rw [hgross, netPnl, fee, hqueue.fillModel, h.model_eq]
    · exact hbars.trans_le hle
    · exact fun hreason => hbars.trans (le_antisymm hle (htimeout hreason))
  · intro d hd
    rcases List.mem_append.mp hd with hd | hd
    · exact (h.drawn d hd).trans hle
    · rw [List.mem_singleton.mp hd]
      exact (h.lt_uuid isOpen).trans hle
  · intro r hr
    obtain ⟨time, q, hq, hqp⟩ := h.opened r (hremain r hr).1
    exact ⟨time, q, List.mem_append_left _ hq, hqp⟩
  · intro r hr d hd
    rcases List.mem_append.mp hd with hd | hd
    · exact h.unclosed r (hremain r hr).1 d hd
    · rw [List.mem_singleton.mp hd]
      exact fun hid => (hremain r hr).2 (Option.some.inj hid).symm
  · intro r hr
    obtain ⟨hopen, hne⟩ := hremain r hr
    change filled.1.engine.positionBars.getD r.positionId 0 < _
    rw [Dict.getD, get?_closePosition_of_ne hne, get?_countBar_of_ne hne]
    exact h.below r hopen
  · rw [apply_positionClosed hpay, openIds_applyPositionClosed]
    exact h.nodup.filter _

end Fills

/-! ## The passes -/

variable {approvedSide : Option Side} {incrementBars : Bool} {exitPrice : ℚ}

theorem fillEntries (entries : List PendingEntry) (h : Tells fillModel config log b) :
    let pass := SimulatedExecutionEngine.fillEntries bar c b.engine entries b.uuid
    Tells fillModel config (log ++ deals pass.1.events) (b.after pass) := by
  induction entries generalizing log b with
  | nil =>
    rw [← List.append_nil log] at h
    exact h
  | cons pending rest ih =>
    by_cases hsym : pending.symbol = c.symbol
    · let filled := b.engine.fillPending pending bar c b.uuid
      have hpass := ih (h.open (rfl : _ = filled))
      rw [fillEntries_cons_of_eq hsym]
      simp only [Pass.append, Filled.toPass, deals_append]
      rw [← List.append_assoc]
      exact hpass
    · rw [fillEntries_cons_of_ne hsym]
      exact ih h

/-- The exits of a pass over positions that are open and distinct. -/
theorem evaluatePositions (positions : List PositionState) (h : Tells fillModel config log b)
    (hnd : (positions.map (·.positionId)).Nodup)
    (hopen : ∀ p ∈ positions, p ∈ b.stateStore.portfolio.openPositions) :
    let pass := SimulatedExecutionEngine.evaluatePositions bar c approvedSide incrementBars b.engine
      positions b.uuid
    Tells fillModel config (log ++ deals pass.1.events) (b.after pass) := by
  induction positions generalizing log b with
  | nil =>
    rw [← List.append_nil log] at h
    exact h
  | cons position rest ih =>
    have hrest : (rest.map (·.positionId)).Nodup := (List.nodup_cons.mp hnd).2
    have isOpen := hopen position List.mem_cons_self
    by_cases hsym : position.symbol = c.symbol
    · have hqueue : SameQueue b.engine (b.engine.countBar position incrementBars) :=
        sameQueue_countBar
      cases hexit : (b.engine.countBar position incrementBars).checkExit position bar
          (b.engine.barsHeld position incrementBars) approvedSide incrementBars with
      | none =>
        have hlt : b.engine.barsHeld position incrementBars < config.maxBarsInTrade := by
          cases incrementBars with
          | false => exact h.below position isOpen
          | true =>
            rw [← h.config_eq, ← hqueue.config]
            exact barsHeld_lt_of_counted hexit
        rw [evaluatePositions_cons_of_none hsym hexit]
        exact ih (h.countBar hlt) hrest fun p hp => hopen p (List.mem_cons_of_mem _ hp)
      | some exit =>
        obtain ⟨exitReason, exitPrice⟩ := exit
        let filled := (b.engine.countBar position incrementBars).closePosition position exitPrice
          exitReason c b.uuid
        have htimeout : exitReason = .timeout →
            config.maxBarsInTrade ≤ b.engine.barsHeld position incrementBars := by
          rintro rfl
          rw [← h.config_eq, ← hqueue.config]
          exact le_barsHeld_of_timeout hexit
        have hpass := ih (h.close isOpen hsym htimeout (rfl : _ = filled)) hrest
          (visit_rest hnd hopen)
        rw [evaluatePositions_cons_of_some hsym hexit]
        simp only [Pass.append, Filled.toPass, deals_append]
        rw [← List.append_assoc]
        exact hpass
    · rw [evaluatePositions_cons_of_ne hsym]
      exact ih h hrest fun p hp => hopen p (List.mem_cons_of_mem _ hp)

/-- The exits of a liquidation. -/
theorem closeAll (positions : List PositionState) (h : Tells fillModel config log b)
    (hnd : (positions.map (·.positionId)).Nodup)
    (hopen : ∀ p ∈ positions, p ∈ b.stateStore.portfolio.openPositions) :
    let pass := SimulatedExecutionEngine.closeAll exitPrice c b.engine positions b.uuid
    Tells fillModel config (log ++ deals pass.1.events) (b.after pass) := by
  induction positions generalizing log b with
  | nil =>
    rw [← List.append_nil log] at h
    exact h
  | cons position rest ih =>
    have hrest : (rest.map (·.positionId)).Nodup := (List.nodup_cons.mp hnd).2
    by_cases hsym : position.symbol = c.symbol
    · let filled := b.engine.closePosition position exitPrice .endOfRun c b.uuid
      have htimeout : ExitReason.endOfRun = .timeout →
          config.maxBarsInTrade ≤ b.engine.barsHeld position false := by
        intro hreason
        cases hreason
      have hclosed : Tells fillModel config (log ++ deals filled.1.events)
          ⟨filled.1.engine, b.stateStore.apply filled.1.transition, filled.2⟩ :=
        h.close (hopen position List.mem_cons_self) hsym htimeout rfl
      have hpass := ih hclosed hrest (visit_rest hnd hopen)
      rw [closeAll_cons_of_eq hsym]
      simp only [Pass.append, Filled.toPass, deals_append]
      rw [← List.append_assoc]
      exact hpass
    · rw [closeAll_cons_of_ne hsym]
      exact ih h hrest fun p hp => hopen p (List.mem_cons_of_mem _ hp)

/-- A pass on a snapshot of the store. -/
theorem evaluateBar (h : Tells fillModel config log b) {snapshot : StateSnapshot}
    (hsnap : snapshot.portfolio = b.stateStore.portfolio) :
    let pass := b.engine.evaluateBar bar snapshot c approvedSide incrementBars b.uuid
    Tells fillModel config (log ++ deals pass.1.events) (b.after pass) := by
  have hnd : (snapshot.portfolio.openPositions.map (·.positionId)).Nodup := by
    rw [hsnap]
    exact h.nodup
  intro pass
  cases incrementBars with
  | false =>
    let exits := SimulatedExecutionEngine.evaluatePositions bar c approvedSide false b.engine
      snapshot.portfolio.openPositions b.uuid
    have hexits : Tells fillModel config (log ++ deals exits.1.events) (b.after exits) :=
      h.evaluatePositions _ hnd fun p hp => hsnap ▸ hp
    change Tells fillModel config (log ++ deals (b.engine.filterEvents ([] ++ exits.1.events)))
      (b.after exits)
    rw [deals_filterEvents]
    exact hexits
  | true =>
    let filled := SimulatedExecutionEngine.fillEntries bar c b.engine b.engine.pendingEntries b.uuid
    have hfilled : Tells fillModel config (log ++ deals filled.1.events) (b.after filled) :=
      h.fillEntries b.engine.pendingEntries
    have hopenings : ∀ t ∈ filled.1.transitions, t.IsOpening := fun t ht =>
      ((fillEntries_spec bar c b.engine.pendingEntries b.engine b.uuid).1.isOpening.2 t ht).1
    let drained : Book := { b.after filled with engine := { filled.1.engine with
      pendingEntries := b.engine.pendingEntries.filter (·.symbol ≠ c.symbol) } }
    let exits := SimulatedExecutionEngine.evaluatePositions bar c approvedSide true drained.engine
      snapshot.portfolio.openPositions drained.uuid
    have hdrained : Tells fillModel config (log ++ deals filled.1.events) drained := hfilled.queue
    have hexits : Tells fillModel config (log ++ deals filled.1.events ++ deals exits.1.events)
        (drained.after exits) :=
      hdrained.evaluatePositions _ hnd fun p hp => mem_of_openings hopenings (hsnap ▸ hp)
    have hafter : b.after pass = drained.after exits := by
      change Book.mk _ (Run.exec _ _ (filled.1.transitions ++ exits.1.transitions)) _ = _
      rw [Run.exec_append]
      rfl
    have hevents : deals pass.1.events = deals filled.1.events ++ deals exits.1.events := by
      change deals (b.engine.filterEvents (b.engine.filterEvents filled.1.events ++
        exits.1.events)) = _
      rw [deals_filterEvents, deals_append, deals_filterEvents]
    rw [hafter, hevents, ← List.append_assoc]
    exact hexits

/-- An execution that does not raise opens one position at most. -/
theorem execute (h : Tells fillModel config log b) {decision : Decision}
    {snapshot : StateSnapshot} {pass : Pass} {u : ℕ}
    (hrun : b.engine.execute decision snapshot bar c b.uuid = (.ok pass, u)) :
    Tells fillModel config (log ++ deals pass.events) (b.after (pass, u)) := by
  have hbuilt := (orderEvents_execute hrun).builtFor
  have hreports : Reports c.eventTime pass.events pass.transitions := execute_reported hrun
  obtain ⟨hle, hcases⟩ := execute_cases hrun
  have hidle : ∀ {entries : List PendingEntry}, pass.transitions = [] →
      pass.engine = { b.engine with pendingEntries := entries } →
      Tells fillModel config (log ++ deals pass.events) (b.after (pass, u)) := by
    intro entries hts hengine
    have hnone : deals pass.events = [] := by
      refine deals_eq_nil ?_
      rw [hreports.trades, hts]
      rfl
    have hafter : b.after (pass, u) =
        ⟨{ b.engine with pendingEntries := entries }, b.stateStore, u⟩ := by
      rw [after, hts, hengine]
      rfl
    rw [hafter, hnone, List.append_nil]
    exact (h.draw hle).queue
  rcases hcases pass rfl with ⟨hts, hengine⟩ |
    ⟨signal, intent, event, _, u₁, hle₁, _, _, _, _, _, _, _, hsubmit⟩
  · exact hidle hts hengine
  by_cases hfill : b.engine.fillModel.fillAt = .nextOpen
  · obtain ⟨pending, hts, hengine, _⟩ :=
      submitOrder_queued bar c u₁ decision signal intent event hfill
    rw [← hsubmit] at hts hengine
    exact hidle hts hengine
  · obtain ⟨order, cause, u₂, hle₂, hts, hengine, hu⟩ :=
      submitOrder_filled bar c u₁ decision signal intent event hfill
    rw [← hsubmit] at hts hengine hu
    replace hu : u = _ := hu
    let filled := b.engine.openPosition order intent.quantity signal.side (entrySide signal.side)
      signal.stopLoss signal.takeProfit bar c cause false u₂
    obtain ⟨fill, -, -, hpay⟩ := openPosition_payload b.engine order intent.quantity signal.side
      (entrySide signal.side) signal.stopLoss signal.takeProfit bar c cause false u₂
    have hmade : madeTrades pass.transitions = [.opened (b.engine.openedId u₂) (entryPosition
        (b.engine.openedId u₂) intent.quantity (b.engine.fillPrice bar signal.side false)
        (entrySide signal.side) signal.stopLoss signal.takeProfit c)] := by
      rw [hts, madeTrades, List.filterMap_cons, hpay]
      rfl
    have hevents : deals pass.events = deals filled.1.events :=
      (deals_of_opened hbuilt (hreports.trades.trans hmade)).trans deals_openPosition.symm
    have hafter : b.after (pass, u) =
        ⟨filled.1.engine, b.stateStore.apply filled.1.transition, filled.2⟩ := by
      rw [after, hts, hengine, hu]
      rfl
    rw [hafter, hevents]
    exact (h.draw (hle₁.trans hle₂)).open rfl

theorem kept : PlatformRuntime.KeptByPasses EventEnvelope.deal? (Tells fillModel config) where
  own e hown := by
    refine deal?_eq_none.mpr ?_
    unfold EventEnvelope.eventType at hown
    cases hpay : e.payload with
    | positionOpened => simp [hpay, Payload.eventType, PlatformRuntime.ownTypes] at hown
    | positionClosed => simp [hpay, Payload.eventType, PlatformRuntime.ownTypes] at hown
    | _ => rfl
  draw hle h := h.draw hle
  books ht h := h.books ht
  evaluate hsnap h := h.evaluateBar hsnap
  execute hrun h := h.execute hrun
  closeAll h := h.closeAll _ h.nodup fun _ hp => hp

end Tells

end Book

/-- In every run of cycles that return and of liquidations the deals reported are lawful. -/
theorem deals_lawful {setup : RuntimeSetup} {ops : List PlatformRuntime.RuntimeOp}
    (execution : ExecutionSetup) (hexecution : setup.execution = some execution)
    (hreturns : Run.Along PlatformRuntime.operate PlatformRuntime.Returns setup.start ops) :
    Follows (Deal.Lawful execution.fillModel execution.config)
      (deals (setup.after ops).published) := by
  have hlogging := PlatformRuntime.logging_of_passes
    (P := Book.Tells execution.fillModel execution.config) Book.Tells.kept ?_ hreturns
  · cases hengine : (setup.after ops).executionEngine with
    | none =>
      have hnil : deals (setup.after ops).published = [] := hlogging.silent hengine
      rw [hnil]
      exact .nil
    | some engine => exact (hlogging.book engine hengine).lawful
  · intro engine hengine
    rw [RuntimeSetup.start, hexecution] at hengine
    obtain rfl := Option.some.inj hengine
    exact .start rfl rfl rfl

end TradingPlatform
