import TradingPlatform.Validation.Ledgers
import TradingPlatform.Validation.Regimes

/-!
# Round trips

The fee of an entry is taken from the cash when the position is opened; the fee of the exit is taken
from the result when it is closed. The result that is booked and reported for the position is
therefore larger than the change of the cash over the round trip, by the fee of the entry.
-/

namespace TradingPlatform

open InMemoryStateStore

/-- A position that a run of transitions opens and, later, closes. -/
structure RoundTrip (ts : List StateTransitionEvent) where
  before : List StateTransitionEvent
  opening : StateTransitionEvent
  between : List StateTransitionEvent
  closing : StateTransitionEvent
  after : List StateTransitionEvent
  position : PositionState
  entry : Fill
  cost : ℚ
  exit : Fill
  pnl : ℚ
  reason : ExitReason
  split : ts = before ++ opening :: (between ++ closing :: after)
  opened : opening.payload = .positionOpened position entry cost
  closed : closing.payload = .positionClosed position.positionId exit pnl reason
  first : position.positionId ∉ closedIds between

/-- The positions agree but for the mark. -/
structure PositionState.SameEntry (p q : PositionState) : Prop where
  positionId : q.positionId = p.positionId
  side : q.side = p.side
  quantity : q.quantity = p.quantity
  entryPrice : q.entryPrice = p.entryPrice

namespace PositionState.SameEntry

variable {p q : PositionState}

theorem refl (p : PositionState) : p.SameEntry p := ⟨rfl, rfl, rfl, rfl⟩

theorem revalue (h : p.SameEntry q) (prices : List (String × ℚ)) :
    p.SameEntry (InMemoryStateStore.revalue prices q) := by
  unfold InMemoryStateStore.revalue
  split
  · exact h
  · exact ⟨h.positionId, h.side, h.quantity, h.entryPrice⟩

theorem notional (h : p.SameEntry q) : q.notional = p.notional := by
  rw [PositionState.notional, PositionState.notional, h.entryPrice, h.quantity]

theorem grossPnl (h : p.SameEntry q) (price : ℚ) : q.grossPnl price = p.grossPnl price := by
  rw [PositionState.grossPnl, PositionState.grossPnl, h.side, h.entryPrice, h.quantity]

end PositionState.SameEntry

/-! ## Between the opening and the close -/

section Between

variable {s : InMemoryStateStore} {t : StateTransitionEvent} {p : PositionState}

/-- The position is open, perhaps with another mark. -/
def InMemoryStateStore.Holds (p : PositionState) (s : InMemoryStateStore) : Prop :=
  ∃ q ∈ s.portfolio.openPositions, p.SameEntry q

/-- An open position stays open until it is closed. -/
theorem InMemoryStateStore.Holds.step (h : s.Holds p) (ht : Produced s t.payload)
    (hopen : t.closedId? ≠ some p.positionId) : (s.apply t).Holds p := by
  obtain ⟨q, hq, hsame⟩ := h
  cases hpay : t.payload with
  | positionOpened p' fill cost =>
    rw [apply_positionOpened hpay]
    exact ⟨q, List.mem_append_left _ hq, hsame⟩
  | positionClosed id fill pnl reason =>
    rw [apply_positionClosed hpay]
    refine ⟨q, List.mem_filter.mpr ⟨hq, decide_eq_true ?_⟩, hsame⟩
    rintro rfl
    rw [StateTransitionEvent.closedId?, hpay, hsame.positionId] at hopen
    exact hopen rfl
  | markToMarket prices =>
    rw [apply_markToMarket hpay]
    exact ⟨revalue prices q, List.mem_map_of_mem hq, hsame.revalue prices⟩
  | riskUpdated u =>
    rw [apply_riskUpdated hpay]
    exact ⟨q, hq, hsame⟩
  | portfolioUpdated u =>
    rw [hpay] at ht
    cases ht

theorem InMemoryStateStore.Holds.exec {ts : List StateTransitionEvent} (h : s.Holds p)
    (hts : s.ProducedFrom ts) (hopen : p.positionId ∉ closedIds ts) :
    (Run.exec InMemoryStateStore.apply s ts).Holds p := by
  have hnever : ∀ t ∈ ts, t.closedId? ≠ some p.positionId := fun t ht hid =>
    hopen (List.mem_filterMap.mpr ⟨t, ht, hid⟩)
  exact Run.Along.exec_inv (hts.and (Run.along_of_forall fun t ht _ => hnever t ht))
    (fun s t hholds ht => hholds.step ht.1 ht.2) h

end Between

/-! ## What a round trip does to the books -/

namespace RoundTrip

variable {ts : List StateTransitionEvent} (s₀ : InMemoryStateStore) (trip : RoundTrip ts)

/-- The store that the position is opened in. -/
def opensIn : InMemoryStateStore := Run.exec InMemoryStateStore.apply s₀ trip.before

/-- The store that the position is closed in. -/
def closesIn : InMemoryStateStore :=
  Run.exec InMemoryStateStore.apply ((trip.opensIn s₀).apply trip.opening) trip.between

/-- The change of the cash at the opening and at the close. -/
def cashChange : ℚ :=
  (((trip.opensIn s₀).apply trip.opening).portfolio.cash - (trip.opensIn s₀).portfolio.cash) +
    (((trip.closesIn s₀).apply trip.closing).portfolio.cash - (trip.closesIn s₀).portfolio.cash)

/-- What the close adds to the realised result. -/
def booked : ℚ := ((trip.closesIn s₀).apply trip.closing).portfolio.realizedPnl -
  (trip.closesIn s₀).portfolio.realizedPnl

variable {s₀}

theorem producedFrom (h : s₀.ProducedFrom ts) :
    s₀.ProducedFrom trip.before ∧ Produced (trip.opensIn s₀) trip.opening.payload ∧
      ((trip.opensIn s₀).apply trip.opening).ProducedFrom trip.between ∧
      Produced (trip.closesIn s₀) trip.closing.payload := by
  have hsplit : s₀.ProducedFrom (trip.before ++ trip.opening :: (trip.between ++
      trip.closing :: trip.after)) := trip.split ▸ h
  obtain ⟨hbefore, hopening, hrest⟩ := Run.along_append.mp hsplit
  obtain ⟨hbetween, hclosing, -⟩ := Run.along_append.mp hrest
  exact ⟨hbefore, hopening, hbetween, hclosing⟩

/-- The position is open when it is closed, and no other has its id. -/
theorem holds_closesIn {initialCash : ℚ} (hs₀ : Audited initialCash s₀ {})
    (h : s₀.ProducedFrom ts) : (trip.closesIn s₀).Holds trip.position ∧
      (trip.closesIn s₀).openIds.Nodup := by
  obtain ⟨hbefore, hopening, hbetween, -⟩ := trip.producedFrom h
  have hopened : ((trip.opensIn s₀).apply trip.opening).Holds trip.position := by
    rw [apply_positionOpened trip.opened]
    exact ⟨trip.position, List.mem_append_right _ (List.mem_singleton_self _), .refl _⟩
  exact ⟨hopened.exec hbetween trip.first,
    (((hs₀.recordAll hbefore).step hopening).recordAll hbetween).nodup⟩

theorem opening_mem (trip : RoundTrip ts) : trip.opening ∈ ts := by
  have hmem : ∀ t ∈ trip.before ++ trip.opening :: (trip.between ++ trip.closing :: trip.after),
      t ∈ ts := fun t ht => trip.split ▸ ht
  exact hmem _ (List.mem_append_right _ (List.mem_cons_self ..))

theorem booked_eq (trip : RoundTrip ts) : trip.booked s₀ = trip.pnl := by
  rw [booked, apply_positionClosed trip.closed]
  exact add_sub_cancel_left _ _

/-- The cash changes by the booked result, less the fee of the entry. -/
theorem cashChange_eq {initialCash : ℚ} (hs₀ : Audited initialCash s₀ {})
    (h : s₀.ProducedFrom ts) : trip.cashChange s₀ = trip.pnl - trip.entry.fee := by
  obtain ⟨-, hopening, -⟩ := trip.producedFrom h
  obtain ⟨⟨q, hq, hsame⟩, hnodup⟩ := trip.holds_closesIn hs₀ h
  have hcost : trip.cost = trip.position.notional + trip.entry.fee := by
    rw [trip.opened] at hopening
    generalize trip.cost = cost at hopening ⊢
    cases hopening
    rfl
  have hout : ((trip.opensIn s₀).apply trip.opening).portfolio.cash =
      (trip.opensIn s₀).portfolio.cash - trip.cost := by
    rw [apply_positionOpened trip.opened]
    rfl
  have hin : ((trip.closesIn s₀).apply trip.closing).portfolio.cash =
      (trip.closesIn s₀).portfolio.cash + trip.pnl + trip.position.notional := by
    rw [apply_positionClosed trip.closed, ← hsame.positionId,
      cash_applyPositionClosed hnodup hq, hsame.notional]
  rw [cashChange, hout, hin, hcost]
  ring

/-- The booked result leaves the fee of the entry out. -/
theorem pnl_eq {initialCash : ℚ} (hs₀ : Audited initialCash s₀ {}) (h : s₀.ProducedFrom ts) :
    trip.pnl = trip.position.grossPnl trip.exit.price - trip.exit.fee := by
  obtain ⟨-, -, -, hclosing⟩ := trip.producedFrom h
  obtain ⟨⟨q, hq, hsame⟩, hnodup⟩ := trip.holds_closesIn hs₀ h
  rw [trip.closed] at hclosing
  generalize hid : trip.position.positionId = id at hclosing
  generalize hpnl : trip.pnl = pnl at hclosing ⊢
  cases hclosing with
  | @positionClosed p _ _ hp =>
    have heq : p = q :=
      Keyed.eq_of_key_eq hnodup hp hq (hid.symm.trans hsame.positionId.symm)
    rw [heq, hsame.grossPnl]

end RoundTrip

/-! ## The fees of the entries -/

/-- An entry is charged `feeBps` of its notional. -/
def StateTransitionEvent.ChargesEntry (feeBps : ℚ) (t : StateTransitionEvent) : Prop :=
  ∀ p fill cost, t.payload = .positionOpened p fill cost → fill.fee = p.notional * feeBps / 10000

theorem StateTransitionEvent.chargesEntry_of_not_opening {feeBps : ℚ} {t : StateTransitionEvent}
    (h : ¬ t.IsOpening) : t.ChargesEntry feeBps :=
  fun p fill cost hpay => absurd ⟨p, fill, cost, hpay⟩ h

theorem StateTransitionEvent.IsClosing.not_isOpening {t : StateTransitionEvent}
    (h : t.IsClosing) : ¬ t.IsOpening := by
  rintro ⟨p, fill, cost, hopened⟩
  obtain ⟨id, fill', pnl, reason, hclosed⟩ := h
  cases hopened.symm.trans hclosed

theorem StateTransitionEvent.IsBookkeeping.not_isOpening {t : StateTransitionEvent}
    (h : t.IsBookkeeping) : ¬ t.IsOpening := by
  rintro ⟨p, fill, cost, hopened⟩
  rcases h with ⟨updates, hpay, -⟩ | ⟨prices, hpay⟩ <;> cases hopened.symm.trans hpay

namespace SimulatedExecutionEngine

theorem openPosition_chargesEntry {engine : SimulatedExecutionEngine} {order : Order}
    {quantity : ℚ} {side : Side} {positionSide : PositionSide} {stopLoss takeProfit : ℚ}
    {bar : Bar} {c : EventCtx} {cause : Option ℕ} {next : Bool} {u : ℕ} :
    (engine.openPosition order quantity side positionSide stopLoss takeProfit bar c cause next
      u).1.transition.ChargesEntry engine.fillModel.feeBps := by
  intro p fill cost hpay
  obtain ⟨fill', hfee, -, hpay'⟩ := openPosition_payload engine order quantity side positionSide
    stopLoss takeProfit bar c cause next u
  cases hpay.symm.trans hpay'
  exact hfee

theorem Fills.chargesEntry {fillModel : FillModel} {bar : Bar} {c : EventCtx} {u u' : ℕ}
    {entries : List PendingEntry} {ts : List StateTransitionEvent}
    (h : Fills fillModel bar c u entries ts u') : ∀ t ∈ ts, t.ChargesEntry fillModel.feeBps := by
  induction h with
  | nil => exact List.forall_mem_nil _
  | cons hfm _ ih =>
    refine List.forall_mem_cons.mpr ⟨?_, ih⟩
    rw [← hfm]
    exact openPosition_chargesEntry

/-- What `execute` opens it charges; the fill model stays. -/
theorem execute_chargesEntry {engine : SimulatedExecutionEngine} {decision : Decision}
    {snapshot : StateSnapshot} {bar : Bar} {c : EventCtx} {u u' : ℕ} {pass : Pass}
    (h : engine.execute decision snapshot bar c u = (.ok pass, u')) :
    pass.engine.fillModel = engine.fillModel ∧
      ∀ t ∈ pass.transitions, t.ChargesEntry engine.fillModel.feeBps := by
  rcases (execute_cases h).2 pass rfl with ⟨hnone, hsame⟩ |
    ⟨signal, intent, event, r, u₁, _, _, _, _, _, _, _, _, hsubmit⟩
  · rw [hnone, hsame]
    exact ⟨rfl, List.forall_mem_nil _⟩
  by_cases hfill : engine.fillModel.fillAt = .nextOpen
  · obtain ⟨pending, hts, hengine, _⟩ :=
      submitOrder_queued bar c u₁ decision signal intent event hfill
    rw [← hsubmit] at hts hengine
    rw [hengine, hts]
    exact ⟨rfl, List.forall_mem_nil _⟩
  · obtain ⟨order, cause, u₂, _, hts, hengine, _⟩ :=
      submitOrder_filled bar c u₁ decision signal intent event hfill
    rw [← hsubmit] at hts hengine
    rw [hengine, hts]
    exact ⟨rfl, List.forall_mem_singleton.mpr openPosition_chargesEntry⟩

end SimulatedExecutionEngine

/-- The basis points of the fee that the engine of the setup charges. -/
def RuntimeSetup.feeBps (setup : RuntimeSetup) : ℚ :=
  match setup.execution with
  | some execution => execution.fillModel.feeBps
  | none => 0

namespace PlatformRuntime

variable {rt rt' : PlatformRuntime} {feeBps : ℚ} {ctx : CycleCtx}

/-- The engine charges `feeBps`, and every entry so far has been charged them. -/
structure Charged (feeBps : ℚ) (rt : PlatformRuntime) : Prop where
  engine : ∀ engine, rt.executionEngine = some engine → engine.fillModel.feeBps = feeBps
  entries : ∀ t ∈ rt.transitions, t.ChargesEntry feeBps

theorem Charged.applied {ts : List StateTransitionEvent} (h : Charged feeBps rt)
    (happlied : Applied ts rt rt')
    (hengine : ∀ engine, rt'.executionEngine = some engine → engine.fillModel.feeBps = feeBps)
    (hts : ∀ t ∈ ts, t.ChargesEntry feeBps) : Charged feeBps rt' where
  engine := hengine
  entries := by
    rw [happlied.transitions]
    exact List.forall_mem_append.mpr ⟨h.entries, hts⟩

theorem Charged.books (h : Charged feeBps rt) (hbooks : Books rt rt')
    (hengine : rt'.executionEngine = rt.executionEngine) : Charged feeBps rt' := by
  obtain ⟨ts, happlied, hts⟩ := hbooks
  exact h.applied happlied (hengine ▸ h.engine) fun t ht =>
    StateTransitionEvent.chargesEntry_of_not_opening (hts t ht).not_isOpening

theorem Charged.quiet (h : Charged feeBps rt) (hquiet : Quiet rt rt') : Charged feeBps rt' :=
  h.books (.of_applied_nil hquiet.applied_nil) hquiet.executionEngine

/-- A pass of an engine with the fill model, whose transitions are then applied. -/
theorem Charged.pass (h : Charged feeBps rt) {engine : SimulatedExecutionEngine} {u : ℕ}
    {ts : List StateTransitionEvent} (hle : rt.uuid ≤ u)
    (hengine : engine.fillModel.feeBps = feeBps) (hts : ∀ t ∈ ts, t.ChargesEntry feeBps) :
    Charged feeBps ({ rt with uuid := u, executionEngine := some engine }.applyTransitions ts) := by
  refine h.applied (applied_of_engine hle) (fun engine' hsome => ?_) hts
  rw [executionEngine_applyTransitions] at hsome
  cases hsome
  exact hengine

theorem Charged.preDecisionEvaluate (h : Charged feeBps rt) :
    Charged feeBps (rt.preDecisionEvaluate ctx).2 := by
  cases hengine : rt.executionEngine with
  | none => rwa [preDecisionEvaluate_none hengine]
  | some engine =>
    obtain ⟨opens, closes, engine', u', ⟨⟨u₁, hfills, hexits⟩, hqueue⟩, -, hrt⟩ :=
      preDecisionEvaluate_some ctx hengine
    have hmodel := h.engine engine hengine
    rw [hrt]
    refine h.pass ((Nat.le_add_right _ 1).trans (hfills.le_uuid.trans hexits.le_uuid))
      (hqueue.fillModel ▸ hmodel) (List.forall_mem_append.mpr ⟨hmodel ▸ hfills.chargesEntry, ?_⟩)
    exact fun t ht =>
      StateTransitionEvent.chargesEntry_of_not_opening (hexits.isClosing t ht).1.not_isOpening

theorem Charged.sameBarExitAndExecute (h : Charged feeBps rt) (decision : Decision) :
    Charged feeBps (rt.sameBarExitAndExecute ctx decision).2 := by
  rcases sameBarExitAndExecute_cases rt ctx decision with hidle |
    ⟨engine, exits, engine', exited, hengine, ⟨u, u', hle, hclosed, hexited⟩, hqueue, hexecution⟩
  · rwa [hidle]
  · have hmodel : engine'.fillModel.feeBps = feeBps := hqueue.fillModel ▸ h.engine engine hengine
    have hexits : Charged feeBps exited := by
      rw [hexited]
      exact h.pass (hle.trans hclosed.le_uuid) hmodel fun t ht =>
        StateTransitionEvent.chargesEntry_of_not_opening (hclosed.isClosing t ht).1.not_isOpening
    rcases hexecution with hquiet | ⟨snapshot, v, v', pass, hlev, -, -, hrun, hrt⟩
    · exact hexits.quiet hquiet
    · obtain ⟨hkept, hcharges⟩ := SimulatedExecutionEngine.execute_chargesEntry hrun
      rw [hrt]
      exact hexits.pass (hlev.trans (SimulatedExecutionEngine.execute_cases hrun).1)
        (hkept ▸ hmodel) (hmodel ▸ hcharges)

theorem Charged.step (h : Charged feeBps rt) (call : CycleCall) :
    Charged feeBps (rt.step call) := by
  have hrule := step_rule rt call (I := fun _ r => Charged feeBps r)
    (fun _ _ _ hquiet hr => hr.quiet hquiet)
    (fun _ rt₁ hprep => ?_)
    (fun _ r hr => hr.books (books_maybeResetDailyRisk r _ _) executionEngine_maybeResetDailyRisk)
    (fun _ r hr => hr.books (books_markToMarket r _) executionEngine_markToMarket)
    (fun _ _ _ _ r _ hr => hr.books (books_countApproved r _ _ _) executionEngine_countApproved)
    (fun _ _ decision _ _ _ hr => hr.sameBarExitAndExecute decision)
  · rcases hrule with ⟨e, -, hsame⟩ | ⟨_, _, _, hstep⟩
    · rwa [hsame]
    · exact hstep
  · have hclock : Charged feeBps { rt₁ with clock := rt.clock } := h.quiet hprep.quiet
    have hstart : Charged feeBps rt₁ := ⟨hclock.engine, hclock.entries⟩
    exact hstart.preDecisionEvaluate

theorem Charged.liquidate (h : Charged feeBps rt) {call : LiquidationCall}
    (hrun : rt.liquidateOpenPositions call = .ok rt') : Charged feeBps rt' := by
  rcases liquidateOpenPositions_ok hrun with ⟨rfl, -⟩ | ⟨engine, bar, c, hengine, -, -, -, rfl⟩
  · exact h
  · obtain ⟨hqueue, hcloses⟩ := SimulatedExecutionEngine.closeAll_closes bar.close c
      rt.stateStore.portfolio.openPositions engine (rt.uuid + 1)
    refine (h.pass ((Nat.le_add_right _ 1).trans
      (SimulatedExecutionEngine.le_closeAll_uuid rt.stateStore.portfolio.openPositions))
      (hqueue.fillModel ▸ h.engine engine hengine) fun t ht => ?_).quiet quiet_published
    exact StateTransitionEvent.chargesEntry_of_not_opening (hcloses t ht).not_isOpening

theorem Charged.operate (h : Charged feeBps rt) (op : RuntimeOp) :
    Charged feeBps (rt.operate op) := by
  cases op with
  | cycle call => exact h.step call
  | liquidate call =>
    simp only [PlatformRuntime.operate]
    split
    · next hrun => exact h.liquidate hrun
    · exact h

theorem Charged.start (setup : RuntimeSetup) : Charged setup.feeBps setup.start where
  engine engine hsome := by
    obtain ⟨execution, hexecution, rfl⟩ := Option.map_eq_some_iff.mp hsome
    rw [RuntimeSetup.feeBps, hexecution]
  entries := List.forall_mem_nil _

/-! ## The reported results -/

/-- Every trade that a published event reports has been made. -/
def Truthful (rt : PlatformRuntime) : Prop :=
  ∀ trade ∈ reportedTrades rt.published, trade ∈ madeTrades rt.transitions

theorem Truthful.append (h : rt.Truthful) {events : List EventEnvelope}
    {ts : List StateTransitionEvent} (hpublished : rt'.published = rt.published ++ events)
    (hts : rt'.transitions = rt.transitions ++ ts)
    (hreported : ∀ trade ∈ reportedTrades events, trade ∈ madeTrades ts) : rt'.Truthful := by
  rw [Truthful, hpublished, hts, reportedTrades_append, madeTrades_append]
  intro trade htrade
  rcases List.mem_append.mp htrade with hold | hnew
  · exact List.mem_append_left _ (h trade hold)
  · exact List.mem_append_right _ (hreported trade hnew)

/-- A cycle takes no transition back. -/
theorem transitions_prefix_step (rt : PlatformRuntime) (call : CycleCall) :
    rt.transitions <+: (rt.step call).transitions := by
  have happlied : ∀ {r r' : PlatformRuntime} {ts : List StateTransitionEvent},
      Applied ts r r' → rt.transitions <+: r.transitions → rt.transitions <+: r'.transitions :=
    fun happlied h => happlied.transitions ▸ h.trans (List.prefix_append _ _)
  have hbooks : ∀ {r r' : PlatformRuntime}, Books r r' → rt.transitions <+: r.transitions →
      rt.transitions <+: r'.transitions := fun ⟨_, hts, _⟩ h => happlied hts h
  have hrule := step_rule rt call (I := fun _ r => rt.transitions <+: r.transitions)
    (fun _ _ _ hquiet h => happlied hquiet.applied_nil h)
    (fun ctx rt₁ hprep => ?_)
    (fun _ r h => hbooks (books_maybeResetDailyRisk r _ _) h)
    (fun _ r h => hbooks (books_markToMarket r _) h)
    (fun _ _ _ _ r _ h => hbooks (books_countApproved r _ _ _) h)
    (fun _ ctx decision r _ _ h => ?_)
  · rcases hrule with ⟨_, -, hsame⟩ | ⟨_, _, -, hstep⟩
    · rw [hsame]
    · exact hstep
  · obtain ⟨ts, hpre, -⟩ := preDecisionEvaluate_trades rt₁ ctx
    have hsame : rt₁.transitions = rt.transitions :=
      hprep.quiet.applied_nil.transitions.trans (List.append_nil _)
    exact happlied hpre (hsame ▸ List.prefix_rfl)
  · obtain ⟨exits, entry, hpass, -⟩ := sameBarExitAndExecute_applied r ctx decision
    exact happlied hpass h

theorem Truthful.step (h : rt.Truthful) (call : CycleCall) : (rt.step call).Truthful := by
  rcases hrun : rt.runCycle call with ⟨outcome, rt'⟩
  have hstep : rt.step call = rt' := by rw [PlatformRuntime.step, hrun]
  cases outcome with
  | ok result =>
    obtain ⟨ctx, rt₁, ts, -, hts, hreports, hpublished, -⟩ := runCycle_reports hrun
    rw [hstep]
    exact h.append hpublished hts fun trade htrade => hreports.trades ▸ htrade
  | error e =>
    have hsilent : rt'.published = rt.published := by
      rcases runCycle_cases rt call with ⟨_, r, herror, hsince⟩ | ⟨_, r, hok, -⟩
      · cases herror.symm.trans hrun
        exact hsince.published
      · cases hok.symm.trans hrun
    obtain ⟨ts, hts⟩ := transitions_prefix_step rt call
    rw [hstep] at hts ⊢
    exact h.append (hsilent.trans (List.append_nil _).symm) hts.symm
      fun _ htrade => absurd htrade List.not_mem_nil

theorem Truthful.operate (h : rt.Truthful) (op : RuntimeOp) : (rt.operate op).Truthful := by
  cases op with
  | cycle call => exact h.step call
  | liquidate call =>
    simp only [PlatformRuntime.operate]
    split
    · next hrun =>
      obtain ⟨events, ts, hpublished, hts, hreports⟩ := liquidate_reports hrun
      exact h.append hpublished hts fun trade htrade => hreports.trades ▸ htrade
    · exact h

theorem Truthful.start (setup : RuntimeSetup) : setup.start.Truthful := List.forall_mem_nil _

end PlatformRuntime

/-! ## The result of a round trip -/

namespace RoundTrip

variable {ts : List StateTransitionEvent} {trip : RoundTrip ts}

/-- The position is closed once, with one result. -/
theorem eq_pnl_of_made (hnodup : (closedIds ts).Nodup) {pnl : ℚ}
    (hmade : Trade.closed trip.position.positionId pnl ∈ madeTrades ts) : pnl = trip.pnl := by
  obtain ⟨t, ht, htrade⟩ := List.mem_filterMap.mp hmade
  have hpay : ∃ fill reason,
      t.payload = .positionClosed trip.position.positionId fill pnl reason := by
    cases hpay : t.payload with
    | positionClosed id fill pnl' reason =>
      rw [hpay] at htrade
      cases htrade
      exact ⟨fill, reason, rfl⟩
    | _ => rw [hpay] at htrade; cases htrade
  obtain ⟨fill, reason, hpay⟩ := hpay
  have hid : t.closedId? = some trip.position.positionId := by
    rw [StateTransitionEvent.closedId?, hpay]
  have hclosing : trip.closing.closedId? = some trip.position.positionId := by
    rw [StateTransitionEvent.closedId?, trip.closed]
  have hsplit : ts = (trip.before ++ trip.opening :: trip.between) ++ trip.closing :: trip.after :=
    trip.split.trans (List.append_assoc trip.before (trip.opening :: trip.between) _).symm
  have hids := hnodup
  rw [hsplit, closedIds_append, closedIds, closedIds, List.filterMap_cons_some hclosing,
    List.nodup_middle, List.nodup_cons] at hids
  rw [hsplit] at ht
  rcases List.mem_append.mp ht with hbefore | hafter
  · exact absurd (List.mem_append_left _ (List.mem_filterMap.mpr ⟨t, hbefore, hid⟩)) hids.1
  · rcases List.mem_cons.mp hafter with rfl | hafter
    · cases hpay.symm.trans trip.closed
      rfl
    · exact absurd (List.mem_append_right _ (List.mem_filterMap.mpr ⟨t, hafter, hid⟩)) hids.1

/-- The result that is booked, and that every published close of the position carries, is the change
of the cash over the round trip: the difference of the prices on the quantity, less both fees. -/
structure NetsBothFees (s₀ : InMemoryStateStore) (published : List EventEnvelope)
    (trip : RoundTrip ts) : Prop where
  booked : trip.booked s₀ = trip.cashChange s₀
  reported : ∀ closed ∈ closedPayloads published,
    closed.positionId = trip.position.positionId → closed.pnl = trip.cashChange s₀
  net : trip.booked s₀ =
    trip.position.grossPnl trip.exit.price - trip.entry.fee - trip.exit.fee

theorem mem_reportedTrades {published : List EventEnvelope} {closed : ClosedPayload}
    (h : closed ∈ closedPayloads published) :
    Trade.closed closed.positionId closed.pnl ∈ reportedTrades published := by
  obtain ⟨e, he, hpay⟩ := List.mem_filterMap.mp h
  refine List.mem_filterMap.mpr ⟨e, he, ?_⟩
  cases hcase : e.payload with
  | positionClosed closed' =>
    rw [hcase] at hpay
    cases hpay
    rfl
  | _ => rw [hcase] at hpay; cases hpay

/-- The fee of the entry is what the result leaves out. -/
theorem netsBothFees_iff {s₀ : InMemoryStateStore} {initialCash feeBps : ℚ} {rt : PlatformRuntime}
    (hs₀ : Audited initialCash s₀ {}) (htraded : PlatformRuntime.Traded s₀ rt)
    (htruthful : rt.Truthful) (hcharged : rt.Charged feeBps) (trip : RoundTrip rt.transitions) :
    trip.NetsBothFees s₀ rt.published ↔ feeBps * trip.position.notional = 0 := by
  have hfee : trip.entry.fee = trip.position.notional * feeBps / 10000 :=
    hcharged.entries trip.opening trip.opening_mem _ _ _ trip.opened
  have hcash := trip.cashChange_eq hs₀ htraded.produced
  have hpnl := trip.pnl_eq hs₀ htraded.produced
  have hzero : feeBps * trip.position.notional = 0 ↔ trip.entry.fee = 0 := by
    rw [hfee, mul_comm, div_eq_zero_iff, or_iff_left (by norm_num)]
  rw [hzero]
  constructor
  · intro h
    have hbooked := h.booked
    rw [trip.booked_eq, hcash] at hbooked
    exact sub_eq_self.mp hbooked.symm
  · intro h
    rw [h, sub_zero] at hcash
    refine ⟨trip.booked_eq.trans hcash.symm, fun closed hclosed hid => ?_, ?_⟩
    · have hmade := htruthful _ (mem_reportedTrades hclosed)
      rw [hid] at hmade
      exact (eq_pnl_of_made htraded.inStep.closedOnce hmade).trans hcash.symm
    · rw [trip.booked_eq, hpnl, h, sub_zero]

end RoundTrip

/-- In every run, the result booked and reported for a round trip is its change of the cash exactly
if the entry was free: the engine charges no basis points, or the entry has no notional. -/
theorem roundTrip_nets_iff (setup : RuntimeSetup) (ops : List PlatformRuntime.RuntimeOp)
    (trip : RoundTrip (setup.after ops).transitions) :
    trip.NetsBothFees setup.start.stateStore (setup.after ops).published ↔
      setup.feeBps * trip.position.notional = 0 := by
  have hinv : PlatformRuntime.Traded setup.start.stateStore (setup.after ops) ∧
      (setup.after ops).Truthful ∧ (setup.after ops).Charged setup.feeBps :=
    Run.Along.exec_inv (I := fun rt : PlatformRuntime => PlatformRuntime.Traded
        setup.start.stateStore rt ∧ rt.Truthful ∧ rt.Charged setup.feeBps) Run.along_true
      (fun _ op h _ => ⟨h.1.operate op, h.2.1.operate op, h.2.2.operate op⟩)
      ⟨.start setup, .start setup, .start setup⟩
  obtain ⟨htraded, htruthful, hcharged⟩ := hinv
  exact RoundTrip.netsBothFees_iff
    (Audited.init setup.initialCash setup.limits setup.startedAt) htraded htruthful hcharged trip

/-! ## A win that loses cash -/

/-- The solo runtime at a fee of ten basis points. -/
def RuntimeSetup.tenBps : RuntimeSetup :=
  { RuntimeSetup.solo .close with
    execution := (RuntimeSetup.solo .close).execution.map fun e =>
      { e with fillModel := { e.fillModel with feeBps := 10 } } }

/-- The run of a long entry of 10 at 100 that an opposing signal closes at 100.15. -/
def PlatformRuntime.flip : PlatformRuntime := RuntimeSetup.tenBps.after
  [.cycle (.flat "BTC" 3600000 100 .buy), .cycle (.flat "BTC" 7200000 (2003 / 20) .sell)]

/-- The entry and the exit of the long position. -/
def RoundTrip.flip : RoundTrip PlatformRuntime.flip.transitions where
  before := PlatformRuntime.flip.transitions.take 1
  opening := PlatformRuntime.flip.transitions.get ⟨1, by decide +kernel⟩
  between := (PlatformRuntime.flip.transitions.drop 2).take 2
  closing := PlatformRuntime.flip.transitions.get ⟨4, by decide +kernel⟩
  after := PlatformRuntime.flip.transitions.drop 5
  position := {
    positionId := 15, symbol := "BTC", side := .long, quantity := 10, entryPrice := 100
    entryTime := 3600000, stopLoss := some 99, takeProfit := some 102, unrealizedPnl := 0 }
  entry := {
    fillId := 13, orderId := .ord 10, price := 100, quantity := 10, fee := 1
    slippageBps := 0, fillTime := 3600000 }
  cost := 1001
  exit := {
    fillId := 29, orderId := .ord 10, price := 2003 / 20, quantity := 10, fee := 2003 / 2000
    slippageBps := 0, fillTime := 7200000 }
  pnl := 997 / 2000
  reason := .signal
  split := by decide +kernel
  opened := by decide +kernel
  closed := by decide +kernel
  first := by decide +kernel

/-- The position is booked as a gain of 0.4985; it has cost 0.5015. -/
theorem not_flip_netsBothFees :
    RoundTrip.flip.booked RuntimeSetup.tenBps.start.stateStore = 997 / 2000 ∧
      RoundTrip.flip.cashChange RuntimeSetup.tenBps.start.stateStore = -(1003 / 2000) ∧
      ¬ RoundTrip.flip.NetsBothFees RuntimeSetup.tenBps.start.stateStore
        PlatformRuntime.flip.published := by
  have hbooked : RoundTrip.flip.booked RuntimeSetup.tenBps.start.stateStore = 997 / 2000 := by
    decide +kernel
  have hcash : RoundTrip.flip.cashChange RuntimeSetup.tenBps.start.stateStore = -(1003 / 2000) := by
    decide +kernel
  refine ⟨hbooked, hcash, fun h => ?_⟩
  have heq := h.booked
  rw [hbooked, hcash] at heq
  norm_num at heq

end TradingPlatform
