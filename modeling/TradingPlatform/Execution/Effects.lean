import TradingPlatform.Execution.Simulated

/-!
# What the entry points of the simulated engine do

One lemma for each entry point: which transitions a call returns, in which order, and what it
changes in the engine. Everything that is proved of a run of the runtime rests on these.
-/

namespace TradingPlatform

namespace SimulatedExecutionEngine

/-- The engines differ in their position maps at most. -/
structure SameQueue (engine engine' : SimulatedExecutionEngine) : Prop where
  fillModel : engine'.fillModel = engine.fillModel
  config : engine'.config = engine.config
  mode : engine'.mode = engine.mode
  emitEvents : engine'.emitEvents = engine.emitEvents
  pendingEntries : engine'.pendingEntries = engine.pendingEntries

theorem SameQueue.refl (engine : SimulatedExecutionEngine) : SameQueue engine engine :=
  ⟨rfl, rfl, rfl, rfl, rfl⟩

theorem SameQueue.trans {e₁ e₂ e₃ : SimulatedExecutionEngine} (h : SameQueue e₁ e₂)
    (h' : SameQueue e₂ e₃) : SameQueue e₁ e₃ :=
  ⟨h'.1.trans h.1, h'.2.trans h.2, h'.3.trans h.3, h'.4.trans h.4, h'.5.trans h.5⟩

variable {engine : SimulatedExecutionEngine} {bar : Bar} {c : EventCtx} {u : ℕ}

theorem sameQueue_openPosition {order : Order} {quantity : ℚ} {side : Side}
    {positionSide : PositionSide} {stopLoss takeProfit : ℚ} {causationId : Option ℕ}
    {next : Bool} : SameQueue engine (engine.openPosition order quantity side positionSide stopLoss
      takeProfit bar c causationId next u).1.engine := ⟨rfl, rfl, rfl, rfl, rfl⟩

theorem sameQueue_closePosition {position : PositionState} {exitPrice : ℚ}
    {exitReason : ExitReason} :
    SameQueue engine (engine.closePosition position exitPrice exitReason c u).1.engine :=
  ⟨rfl, rfl, rfl, rfl, rfl⟩

/-! ## Queued entries -/

/-- The transitions of filling a list of entries: one opening for each, in order, under ids drawn in
turn. -/
inductive Fills (fillModel : FillModel) (bar : Bar) (c : EventCtx) :
    ℕ → List PendingEntry → List StateTransitionEvent → ℕ → Prop
  | nil {u : ℕ} : Fills fillModel bar c u [] [] u
  | cons {u u' : ℕ} {engine : SimulatedExecutionEngine} {pending : PendingEntry}
      {rest : List PendingEntry} {ts : List StateTransitionEvent}
      (hfm : engine.fillModel = fillModel)
      (tail : Fills fillModel bar c (engine.fillPending pending bar c u).2 rest ts u') :
      Fills fillModel bar c u (pending :: rest)
        ((engine.fillPending pending bar c u).1.transition :: ts) u'

theorem Fills.le_uuid {fillModel : FillModel} {u' : ℕ} {entries : List PendingEntry}
    {ts : List StateTransitionEvent} (h : Fills fillModel bar c u entries ts u') : u ≤ u' := by
  induction h with
  | nil => exact le_rfl
  | cons _ _ ih => exact le_openPosition_uuid.trans ih

theorem Fills.isOpening {fillModel : FillModel} {u' : ℕ} {entries : List PendingEntry}
    {ts : List StateTransitionEvent} (h : Fills fillModel bar c u entries ts u') :
    ts.length = entries.length ∧ ∀ t ∈ ts, t.IsOpening ∧ t.eventTime = c.eventTime := by
  induction h with
  | nil => exact ⟨rfl, fun t ht => absurd ht List.not_mem_nil⟩
  | cons _ _ ih =>
    refine ⟨by simp only [List.length_cons, ih.1], fun t ht => ?_⟩
    rcases List.mem_cons.mp ht with rfl | ht
    · obtain ⟨fill, _, _, hpay⟩ := openPosition_payload ..
      exact ⟨⟨_, fill, _, hpay⟩, rfl⟩
    · exact ih.2 t ht

/-- The positions opened are of the symbol of the bar and of the sides of the entries. -/
theorem Fills.opened {fillModel : FillModel} {u' : ℕ} {entries : List PendingEntry}
    {ts : List StateTransitionEvent} (h : Fills fillModel bar c u entries ts u') :
    ∀ t ∈ ts, ∀ p fill cost, t.payload = .positionOpened p fill cost →
      p.symbol = c.symbol ∧ ∃ e ∈ entries, p.side = e.positionSide := by
  induction h with
  | nil => exact fun t ht => absurd ht List.not_mem_nil
  | @cons _ _ engine pending _ _ _ _ ih =>
    intro t ht p fill cost hpay
    rcases List.mem_cons.mp ht with rfl | ht
    · obtain ⟨fill', _, _, hpay'⟩ := openPosition_payload engine pending.order pending.quantity
        pending.side pending.positionSide pending.stopLoss pending.takeProfit bar c none true _
      cases hpay.symm.trans hpay'
      exact ⟨rfl, pending, List.mem_cons_self, rfl⟩
    · obtain ⟨hsym, e, he, hside⟩ := ih t ht p fill cost hpay
      exact ⟨hsym, e, List.mem_cons_of_mem _ he, hside⟩

theorem fillEntries_cons_of_ne {pending : PendingEntry} {rest : List PendingEntry}
    (h : pending.symbol ≠ c.symbol) :
    fillEntries bar c engine (pending :: rest) u = fillEntries bar c engine rest u := by
  rw [fillEntries, if_pos h]

theorem fillEntries_cons_of_eq {pending : PendingEntry} {rest : List PendingEntry}
    (h : pending.symbol = c.symbol) :
    fillEntries bar c engine (pending :: rest) u =
      let filled := engine.fillPending pending bar c u
      let pass := fillEntries bar c filled.1.engine rest filled.2
      (filled.1.toPass.append pass.1, pass.2) := by
  rw [fillEntries, if_neg (not_not.mpr h)]
  rfl

theorem fillEntries_spec (bar : Bar) (c : EventCtx) (entries : List PendingEntry)
    (engine : SimulatedExecutionEngine) (u : ℕ) :
    Fills engine.fillModel bar c u (entries.filter (·.symbol = c.symbol))
      (fillEntries bar c engine entries u).1.transitions (fillEntries bar c engine entries u).2 ∧
    SameQueue engine (fillEntries bar c engine entries u).1.engine := by
  induction entries generalizing engine u with
  | nil => exact ⟨.nil, .refl engine⟩
  | cons pending rest ih =>
    by_cases hsym : pending.symbol = c.symbol
    · have hqueue : SameQueue engine (engine.fillPending pending bar c u).1.engine :=
        sameQueue_openPosition
      obtain ⟨htail, hrest⟩ := ih (engine.fillPending pending bar c u).1.engine
        (engine.fillPending pending bar c u).2
      rw [fillEntries_cons_of_eq hsym, List.filter_cons_of_pos (by simpa using hsym)]
      exact ⟨.cons rfl htail, hqueue.trans hrest⟩
    · rw [fillEntries_cons_of_ne hsym, List.filter_cons_of_neg (by simpa using hsym)]
      exact ih engine u

/-- `process_pending_entries` fills the entries of the bar's symbol and leaves the others queued. -/
theorem processPendingEntries_spec (bar : Bar) (c : EventCtx) (engine : SimulatedExecutionEngine)
    (u : ℕ) :
    Fills engine.fillModel bar c u (engine.pendingEntries.filter (·.symbol = c.symbol))
      (engine.processPendingEntries bar c u).1.transitions
      (engine.processPendingEntries bar c u).2 ∧
    SameQueue { engine with pendingEntries := engine.pendingEntries.filter (·.symbol ≠ c.symbol) }
      (engine.processPendingEntries bar c u).1.engine := by
  obtain ⟨hfills, hqueue⟩ := fillEntries_spec bar c engine.pendingEntries engine u
  exact ⟨hfills, hqueue.1, hqueue.2, hqueue.3, hqueue.4, rfl⟩

/-! ## Exits -/

/-- The transitions of closing some of a list of positions, in order. -/
inductive Exits (fillModel : FillModel) (c : EventCtx) :
    ℕ → List PositionState → List StateTransitionEvent → ℕ → Prop
  | nil {u : ℕ} : Exits fillModel c u [] [] u
  | keep {u u' : ℕ} {position : PositionState} {rest : List PositionState}
      {ts : List StateTransitionEvent} (tail : Exits fillModel c u rest ts u') :
      Exits fillModel c u (position :: rest) ts u'
  | close {u u' : ℕ} {engine : SimulatedExecutionEngine} {position : PositionState}
      {exitPrice : ℚ} {exitReason : ExitReason} {rest : List PositionState}
      {ts : List StateTransitionEvent} (hfm : engine.fillModel = fillModel)
      (hsym : position.symbol = c.symbol)
      (tail : Exits fillModel c (engine.closePosition position exitPrice exitReason c u).2 rest ts
        u') :
      Exits fillModel c u (position :: rest)
        ((engine.closePosition position exitPrice exitReason c u).1.transition :: ts) u'

theorem Exits.all_kept (fillModel : FillModel) (u : ℕ) :
    ∀ positions : List PositionState, Exits fillModel c u positions [] u
  | [] => .nil
  | _ :: rest => .keep (all_kept fillModel u rest)

theorem Exits.le_uuid {fillModel : FillModel} {u' : ℕ} {positions : List PositionState}
    {ts : List StateTransitionEvent} (h : Exits fillModel c u positions ts u') : u ≤ u' := by
  induction h with
  | nil => exact le_rfl
  | keep _ ih => exact ih
  | close _ _ _ ih => exact le_closePosition_uuid.trans ih

theorem Exits.isClosing {fillModel : FillModel} {u' : ℕ} {positions : List PositionState}
    {ts : List StateTransitionEvent} (h : Exits fillModel c u positions ts u') :
    ∀ t ∈ ts, t.IsClosing ∧ t.eventTime = c.eventTime := by
  induction h with
  | nil => exact fun t ht => absurd ht List.not_mem_nil
  | keep _ ih => exact ih
  | close _ _ _ ih =>
    intro t ht
    rcases List.mem_cons.mp ht with rfl | ht
    · obtain ⟨fill, _, _, hpay⟩ := closePosition_payload ..
      exact ⟨⟨_, fill, _, _, hpay⟩, rfl⟩
    · exact ih t ht

theorem sameQueue_countBar {position : PositionState} {incrementBars : Bool} :
    SameQueue engine (engine.countBar position incrementBars) := by
  cases incrementBars <;> exact ⟨rfl, rfl, rfl, rfl, rfl⟩

section EvaluatePositions

variable {approvedSide : Option Side} {incrementBars : Bool} {position : PositionState}
  {rest : List PositionState}

theorem evaluatePositions_cons_of_ne (h : position.symbol ≠ c.symbol) :
    evaluatePositions bar c approvedSide incrementBars engine (position :: rest) u =
      evaluatePositions bar c approvedSide incrementBars engine rest u := by
  rw [evaluatePositions, if_pos h]

theorem evaluatePositions_cons_of_none (h : position.symbol = c.symbol)
    (hexit : (engine.countBar position incrementBars).checkExit position bar
      (engine.barsHeld position incrementBars) approvedSide incrementBars = none) :
    evaluatePositions bar c approvedSide incrementBars engine (position :: rest) u =
      evaluatePositions bar c approvedSide incrementBars
        (engine.countBar position incrementBars) rest u := by
  rw [evaluatePositions, if_neg (not_not.mpr h)]
  simp only [hexit]

theorem evaluatePositions_cons_of_some {exitReason : ExitReason} {exitPrice : ℚ}
    (h : position.symbol = c.symbol)
    (hexit : (engine.countBar position incrementBars).checkExit position bar
      (engine.barsHeld position incrementBars) approvedSide incrementBars =
        some (exitReason, exitPrice)) :
    evaluatePositions bar c approvedSide incrementBars engine (position :: rest) u =
      let filled := (engine.countBar position incrementBars).closePosition position exitPrice
        exitReason c u
      let pass := evaluatePositions bar c approvedSide incrementBars filled.1.engine rest filled.2
      (filled.1.toPass.append pass.1, pass.2) := by
  rw [evaluatePositions, if_neg (not_not.mpr h)]
  simp only [hexit]
  rfl

end EvaluatePositions

theorem evaluatePositions_spec (bar : Bar) (c : EventCtx) (approvedSide : Option Side)
    (incrementBars : Bool) (positions : List PositionState) (engine : SimulatedExecutionEngine)
    (u : ℕ) :
    Exits engine.fillModel c u positions
      (evaluatePositions bar c approvedSide incrementBars engine positions u).1.transitions
      (evaluatePositions bar c approvedSide incrementBars engine positions u).2 ∧
    SameQueue engine
      (evaluatePositions bar c approvedSide incrementBars engine positions u).1.engine := by
  induction positions generalizing engine u with
  | nil => exact ⟨.nil, .refl engine⟩
  | cons position rest ih =>
    by_cases hsym : position.symbol = c.symbol
    · have hcount : SameQueue engine (engine.countBar position incrementBars) := sameQueue_countBar
      cases hexit : (engine.countBar position incrementBars).checkExit position bar
          (engine.barsHeld position incrementBars) approvedSide incrementBars with
      | none =>
        obtain ⟨htail, hrest⟩ := ih (engine.countBar position incrementBars) u
        rw [evaluatePositions_cons_of_none hsym hexit]
        exact ⟨.keep (hcount.fillModel ▸ htail), hcount.trans hrest⟩
      | some exit =>
        obtain ⟨exitReason, exitPrice⟩ := exit
        let filled := (engine.countBar position incrementBars).closePosition position exitPrice
          exitReason c u
        obtain ⟨htail, hrest⟩ := ih filled.1.engine filled.2
        rw [evaluatePositions_cons_of_some hsym hexit]
        refine ⟨.close hcount.fillModel hsym ?_, hcount.trans (sameQueue_closePosition.trans hrest)⟩
        rwa [← hcount.fillModel]
    · obtain ⟨htail, hrest⟩ := ih engine u
      rw [evaluatePositions_cons_of_ne hsym]
      exact ⟨.keep htail, hrest⟩

theorem closeAll_cons_of_ne {exitPrice : ℚ} {position : PositionState} {rest : List PositionState}
    (h : position.symbol ≠ c.symbol) :
    closeAll exitPrice c engine (position :: rest) u = closeAll exitPrice c engine rest u := by
  rw [closeAll, if_pos h]

theorem closeAll_cons_of_eq {exitPrice : ℚ} {position : PositionState} {rest : List PositionState}
    (h : position.symbol = c.symbol) :
    closeAll exitPrice c engine (position :: rest) u =
      let filled := engine.closePosition position exitPrice .endOfRun c u
      let pass := closeAll exitPrice c filled.1.engine rest filled.2
      (filled.1.toPass.append pass.1, pass.2) := by
  rw [closeAll, if_neg (not_not.mpr h)]
  rfl

theorem le_closeAll_uuid {exitPrice : ℚ} (positions : List PositionState) :
    u ≤ (closeAll exitPrice c engine positions u).2 := by
  induction positions generalizing engine u with
  | nil => exact le_rfl
  | cons position rest ih =>
    by_cases hsym : position.symbol = c.symbol
    · rw [closeAll_cons_of_eq hsym]
      exact le_closePosition_uuid.trans ih
    · rw [closeAll_cons_of_ne hsym]
      exact ih

/-- `evaluate_bar` fills the queued entries of the bar's symbol if the bar counts, then closes some
of the snapshot's positions. -/
theorem evaluateBar_spec (bar : Bar) (c : EventCtx) (engine : SimulatedExecutionEngine)
    (snapshot : StateSnapshot) (approvedSide : Option Side) (u : ℕ) : ∃ opens closes u₁,
    (engine.evaluateBar bar snapshot c approvedSide true u).1.transitions = opens ++ closes ∧
    Fills engine.fillModel bar c u (engine.pendingEntries.filter (·.symbol = c.symbol)) opens u₁ ∧
    Exits engine.fillModel c u₁ snapshot.portfolio.openPositions closes
      (engine.evaluateBar bar snapshot c approvedSide true u).2 ∧
    SameQueue { engine with pendingEntries := engine.pendingEntries.filter (·.symbol ≠ c.symbol) }
      (engine.evaluateBar bar snapshot c approvedSide true u).1.engine := by
  obtain ⟨hfills, hqueue⟩ := processPendingEntries_spec bar c engine u
  let pending := engine.processPendingEntries bar c u
  obtain ⟨hexits, hqueue'⟩ := evaluatePositions_spec bar c approvedSide true
    snapshot.portfolio.openPositions pending.1.engine pending.2
  refine ⟨_, _, pending.2, rfl, hfills, ?_, hqueue.trans hqueue'⟩
  rwa [show pending.1.engine.fillModel = engine.fillModel from hqueue.fillModel] at hexits

/-- A same-bar exit pass only closes positions. -/
theorem evaluateBar_exit_spec (bar : Bar) (c : EventCtx) (engine : SimulatedExecutionEngine)
    (snapshot : StateSnapshot) (approvedSide : Option Side) (u : ℕ) :
    Exits engine.fillModel c u snapshot.portfolio.openPositions
      (engine.evaluateBar bar snapshot c approvedSide false u).1.transitions
      (engine.evaluateBar bar snapshot c approvedSide false u).2 ∧
    SameQueue engine (engine.evaluateBar bar snapshot c approvedSide false u).1.engine :=
  evaluatePositions_spec bar c approvedSide false snapshot.portfolio.openPositions engine u

/-! ## Orders -/

section Orders

variable {decision : Decision} {signal : FinalSignal} {intent : OrderIntent}
  {intentEvent : Option EventEnvelope} {snapshot : StateSnapshot}

theorem le_emitting_uuid {payload : Payload} {cause : Option ℕ} :
    u ≤ (engine.emitting (buildEnvelope c payload cause) u).2 := by
  unfold emitting
  cases engine.emitEvents
  · exact le_refl u
  · exact Nat.le_add_right u 1

variable (decision signal intent bar c intentEvent u) in
/-- An order of a next-open fill model is queued. -/
theorem submitOrder_queued (h : engine.fillModel.fillAt = .nextOpen) : ∃ pending : PendingEntry,
    (engine.submitOrder decision signal intent bar c intentEvent u).1.transitions = [] ∧
    (engine.submitOrder decision signal intent bar c intentEvent u).1.engine =
      { engine with pendingEntries := engine.pendingEntries ++ [pending] } ∧
    pending.symbol = c.symbol ∧ pending.decisionEventTime = decision.eventTime ∧
    pending.quantity = intent.quantity ∧ pending.side = signal.side ∧
    pending.positionSide = entrySide signal.side ∧
    u ≤ (engine.submitOrder decision signal intent bar c intentEvent u).2 := by
  unfold submitOrder
  simp only [h, if_true]
  refine ⟨_, rfl, rfl, rfl, rfl, rfl, rfl, rfl, ?_⟩
  exact (Nat.le_add_right u 1).trans (le_emitting_uuid.trans le_emitting_uuid)

variable (decision signal intent bar c intentEvent u) in
/-- Any other order is filled at once. -/
theorem submitOrder_filled (h : engine.fillModel.fillAt ≠ .nextOpen) : ∃ order cause u₁, u ≤ u₁ ∧
    let filled := engine.openPosition order intent.quantity signal.side (entrySide signal.side)
      signal.stopLoss signal.takeProfit bar c cause false u₁
    (engine.submitOrder decision signal intent bar c intentEvent u).1.transitions =
      [filled.1.transition] ∧
    (engine.submitOrder decision signal intent bar c intentEvent u).1.engine = filled.1.engine ∧
    (engine.submitOrder decision signal intent bar c intentEvent u).2 = filled.2 := by
  unfold submitOrder
  simp only [h, if_false]
  refine ⟨_, _, _, ?_, rfl, rfl, rfl⟩
  exact (Nat.le_add_right u 1).trans (le_emitting_uuid.trans le_emitting_uuid)

theorem le_submitOrder_uuid :
    u ≤ (engine.submitOrder decision signal intent bar c intentEvent u).2 := by
  by_cases hfill : engine.fillModel.fillAt = .nextOpen
  · obtain ⟨_, _, _, _, _, _, _, _, hle⟩ :=
      submitOrder_queued bar c u decision signal intent intentEvent hfill
    exact hle
  · obtain ⟨_, _, u₁, hle, _, _, heq⟩ :=
      submitOrder_filled bar c u decision signal intent intentEvent hfill
    rw [heq]
    exact hle.trans le_openPosition_uuid

variable (intent intentEvent u) in
/-- The gate decides what becomes of an intent. -/
theorem gateOrder_cases {outcome : Except PyError Pass} {u' : ℕ}
    (h : engine.gateOrder decision signal intent snapshot bar c intentEvent u = (outcome, u')) :
    u ≤ u' ∧ ∀ pass, outcome = .ok pass → (pass.transitions = [] ∧ pass.engine = engine) ∨
      ∃ r, ExecutionRiskGate.check intent snapshot = .ok r ∧ r.passed = true ∧
        (pass, u') = engine.submitOrder decision signal intent bar c intentEvent u := by
  cases hcheck : ExecutionRiskGate.check intent snapshot with
  | error e =>
    simp only [gateOrder, hcheck] at h
    cases h
    exact ⟨le_rfl, fun pass hpass => by cases hpass⟩
  | ok r =>
    simp only [gateOrder, hcheck] at h
    by_cases hr : r.passed = true
    · simp only [hr, if_true] at h
      cases h
      refine ⟨le_submitOrder_uuid, fun pass hpass => .inr ⟨r, rfl, hr, ?_⟩⟩
      cases hpass
      rfl
    · simp only [hr] at h
      cases h
      refine ⟨Nat.le_add_right u 1, fun pass hpass => .inl ?_⟩
      cases hpass
      exact ⟨rfl, rfl⟩

/-- What `execute` does: it leaves everything as it is, or it submits an order of the size computed
for the signal, which the risk gate has passed. -/
theorem execute_cases {outcome : Except PyError Pass} {u' : ℕ}
    (h : engine.execute decision snapshot bar c u = (outcome, u')) :
    u ≤ u' ∧ ∀ pass, outcome = .ok pass →
      (pass.transitions = [] ∧ pass.engine = engine) ∨
      ∃ signal intent intentEvent r u₁, u ≤ u₁ ∧ decision.isApproved = true ∧
        decision.finalSignal = some signal ∧ 0 < intent.quantity ∧
        intent.quantity = engine.positionSize snapshot signal.entryPrice signal.stopLoss
          signal.sizeMultiplier ∧
        intent.limitPrice = some signal.entryPrice ∧
        ExecutionRiskGate.check intent snapshot = .ok r ∧ r.passed = true ∧
        (pass, u') = engine.submitOrder decision signal intent bar c intentEvent u₁ := by
  have hidle : ∀ {v : ℕ} {events : List EventEnvelope}, u ≤ v →
      ((Except.ok { engine, events }, v) : Except PyError Pass × ℕ) = (outcome, u') →
      u ≤ u' ∧ ∀ pass, outcome = .ok pass → pass.transitions = [] ∧ pass.engine = engine := by
    rintro v events hv h
    cases h
    refine ⟨hv, fun pass hpass => ?_⟩
    cases hpass
    exact ⟨rfl, rfl⟩
  cases happroved : decision.isApproved with
  | false =>
    simp only [execute, happroved] at h
    obtain ⟨hle, hpass⟩ := hidle le_rfl h
    exact ⟨hle, fun pass hok => .inl (hpass pass hok)⟩
  | true =>
    cases hsignal : decision.finalSignal with
    | none =>
      simp only [execute, happroved, hsignal] at h
      obtain ⟨hle, hpass⟩ := hidle le_rfl h
      exact ⟨hle, fun pass hok => .inl (hpass pass hok)⟩
    | some signal =>
      simp only [execute, happroved, hsignal] at h
      split at h
      · obtain ⟨hle, hpass⟩ := hidle le_rfl h
        exact ⟨hle, fun pass hok => .inl (hpass pass hok)⟩
      split at h
      · obtain ⟨hle, hpass⟩ := hidle (Nat.le_add_right u 1) h
        exact ⟨hle, fun pass hok => .inl (hpass pass hok)⟩
      next hquantity =>
      let quantity :=
        engine.positionSize snapshot signal.entryPrice signal.stopLoss signal.sizeMultiplier
      let intent := orderIntent u decision signal quantity snapshot c
      let event := engine.emitting (buildEnvelope c (.orderIntentCreated intent)) (u + 1)
      have hevent : u ≤ event.2 := (Nat.le_add_right u 1).trans le_emitting_uuid
      obtain ⟨hle, hgate⟩ := gateOrder_cases event.2 intent event.1 h
      refine ⟨hevent.trans hle, fun pass hok => ?_⟩
      rcases hgate pass hok with hskip | ⟨r, hcheck, hr, hsub⟩
      · exact .inl hskip
      · exact .inr ⟨signal, intent, event.1, r, event.2, hevent, rfl, rfl, not_le.mp hquantity, rfl,
          rfl, hcheck, hr, hsub⟩

/-- `execute` queues at most one entry. -/
theorem execute_pendingEntries {pass : Pass} {u' : ℕ}
    (h : engine.execute decision snapshot bar c u = (.ok pass, u')) :
    pass.engine.pendingEntries = engine.pendingEntries ∨
    ∃ pending, pass.engine.pendingEntries = engine.pendingEntries ++ [pending] ∧
      pending.symbol = c.symbol ∧ pending.decisionEventTime = decision.eventTime := by
  rcases (execute_cases h).2 pass rfl with ⟨_, hsame⟩ |
    ⟨signal, intent, event, r, u₁, _, _, _, _, _, _, _, _, hsubmit⟩
  · exact .inl (congrArg pendingEntries hsame)
  by_cases hfill : engine.fillModel.fillAt = .nextOpen
  · obtain ⟨pending, _, hengine, hsymbol, htime, _⟩ :=
      submitOrder_queued bar c u₁ decision signal intent event hfill
    rw [← hsubmit] at hengine
    exact .inr ⟨pending, congrArg pendingEntries hengine, hsymbol, htime⟩
  · obtain ⟨order, cause, u₂, _, _, hengine, _⟩ :=
      submitOrder_filled bar c u₁ decision signal intent event hfill
    rw [← hsubmit] at hengine
    have hsame : pass.engine.pendingEntries = _ := congrArg pendingEntries hengine
    exact .inl (hsame.trans sameQueue_openPosition.pendingEntries)

/-- `execute` queues an entry or opens a position on the side of the signal, or does neither. -/
theorem execute_direction {pass : Pass} {u' : ℕ}
    (h : engine.execute decision snapshot bar c u = (.ok pass, u')) :
    (pass.transitions = [] ∧ pass.engine.pendingEntries = engine.pendingEntries) ∨
    ∃ signal, decision.finalSignal = some signal ∧
      ((∃ e, pass.transitions = [] ∧ pass.engine.pendingEntries = engine.pendingEntries ++ [e] ∧
        e.symbol = c.symbol ∧ e.positionSide = entrySide signal.side) ∨
      ∃ t p fill cost, pass.transitions = [t] ∧ t.payload = .positionOpened p fill cost ∧
        p.symbol = c.symbol ∧ p.side = entrySide signal.side ∧
        pass.engine.pendingEntries = engine.pendingEntries) := by
  rcases (execute_cases h).2 pass rfl with ⟨hnone, hsame⟩ |
    ⟨signal, intent, event, _, u₁, _, _, hsignal, _, _, _, _, _, hsubmit⟩
  · exact .inl ⟨hnone, congrArg pendingEntries hsame⟩
  refine .inr ⟨signal, hsignal, ?_⟩
  by_cases hfill : engine.fillModel.fillAt = .nextOpen
  · obtain ⟨e, hts, hengine, hsymbol, _, _, _, hside, _⟩ :=
      submitOrder_queued bar c u₁ decision signal intent event hfill
    rw [← hsubmit] at hts hengine
    exact .inl ⟨e, hts, congrArg pendingEntries hengine, hsymbol, hside⟩
  · obtain ⟨order, cause, u₂, _, hts, hengine, _⟩ :=
      submitOrder_filled bar c u₁ decision signal intent event hfill
    rw [← hsubmit] at hts hengine
    obtain ⟨fill, _, _, hpay⟩ := openPosition_payload engine order intent.quantity signal.side
      (entrySide signal.side) signal.stopLoss signal.takeProfit bar c cause false u₂
    have hsame : pass.engine.pendingEntries = _ := congrArg pendingEntries hengine
    exact .inr ⟨_, _, fill, _, hts, hpay, rfl, rfl,
      hsame.trans sameQueue_openPosition.pendingEntries⟩

/-- `execute` opens at most one position, and only below the position limit. -/
theorem execute_transitions {pass : Pass} {u' : ℕ}
    (h : engine.execute decision snapshot bar c u = (.ok pass, u')) :
    u ≤ u' ∧ (pass.transitions = [] ∨
    (snapshot.portfolio.openPositions.length : ℤ) < snapshot.risk.limits.maxOpenPositions ∧
    ∃ order quantity side positionSide stopLoss takeProfit cause u₁, u ≤ u₁ ∧
      let filled := engine.openPosition order quantity side positionSide stopLoss takeProfit bar c
        cause false u₁
      pass.transitions = [filled.1.transition] ∧ u' = filled.2) := by
  refine ⟨(execute_cases h).1, ?_⟩
  rcases (execute_cases h).2 pass rfl with ⟨hnone, _⟩ |
    ⟨signal, intent, event, r, u₁, hle, _, _, _, _, _, hcheck, hr, hsubmit⟩
  · exact .inl hnone
  by_cases hfill : engine.fillModel.fillAt = .nextOpen
  · obtain ⟨pending, htransitions, _⟩ :=
      submitOrder_queued bar c u₁ decision signal intent event hfill
    rw [← hsubmit] at htransitions
    exact .inl htransitions
  · obtain ⟨order, cause, u₂, hle₂, htransitions, _, hu⟩ :=
      submitOrder_filled bar c u₁ decision signal intent event hfill
    rw [← hsubmit] at htransitions hu
    exact .inr ⟨(ExecutionRiskGate.check_passed hcheck hr).1, order, intent.quantity, signal.side,
      entrySide signal.side, signal.stopLoss, signal.takeProfit, cause, u₂, hle.trans hle₂,
      htransitions, hu⟩

end Orders

end SimulatedExecutionEngine

end TradingPlatform
