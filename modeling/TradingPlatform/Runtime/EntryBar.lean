import TradingPlatform.Execution.ExitPrices
import TradingPlatform.Runtime.Coupling

/-!
# The bar an entry is filled on

The pre-decision pass fills the queued entries of its symbol at the open of the bar and then tests
the levels of the positions in a snapshot taken before the fills. So the exits of a bar never
concern a position filled on it, and such a position is closed at its level exactly when there is
none whose level the bar contains.
-/

namespace TradingPlatform

/-- The position the transition opens. -/
def StateTransitionEvent.opened? (t : StateTransitionEvent) : Option PositionState :=
  match t.payload with
  | .positionOpened p _ _ => some p
  | _ => none

/-- The id of the position the transition closes, with the reason and the price. -/
def StateTransitionEvent.closing? (t : StateTransitionEvent) : Option (ℕ × ExitReason × ℚ) :=
  match t.payload with
  | .positionClosed id fill _ reason => some (id, reason, fill.price)
  | _ => none

/-- The bar contains the stop or the target. -/
def PositionState.LevelWithin (position : PositionState) (bar : Bar) : Prop :=
  (∃ s ∈ position.stopLoss, bar.Contains s) ∨ ∃ t ∈ position.takeProfit, bar.Contains t

instance (position : PositionState) (bar : Bar) : Decidable (position.LevelWithin bar) :=
  inferInstanceAs (Decidable (_ ∨ _))

namespace StateTransitionEvent

variable {t : StateTransitionEvent} {p : PositionState}

theorem opened?_eq_some :
    t.opened? = some p ↔ ∃ fill cost, t.payload = .positionOpened p fill cost := by
  unfold opened?
  cases t.payload <;> simp

theorem IsClosing.opened?_eq (h : t.IsClosing) : t.opened? = none := by
  obtain ⟨_, _, _, _, hpay⟩ := h
  simp only [opened?, hpay]

theorem IsBookkeeping.opened?_eq (h : t.IsBookkeeping) : t.opened? = none := by
  rcases h with ⟨_, hpay, _⟩ | ⟨_, hpay⟩ <;> simp only [opened?, hpay]

theorem IsBookkeeping.closing?_eq (h : t.IsBookkeeping) : t.closing? = none := by
  rcases h with ⟨_, hpay, _⟩ | ⟨_, hpay⟩ <;> simp only [closing?, hpay]

theorem IsOpening.closing?_eq (h : t.IsOpening) : t.closing? = none := by
  obtain ⟨_, _, _, hpay⟩ := h
  simp only [closing?, hpay]

end StateTransitionEvent

namespace SimulatedExecutionEngine

variable {fillModel : FillModel} {bar : Bar} {c : EventCtx} {u u' : ℕ}
  {entries : List PendingEntry} {ts : List StateTransitionEvent} {t : StateTransitionEvent}

theorem Closes.closing?_eq {position : PositionState} {reason : ExitReason} {price : ℚ}
    (h : Closes position reason price t) :
    t.closing? = some (position.positionId, reason, price) := by
  obtain ⟨fill, pnl, hpay, rfl, _⟩ := h
  simp only [StateTransitionEvent.closing?, hpay]

/-! ## The positions of queued entries -/

/-- The position that the fill of a queued entry opens. -/
def PositionOf (fillModel : FillModel) (bar : Bar) (c : EventCtx) (entry : PendingEntry)
    (p : PositionState) : Prop :=
  ∃ engine : SimulatedExecutionEngine, engine.fillModel = fillModel ∧
    p = entryPosition p.positionId entry.quantity (engine.fillPrice bar entry.side true)
      entry.positionSide entry.stopLoss entry.takeProfit c

theorem fillPending_opened? (engine : SimulatedExecutionEngine) (entry : PendingEntry) :
    ∃ p, (engine.fillPending entry bar c u).1.transition.opened? = some p ∧ u ≤ p.positionId ∧
      PositionOf engine.fillModel bar c entry p := by
  obtain ⟨fill, _, _, hpay⟩ := openPosition_payload engine entry.order entry.quantity entry.side
    entry.positionSide entry.stopLoss entry.takeProfit bar c none true u
  exact ⟨_, StateTransitionEvent.opened?_eq_some.mpr ⟨fill, _, hpay⟩, le_openedId, engine, rfl,
    rfl⟩

/-- Each fill opens the position of an entry, under a new id. -/
theorem Fills.opened? (h : Fills fillModel bar c u entries ts u') : ∀ t ∈ ts, ∃ p,
    t.opened? = some p ∧ u ≤ p.positionId ∧ ∃ e ∈ entries, PositionOf fillModel bar c e p := by
  induction h with
  | nil => exact fun t ht => absurd ht List.not_mem_nil
  | @cons u u' engine pending rest ts hfm _ ih =>
    intro t ht
    rcases List.mem_cons.mp ht with rfl | ht
    · obtain ⟨p, hp, hle, hof⟩ := fillPending_opened? engine pending
      exact ⟨p, hp, hle, pending, List.mem_cons_self, hfm ▸ hof⟩
    · obtain ⟨p, hp, hle, e, he, hof⟩ := ih t ht
      exact ⟨p, hp, le_openPosition_uuid.trans hle, e, List.mem_cons_of_mem _ he, hof⟩

/-- Each entry is filled. -/
theorem Fills.exists_opened? (h : Fills fillModel bar c u entries ts u') : ∀ e ∈ entries,
    ∃ t ∈ ts, ∃ p, t.opened? = some p ∧ u ≤ p.positionId ∧ PositionOf fillModel bar c e p := by
  induction h with
  | nil => exact fun e he => absurd he List.not_mem_nil
  | @cons u u' engine pending rest ts hfm _ ih =>
    intro e he
    rcases List.mem_cons.mp he with rfl | he
    · obtain ⟨p, hp, hle, hof⟩ := fillPending_opened? engine e
      exact ⟨_, List.mem_cons_self, p, hp, hle, hfm ▸ hof⟩
    · obtain ⟨t, ht, p, hp, hle, hof⟩ := ih e he
      exact ⟨t, List.mem_cons_of_mem _ ht, p, hp, le_openPosition_uuid.trans hle, hof⟩

theorem PositionOf.levelWithin_iff {entry : PendingEntry} {p : PositionState}
    (h : PositionOf fillModel bar c entry p) :
    p.LevelWithin bar ↔ bar.Contains entry.stopLoss ∨ bar.Contains entry.takeProfit := by
  obtain ⟨engine, _, hp⟩ := h
  rw [hp]
  simp [PositionState.LevelWithin, entryPosition]

end SimulatedExecutionEngine

namespace PlatformRuntime

open SimulatedExecutionEngine

variable {rt rt₁ rt₂ rt' : PlatformRuntime} {ctx : CycleCtx} {call : CycleCall}

/-! ## The passes of a cycle -/

/-- Only books are kept between the runtimes; the engine is the same. -/
structure Kept (rt rt' : PlatformRuntime) : Prop where
  books : Books rt rt'
  executionEngine : rt'.executionEngine = rt.executionEngine

theorem Books.trans {r₁ r₂ r₃ : PlatformRuntime} (h : Books r₁ r₂) (h' : Books r₂ r₃) :
    Books r₁ r₃ := by
  obtain ⟨ts, happlied, hts⟩ := h
  obtain ⟨ts', happlied', hts'⟩ := h'
  exact ⟨ts ++ ts', happlied.trans happlied',
    fun t ht => (List.mem_append.mp ht).elim (hts t) (hts' t)⟩

theorem Kept.trans {r₁ r₂ r₃ : PlatformRuntime} (h : Kept r₁ r₂) (h' : Kept r₂ r₃) : Kept r₁ r₃ :=
  ⟨h.books.trans h'.books, h'.executionEngine.trans h.executionEngine⟩

theorem Quiet.kept (h : Quiet rt rt') : Kept rt rt' :=
  ⟨.of_applied_nil h.applied_nil, h.executionEngine⟩

theorem kept_maybeResetDailyRisk (eventTime : ℤ) (cycleId : CorrelationId) :
    Kept rt (rt.maybeResetDailyRisk eventTime cycleId) :=
  ⟨books_maybeResetDailyRisk rt _ _, executionEngine_maybeResetDailyRisk⟩

theorem kept_markToMarket (ctx : CycleCtx) : Kept rt (rt.markToMarket ctx) :=
  ⟨books_markToMarket rt _, executionEngine_markToMarket⟩

theorem kept_countApproved (ctx : CycleCtx) (decision : Decision) (snapshot : StateSnapshot) :
    Kept rt (rt.countApproved ctx decision snapshot) :=
  ⟨books_countApproved rt _ _ _, executionEngine_countApproved⟩

/-- A cycle that gets a bar makes its pre-decision pass, keeps its books, and, if it reaches a
decision, executes it. -/
theorem step_passes (rt : PlatformRuntime) (call : CycleCall) :
    (∃ e, rt.prepareBar call = .error e ∧ rt.step call = rt) ∨
    ∃ ctx rt₁, Prepared call rt ctx rt₁ ∧
      (Kept (rt₁.preDecisionEvaluate ctx).2 (rt.step call) ∨
      ∃ d rt₂, rt.runToDecision call = (.ok d, rt₂) ∧ Kept (rt₁.preDecisionEvaluate ctx).2 rt₂ ∧
        SameCycle ctx d.ctx ∧ d.decision.eventTime = ctx.eventTime ∧
        Quiet (rt₂.sameBarExitAndExecute d.ctx d.decision).2 (rt.step call)) := by
  rcases runToSnapshot_cases rt call with ⟨e, hprep, hsnap⟩ | ⟨ctx, rt₁, hprep, hsnap⟩
  · exact .inl ⟨e, hprep, step_of_error (runToDecision_of_error hsnap)⟩
  refine .inr ⟨ctx, rt₁, hprep, ?_⟩
  rcases hsnap with ⟨e, rt', hsnap, hquiet⟩ | ⟨a, rt₂, rt₃, hsnap, hquiet₂, hquiet₃, hsame, _⟩
  · rw [step_of_error (runToDecision_of_error hsnap)]
    exact .inl hquiet.kept
  have hkept : Kept (rt₁.preDecisionEvaluate ctx).2 rt₃ :=
    ((hquiet₂.kept.trans (kept_maybeResetDailyRisk _ _)).trans (kept_markToMarket _)).trans
      hquiet₃.kept
  rcases runToDecision_of_ok hsnap with ⟨e, rt₄, hdec, hquiet⟩ |
    ⟨d, rt₄, hdec, hquiet, _, hsame', htime, _⟩
  · rw [step_of_error hdec]
    exact .inl (hkept.trans hquiet.kept)
  · refine .inr ⟨d, _, hdec, (hkept.trans hquiet.kept).trans (kept_countApproved _ _ _),
      hsame.trans hsame', htime.trans hsame.eventTime, step_of_ok hdec⟩

/-- The transitions a cycle applies. -/
def cycleTransitions (rt : PlatformRuntime) (call : CycleCall) : List StateTransitionEvent :=
  (rt.step call).transitions.drop rt.transitions.length

theorem Prepared.transitions (h : Prepared call rt ctx rt₁) : rt₁.transitions = rt.transitions :=
  h.quiet.applied_nil.transitions.trans (List.append_nil _)

/-! ## What the passes apply -/

variable {engine : SimulatedExecutionEngine}

/-- The pre-decision pass fills the queued entries of its symbol and closes positions of the store
it has found. -/
theorem preDecisionEvaluate_exits (ctx : CycleCtx) (h : rt.executionEngine = some engine) :
    ∃ opens closes engine' u u', Applied (opens ++ closes) rt (rt.preDecisionEvaluate ctx).2 ∧
      (rt.preDecisionEvaluate ctx).2.executionEngine = some engine' ∧
      SameQueue { engine with
        pendingEntries := engine.pendingEntries.filter (·.symbol ≠ ctx.symbol) } engine' ∧
      rt.uuid < u ∧ Fills engine.fillModel ctx.bar (executionCtx engine ctx ctx.eventTime) u
        (engine.pendingEntries.filter (·.symbol = ctx.symbol)) opens u' ∧
      ∀ t ∈ closes, ∃ p ∈ rt.stateStore.portfolio.openPositions, ∃ reason price,
        Closes p reason price t ∧ (checkLevels p ctx.bar = some (reason, price) ∨
          reason = .timeout ∧ price = ctx.bar.close) := by
  let c := executionCtx engine ctx ctx.eventTime
  let snapshot := (rt.snapshot ctx.cycleId).1
  obtain ⟨opens, closes, u₁, htransitions, hfills, hexits, hqueue⟩ :=
    evaluateBar_spec ctx.bar c engine snapshot none (rt.uuid + 1)
  have happlied : Applied (opens ++ closes) rt (rt.preDecisionEvaluate ctx).2 := by
    rw [preDecisionEvaluate_eq h, ← htransitions]
    exact applied_of_engine ((Nat.le_add_right _ 1).trans (hfills.le_uuid.trans hexits.le_uuid))
  refine ⟨opens, closes, _, rt.uuid + 1, u₁, happlied, ?_, hqueue, Nat.lt_succ_self _, hfills, ?_⟩
  · rw [preDecisionEvaluate_eq h]
    exact executionEngine_applyTransitions
  · intro t ht
    have hmem : t ∈ (engine.evaluateBar ctx.bar snapshot c none true (rt.uuid + 1)).1.transitions :=
      htransitions ▸ List.mem_append_right _ ht
    obtain ⟨p, hp, _, engine', barsHeld, reason, price, hexit, hcloses⟩ :=
      closes_of_evaluateBar (hexits.isClosing t ht).1 hmem
    refine ⟨p, hp, reason, price, hcloses, ?_⟩
    rcases checkExit_cases hexit with ⟨_, hreason⟩ | ⟨hnot, _⟩
    · exact hreason
    · exact absurd (.inr rfl) hnot

/-- The same-bar exit closes positions at the close of the bar, on the signal. -/
theorem sameBarExit_exits (ctx : CycleCtx) (h : rt.executionEngine = some engine)
    (signal : Option FinalSignal) :
    ∃ exits engine', Applied exits rt (rt.sameBarExit ctx engine signal).2 ∧
      (rt.sameBarExit ctx engine signal).2.executionEngine = some engine' ∧
      SameQueue engine engine' ∧
      ∀ t ∈ exits, ∃ p ∈ rt.stateStore.portfolio.openPositions,
        Closes p .signal ctx.bar.close t := by
  have hidle : (rt.sameBarExit ctx engine signal).2 = rt → ∃ exits engine',
      Applied exits rt (rt.sameBarExit ctx engine signal).2 ∧
      (rt.sameBarExit ctx engine signal).2.executionEngine = some engine' ∧
      SameQueue engine engine' ∧ ∀ t ∈ exits, ∃ p ∈ rt.stateStore.portfolio.openPositions,
        Closes p .signal ctx.bar.close t := by
    intro hsame
    rw [hsame]
    exact ⟨[], engine, (Quiet.refl rt).applied_nil, h, .refl engine,
      fun t ht => absurd ht List.not_mem_nil⟩
  cases signal with
  | none => exact hidle (sameBarExit_idle ctx engine none (.inl rfl))
  | some signal =>
    by_cases hopen : rt.stateStore.portfolio.openPositions = []
    · exact hidle (sameBarExit_idle ctx engine (some signal) (.inr hopen))
    rw [sameBarExit_eq ctx engine signal hopen]
    let c := executionCtx engine ctx ctx.eventTime
    let snapshot := (rt.snapshot ctx.cycleId).1
    obtain ⟨hexits, hqueue⟩ := evaluateBar_exit_spec ctx.bar c engine snapshot (some signal.side)
      (rt.uuid + 1)
    refine ⟨_, _, applied_of_engine ((Nat.le_add_right _ 1).trans hexits.le_uuid),
      executionEngine_applyTransitions, hqueue, fun t ht => ?_⟩
    obtain ⟨p, hp, _, engine', barsHeld, reason, price, hexit, hcloses⟩ :=
      closes_of_evaluateBar (hexits.isClosing t ht).1 ht
    rcases checkExit_cases hexit with ⟨htests, _⟩ | ⟨_, rfl, rfl⟩
    · simp [TestsLevels] at htests
    · exact ⟨p, hp, hcloses⟩

/-- What an execution makes of its decision: the transitions it applies and the queue it leaves. -/
inductive Entered (ctx : CycleCtx) (decision : Decision) (engine : SimulatedExecutionEngine) :
    List StateTransitionEvent → List PendingEntry → Prop
  | idle : Entered ctx decision engine [] engine.pendingEntries
  | queued {signal : FinalSignal} {e : PendingEntry}
      (fillAt : engine.fillModel.fillAt = .nextOpen) (approved : decision.isApproved = true)
      (decided : decision.finalSignal = some signal) (quantity : 0 < e.quantity)
      (positionSide : e.positionSide = entrySide signal.side) :
      Entered ctx decision engine [] (engine.pendingEntries ++ [e])
  | filled {signal : FinalSignal} {t : StateTransitionEvent} {id : ℕ} {quantity : ℚ} {c : EventCtx}
      (fillAt : engine.fillModel.fillAt ≠ .nextOpen) (approved : decision.isApproved = true)
      (decided : decision.finalSignal = some signal) (quantity_pos : 0 < quantity)
      (opened : t.opened? = some (entryPosition id quantity (engine.fillPrice ctx.bar signal.side)
        (entrySide signal.side) signal.stopLoss signal.takeProfit c)) :
      Entered ctx decision engine [t] engine.pendingEntries

theorem executeDecision_entered (ctx : CycleCtx) (decision : Decision)
    (h : rt.executionEngine = some engine) : ∃ entry engine',
    Applied entry rt (rt.executeDecision ctx engine decision).2 ∧
    (rt.executeDecision ctx engine decision).2.executionEngine = some engine' ∧
    engine'.fillModel = engine.fillModel ∧
    Entered ctx decision engine entry engine'.pendingEntries := by
  rcases executeDecision_spec rt ctx engine decision with hquiet |
    ⟨snapshot, u, u', pass, hle, _, _, hrun, hrt⟩
  · exact ⟨[], engine, hquiet.applied_nil, hquiet.executionEngine.trans h, rfl, .idle⟩
  have happlied : Applied pass.transitions rt (rt.executeDecision ctx engine decision).2 := by
    rw [hrt]
    exact applied_of_engine (hle.trans (execute_cases hrun).1)
  have hengine : (rt.executeDecision ctx engine decision).2.executionEngine = some pass.engine := by
    rw [hrt]
    exact executionEngine_applyTransitions
  refine ⟨pass.transitions, pass.engine, happlied, hengine, ?_⟩
  rcases (execute_cases hrun).2 pass rfl with ⟨hnone, hsame⟩ |
    ⟨signal, intent, event, _, u₁, _, happroved, hsignal, hpos, _, _, _, _, hsubmit⟩
  · rw [hnone, hsame]
    exact ⟨rfl, .idle⟩
  by_cases hfill : engine.fillModel.fillAt = .nextOpen
  · obtain ⟨e, hts, hengine, _, _, hquantity, _, hside, _⟩ := submitOrder_queued ctx.bar
      (executionCtx engine ctx decision.eventTime) u₁ decision signal intent event hfill
    rw [← hsubmit] at hts hengine
    rw [hts, hengine]
    exact ⟨rfl, .queued hfill happroved hsignal (hquantity ▸ hpos) hside⟩
  · obtain ⟨order, cause, u₂, _, hts, hengine, _⟩ := submitOrder_filled ctx.bar
      (executionCtx engine ctx decision.eventTime) u₁ decision signal intent event hfill
    rw [← hsubmit] at hts hengine
    obtain ⟨fill, _, _, hpay⟩ := openPosition_payload engine order intent.quantity signal.side
      (entrySide signal.side) signal.stopLoss signal.takeProfit ctx.bar
      (executionCtx engine ctx decision.eventTime) cause false u₂
    have hqueue : SameQueue engine pass.engine := by
      rw [hengine]
      exact sameQueue_openPosition
    rw [hts, hqueue.pendingEntries]
    exact ⟨hqueue.fillModel, .filled hfill happroved hsignal hpos
      (StateTransitionEvent.opened?_eq_some.mpr ⟨fill, _, hpay⟩)⟩

/-- An execution closes positions on the signal and then enters the market. -/
theorem sameBarExitAndExecute_entered (ctx : CycleCtx) (decision : Decision)
    (h : rt.executionEngine = some engine) : ∃ exits entry engine₁ engine',
    Applied (exits ++ entry) rt (rt.sameBarExitAndExecute ctx decision).2 ∧
    (rt.sameBarExitAndExecute ctx decision).2.executionEngine = some engine' ∧
    SameQueue engine engine₁ ∧ engine'.fillModel = engine.fillModel ∧
    (∀ t ∈ exits, ∃ p ∈ rt.stateStore.portfolio.openPositions,
      Closes p .signal ctx.bar.close t) ∧
    Entered ctx decision engine₁ entry engine'.pendingEntries := by
  cases happroved : decision.isApproved with
  | false =>
    rw [sameBarExitAndExecute_idle (.inl happroved)]
    exact ⟨[], [], engine, engine, (Quiet.refl rt).applied_nil, h, .refl engine, rfl,
      fun t ht => absurd ht List.not_mem_nil, .idle⟩
  | true =>
    obtain ⟨engine₁, hengine₁, hrun⟩ := sameBarExitAndExecute_eq ctx happroved h
    obtain ⟨exits, engine₂, happlied, hengine₂, hqueue, hexits⟩ :=
      sameBarExit_exits ctx h decision.finalSignal
    cases hengine₁.symm.trans hengine₂
    obtain ⟨_, _, _, _, _, _, _, hsame, _⟩ := sameBarExit_spec ctx decision.finalSignal h
    obtain ⟨entry, engine', happlied', hengine', hmodel, hentered⟩ :=
      executeDecision_entered (rt.sameBarExit ctx engine decision.finalSignal).1 decision hengine₁
    rw [hrun]
    refine ⟨exits, entry, engine₁, engine', happlied.trans happlied', hengine', hqueue,
      hmodel.trans hqueue.fillModel, hexits, ?_⟩
    generalize engine'.pendingEntries = queue at hentered ⊢
    cases hentered with
    | idle => exact .idle
    | queued hfill happroved hsignal hpos hside => exact .queued hfill happroved hsignal hpos hside
    | filled hfill happroved hsignal hpos hopened =>
      exact .filled hfill happroved hsignal hpos (hsame.bar ▸ hopened)

/-! ## Entries and the exits of their bar -/

/-- A position that the cycle opens, and one of whose levels its bar contains, is closed by the
cycle as the levels say. -/
def EntriesExit (rt : PlatformRuntime) (call : CycleCall) : Prop :=
  match rt.prepareBar call with
  | .error _ => True
  | .ok (ctx, _) => ∀ p ∈ (rt.cycleTransitions call).filterMap (·.opened?),
    p.LevelWithin ctx.bar → ∃ hit ∈ checkLevels p ctx.bar,
      (p.positionId, hit) ∈ (rt.cycleTransitions call).filterMap (·.closing?)

instance (rt : PlatformRuntime) (call : CycleCall) : Decidable (rt.EntriesExit call) := by
  unfold EntriesExit
  split <;> infer_instance

/-- The bar of the cycle contains no level of an entry that it fills. -/
def EntriesUntouched (rt : PlatformRuntime) (call : CycleCall) : Prop :=
  match rt.prepareBar call with
  | .error _ => True
  | .ok (ctx, _) => ∀ e ∈ rt.pendingEntries, e.symbol = ctx.symbol →
    ¬ (ctx.bar.Contains e.stopLoss ∨ ctx.bar.Contains e.takeProfit)

theorem Kept.transitions (h : Kept rt rt') : ∃ ts, rt'.transitions = rt.transitions ++ ts ∧
    ∀ t ∈ ts, t.IsBookkeeping := by
  obtain ⟨ts, happlied, hts⟩ := h.books
  exact ⟨ts, happlied.transitions, hts⟩

theorem cycleTransitions_eq {ts : List StateTransitionEvent}
    (h : (rt.step call).transitions = rt.transitions ++ ts) : rt.cycleTransitions call = ts := by
  rw [cycleTransitions, h, List.drop_left]

/-- Neither opens a position nor closes one at a level. -/
def Neutral (t : StateTransitionEvent) : Prop :=
  t.opened? = none ∧ ∀ x ∈ t.closing?, x.2.1 = .signal

theorem neutral_bookkeeping {t : StateTransitionEvent} (h : t.IsBookkeeping) : Neutral t :=
  ⟨h.opened?_eq, fun x hx => by rw [h.closing?_eq] at hx; cases hx⟩

theorem neutral_closes {t : StateTransitionEvent} {p : PositionState} {price : ℚ}
    (h : Closes p .signal price t) : Neutral t := by
  refine ⟨h.isClosing.opened?_eq, fun x hx => ?_⟩
  rw [h.closing?_eq] at hx
  cases hx
  rfl

/-- Under a next-open fill model the execution of a cycle neither opens a position nor closes one
at a level. -/
theorem sameBarExitAndExecute_neutral (ctx : CycleCtx) (decision : Decision)
    (hfill : ∀ engine ∈ rt.executionEngine, engine.fillModel.fillAt = .nextOpen) :
    ∃ ts, (rt.sameBarExitAndExecute ctx decision).2.transitions = rt.transitions ++ ts ∧
      (∀ t ∈ ts, Neutral t) ∧
      ∀ engine ∈ (rt.sameBarExitAndExecute ctx decision).2.executionEngine,
        engine.fillModel.fillAt = .nextOpen := by
  cases hengine : rt.executionEngine with
  | none =>
    rw [sameBarExitAndExecute_idle (.inr hengine)]
    exact ⟨[], (List.append_nil _).symm, fun t ht => absurd ht List.not_mem_nil, hfill⟩
  | some engine =>
    obtain ⟨exits, entry, engine₁, engine', happlied, hengine', hqueue, hmodel, hexits, hentered⟩ :=
      sameBarExitAndExecute_entered ctx decision hengine
    have hnext := hfill engine hengine
    have hentry : entry = [] := by
      generalize engine'.pendingEntries = queue at hentered
      cases hentered with
      | filled hnot _ _ _ _ => exact absurd (hqueue.fillModel ▸ hnext) hnot
      | _ => rfl
    refine ⟨exits, ?_, fun t ht => ?_, fun e he => ?_⟩
    · rw [happlied.transitions, hentry, List.append_nil]
    · obtain ⟨p, _, hcloses⟩ := hexits t ht
      exact neutral_closes hcloses
    · cases hengine'.symm.trans he
      rw [hmodel, hnext]

/-- After the pre-decision pass a cycle under a next-open fill model applies neutral transitions
only. -/
theorem step_neutral (hfill : ∀ engine ∈ rt.executionEngine, engine.fillModel.fillAt = .nextOpen)
    (hprep : Prepared call rt ctx rt₁) : ∃ ts,
    (rt.step call).transitions = (rt₁.preDecisionEvaluate ctx).2.transitions ++ ts ∧
      (∀ t ∈ ts, Neutral t) ∧
      ∀ engine ∈ (rt.step call).executionEngine, engine.fillModel.fillAt = .nextOpen := by
  have hpre : ∀ engine ∈ (rt₁.preDecisionEvaluate ctx).2.executionEngine,
      engine.fillModel.fillAt = .nextOpen := by
    have hsame : rt₁.executionEngine = rt.executionEngine := hprep.quiet.executionEngine
    cases hengine : rt₁.executionEngine with
    | none =>
      rw [preDecisionEvaluate_none hengine, hsame]
      exact hfill
    | some engine =>
      obtain ⟨_, _, engine', _, _, _, hengine', hqueue, _⟩ := preDecisionEvaluate_exits ctx hengine
      intro e he
      cases hengine'.symm.trans he
      rw [hqueue.fillModel]
      exact hfill engine (hsame ▸ hengine)
  rcases step_passes rt call with ⟨e, herr, _⟩ | ⟨ctx', rt₁', hprep', hpasses⟩
  · cases hprep.prepared.symm.trans herr
  cases hprep.prepared.symm.trans hprep'.prepared
  rcases hpasses with hkept | ⟨d, rt₂, _, hkept, _, _, hquiet⟩
  · obtain ⟨ts, hts, hbooks⟩ := hkept.transitions
    refine ⟨ts, hts, fun t ht => neutral_bookkeeping (hbooks t ht), ?_⟩
    rwa [hkept.executionEngine]
  · obtain ⟨ts, hts, hbooks⟩ := hkept.transitions
    have hfill₂ : ∀ engine ∈ rt₂.executionEngine, engine.fillModel.fillAt = .nextOpen := by
      rwa [hkept.executionEngine]
    obtain ⟨ts', hts', hneutral, hengine⟩ :=
      sameBarExitAndExecute_neutral d.ctx d.decision hfill₂
    refine ⟨ts ++ ts', ?_, fun t ht => ?_, by rwa [hquiet.executionEngine]⟩
    · rw [hquiet.applied_nil.transitions, hts', hts, List.append_nil, List.append_assoc]
    · exact (List.mem_append.mp ht).elim (fun ht => neutral_bookkeeping (hbooks t ht)) (hneutral t)

/-- In a cycle, the positions of the fills are closed at the levels that the bar contains exactly
when it contains none. -/
theorem entriesExit_iff {s₀ : InMemoryStateStore} (h : Traded s₀ rt)
    (hfill : ∀ engine ∈ rt.executionEngine, engine.fillModel.fillAt = .nextOpen)
    (call : CycleCall) : rt.EntriesExit call ↔ rt.EntriesUntouched call := by
  unfold EntriesExit EntriesUntouched
  cases hprepare : rt.prepareBar call with
  | error e => exact Iff.rfl
  | ok prepared =>
  obtain ⟨ctx, rt₁⟩ := prepared
  have hprep := prepareBar_ok hprepare
  obtain ⟨rest, hstep, hneutral, _⟩ := step_neutral hfill hprep
  have hsame : rt₁.executionEngine = rt.executionEngine := hprep.quiet.executionEngine
  cases hengine : rt₁.executionEngine with
  | none =>
    have hqueue : rt.pendingEntries = [] := by simp only [pendingEntries, ← hsame, hengine]
    rw [preDecisionEvaluate_none hengine, hprep.transitions] at hstep
    simp only [cycleTransitions_eq hstep, hqueue]
    refine iff_of_true (fun p hp => ?_) (fun e he => absurd he List.not_mem_nil)
    obtain ⟨t, ht, hopened⟩ := List.mem_filterMap.mp hp
    rw [(hneutral t ht).1] at hopened
    cases hopened
  | some engine =>
  obtain ⟨opens, closes, _, u, u', happlied, _, _, hlt, hfills, hcloses⟩ :=
    preDecisionEvaluate_exits ctx hengine
  have hqueue : rt.pendingEntries = engine.pendingEntries := by
    simp only [pendingEntries, ← hsame, hengine]
  have hcycle : rt.cycleTransitions call = opens ++ closes ++ rest := by
    refine cycleTransitions_eq ?_
    rw [hstep, happlied.transitions, hprep.transitions, List.append_assoc]
  -- a new position has an id beyond those of the positions the exits look at
  have hdrawn : ∀ q ∈ rt₁.stateStore.portfolio.openPositions, q.positionId < u := fun q hq =>
    (((h.prepared hprep).coupled.book hengine).drawn _ (List.mem_map_of_mem hq)).trans hlt
  simp only [hcycle, hqueue]
  constructor
  · intro hexit e he hsym htouched
    obtain ⟨t, ht, p, hp, hle, hof⟩ :=
      hfills.exists_opened? e (List.mem_filter.mpr ⟨he, decide_eq_true hsym⟩)
    obtain ⟨⟨reason, price⟩, hhit, hmem⟩ := hexit p (List.mem_filterMap.mpr
      ⟨t, List.mem_append_left _ (List.mem_append_left _ ht), hp⟩)
      (hof.levelWithin_iff.mpr htouched)
    obtain ⟨t', ht', hclosing⟩ := List.mem_filterMap.mp hmem
    rcases List.mem_append.mp ht' with ht' | ht'
    · rcases List.mem_append.mp ht' with ht' | ht'
      · rw [(hfills.isOpening.2 t' ht').1.closing?_eq] at hclosing
        cases hclosing
      · obtain ⟨q, hq, reason', price', hcloses', _⟩ := hcloses t' ht'
        rw [hcloses'.closing?_eq] at hclosing
        have hid : q.positionId = p.positionId := congrArg Prod.fst (Option.some.inj hclosing)
        exact absurd (hdrawn q hq) (not_lt.mpr (hid ▸ hle))
    · have hsignal : reason = .signal := (hneutral t' ht').2 _ hclosing
      rcases checkLevels_reason hhit with ⟨hreason, _⟩ | ⟨hreason, _⟩ <;>
        exact absurd (hreason.symm.trans hsignal) (by decide)
  · intro huntouched p hp hlevel
    obtain ⟨t, ht, hopened⟩ := List.mem_filterMap.mp hp
    rcases List.mem_append.mp ht with ht | ht
    · rcases List.mem_append.mp ht with ht | ht
      · obtain ⟨p', hp', _, e, he, hof⟩ := hfills.opened? t ht
        cases hopened.symm.trans hp'
        obtain ⟨he, hsym⟩ := List.mem_filter.mp he
        exact absurd (hof.levelWithin_iff.mp hlevel) (huntouched e he (of_decide_eq_true hsym))
      · obtain ⟨q, _, _, _, hcloses', _⟩ := hcloses t ht
        rw [hcloses'.isClosing.opened?_eq] at hopened
        cases hopened
    · rw [(hneutral t ht).1] at hopened
      cases hopened

theorem nextOpen_step (hfill : ∀ engine ∈ rt.executionEngine, engine.fillModel.fillAt = .nextOpen)
    (call : CycleCall) :
    ∀ engine ∈ (rt.step call).executionEngine, engine.fillModel.fillAt = .nextOpen := by
  cases hprepare : rt.prepareBar call with
  | error e =>
    rcases step_passes rt call with ⟨_, _, hsame⟩ | ⟨ctx, rt₁, hprep, _⟩
    · rwa [hsame]
    · cases hprepare.symm.trans hprep.prepared
  | ok prepared =>
    obtain ⟨_, _, _, hengine⟩ := step_neutral hfill (prepareBar_ok hprepare)
    exact hengine

/-- With a next-open fill model, every position of a run is closed on the bar of its fill at a level
that the bar contains exactly when no bar of the run contains a level of an entry filled on it. -/
theorem along_entriesExit_iff (setup : RuntimeSetup)
    (hfill : ∀ e ∈ setup.execution, e.fillModel.fillAt = .nextOpen) (calls : List CycleCall) :
    Run.Along step EntriesExit setup.start calls ↔
      Run.Along step EntriesUntouched setup.start calls := by
  refine Run.along_iff (I := fun rt => Traded setup.start.stateStore rt ∧
    ∀ engine ∈ rt.executionEngine, engine.fillModel.fillAt = .nextOpen) (D := fun _ _ => True)
    (fun rt call h _ _ => ⟨h.1.step call, nextOpen_step h.2 call⟩)
    (fun rt call h _ => entriesExit_iff h.1 h.2 call) ⟨.start setup, ?_⟩ Run.along_true
  intro engine hengine
  obtain ⟨e, he, rfl⟩ := Option.map_eq_some_iff.mp hengine
  exact hfill e he

/-- A buy decided at 100, with its stop at 99, is filled at the open of a bar that falls to 90: it
is not closed on that bar. -/
theorem not_entriesExit_fall : ¬ Run.Along step EntriesExit (RuntimeSetup.solo .nextOpen).start
    [.flat "BTC" 0 100 .buy,
      { CycleCall.flat "BTC" 3600 100 .hold with
        collaborators := .serving ⟨3600, 100, 100, 90, 100, 1⟩ .hold }] := by
  decide +kernel

theorem along_entriesExit_iff_quiet :
    Run.Along step EntriesExit (RuntimeSetup.solo .nextOpen).start
      [.flat "BTC" 0 100 .buy, .flat "BTC" 3600 100 .hold] ↔
    Run.Along step EntriesUntouched (RuntimeSetup.solo .nextOpen).start
      [.flat "BTC" 0 100 .buy, .flat "BTC" 3600 100 .hold] := by
  refine along_entriesExit_iff (RuntimeSetup.solo .nextOpen) (fun e he => ?_) _
  cases he
  rfl

end PlatformRuntime

end TradingPlatform
