import TradingPlatform.Runtime.Direction
import TradingPlatform.Runtime.EntryBar
import TradingPlatform.Validation.Cash

/-!
# Levels around the entry price

The levels of an order are fixed with its decision; its entry price is the slipped close, the mid or
the open of a later bar. In a run in which every order is filled strictly between its levels, every
open position has its stop and its target on the proper sides of its entry price, and so no stop
books a gross profit and no target a gross loss.
-/

namespace TradingPlatform

open InMemoryStateStore SimulatedExecutionEngine

/-- The stop is on the losing side of the price and the target on the winning side. -/
def PositionSide.Brackets (side : PositionSide) (stopLoss price takeProfit : ℚ) : Prop :=
  match side with
  | .long => stopLoss < price ∧ price < takeProfit
  | .short => takeProfit < price ∧ price < stopLoss

instance (side : PositionSide) (stopLoss price takeProfit : ℚ) :
    Decidable (side.Brackets stopLoss price takeProfit) := by
  unfold PositionSide.Brackets
  cases side <;> infer_instance

/-- The levels of the position bracket its entry price. -/
def PositionState.Bracketed (p : PositionState) : Prop :=
  ∃ s ∈ p.stopLoss, ∃ t ∈ p.takeProfit, p.side.Brackets s p.entryPrice t

instance (p : PositionState) : Decidable p.Bracketed :=
  inferInstanceAs (Decidable (∃ s ∈ p.stopLoss, ∃ t ∈ p.takeProfit, _))

/-- The levels of the signal bracket its entry price. -/
def FinalSignal.Bracketed (signal : FinalSignal) : Prop :=
  (entrySide signal.side).Brackets signal.stopLoss signal.entryPrice signal.takeProfit

instance (signal : FinalSignal) : Decidable signal.Bracketed :=
  inferInstanceAs (Decidable (PositionSide.Brackets ..))

/-- Every open position has levels that bracket its entry price. -/
def InMemoryStateStore.Bracketed (s : InMemoryStateStore) : Prop :=
  ∀ p ∈ s.portfolio.openPositions, p.Bracketed

instance (s : InMemoryStateStore) : Decidable s.Bracketed :=
  inferInstanceAs (Decidable (∀ p ∈ s.portfolio.openPositions, _))

/-- A closing at a stop books no gross profit, one at a target no gross loss; the gross result is
the booked one with the fee of the exit added back. -/
def StateTransitionEvent.HonestExit (t : StateTransitionEvent) : Prop :=
  match t.payload with
  | .positionClosed _ fill pnl .stopLoss => pnl + fill.fee ≤ 0
  | .positionClosed _ fill pnl .takeProfit => 0 ≤ pnl + fill.fee
  | _ => True

instance (t : StateTransitionEvent) : Decidable t.HonestExit := by
  unfold StateTransitionEvent.HonestExit
  split <;> infer_instance

/-- Bracketed positions of a quantity that is not negative. -/
structure PositionState.Sound (p : PositionState) : Prop where
  bracketed : p.Bracketed
  quantity : 0 ≤ p.quantity

def InMemoryStateStore.Sound (s : InMemoryStateStore) : Prop :=
  ∀ p ∈ s.portfolio.openPositions, p.Sound

theorem InMemoryStateStore.Sound.bracketed {s : InMemoryStateStore} (h : s.Sound) : s.Bracketed :=
  fun p hp => (h p hp).bracketed

/-! ## What a transition does to the levels -/

/-- The transition keeps the positions sound, and its exit is honest. -/
def StateTransitionEvent.SoundMove (t : StateTransitionEvent) : Prop :=
  (∀ s : InMemoryStateStore, s.Sound → (s.apply t).Sound) ∧ t.HonestExit

variable {t : StateTransitionEvent} {p : PositionState} {bar : Bar} {reason : ExitReason}
  {price : ℚ}

theorem soundMove_opened (h : t.opened? = some p) (hp : p.Sound) : t.SoundMove := by
  obtain ⟨fill, cost, hpay⟩ := StateTransitionEvent.opened?_eq_some.mp h
  refine ⟨fun s hs q hq => ?_, by simp only [StateTransitionEvent.HonestExit, hpay]⟩
  rw [apply_positionOpened hpay] at hq
  rcases List.mem_append.mp hq with hq | hq
  · exact hs q hq
  · exact List.mem_singleton.mp hq ▸ hp

theorem soundMove_closing (h : t.IsClosing) (hexit : t.HonestExit) : t.SoundMove :=
  ⟨fun _ hs q hq => hs q (mem_exec_closings (fun _ ht => List.mem_singleton.mp ht ▸ h)
    (show q ∈ (Run.exec InMemoryStateStore.apply _ [t]).portfolio.openPositions from hq)), hexit⟩

theorem soundMove_bookkeeping (h : t.IsBookkeeping) : t.SoundMove := by
  rcases h with ⟨updates, hpay, _⟩ | ⟨prices, hpay⟩
  · refine ⟨fun s hs q hq => ?_, by simp only [StateTransitionEvent.HonestExit, hpay]⟩
    rw [apply_riskUpdated hpay] at hq
    exact hs q hq
  · refine ⟨fun s hs q hq => ?_, by simp only [StateTransitionEvent.HonestExit, hpay]⟩
    rw [apply_markToMarket hpay] at hq
    obtain ⟨q, hold, rfl⟩ := List.mem_map.mp hq
    have hsound := hs q hold
    unfold revalue
    split
    · exact hsound
    · exact ⟨hsound.bracketed, hsound.quantity⟩

/-- The closing of a sound position is honest when its price is the level its reason names. -/
theorem honestExit_closes (h : Closes p reason price t) (hp : p.Sound)
    (hstop : reason = .stopLoss → p.stopLoss = some price)
    (htarget : reason = .takeProfit → p.takeProfit = some price) : t.HonestExit := by
  obtain ⟨fill, pnl, hpay, -, hpnl⟩ := h
  obtain ⟨⟨s, hs, l, hl, hbrackets⟩, hquantity⟩ := hp
  have hgross : pnl + fill.fee = p.grossPnl price := by rw [hpnl, sub_add_cancel]
  cases reason with
  | stopLoss =>
    obtain rfl : s = price := Option.some.inj (hs.symm.trans (hstop rfl))
    simp only [StateTransitionEvent.HonestExit, hpay, hgross, PositionState.grossPnl]
    unfold PositionSide.Brackets at hbrackets
    cases hside : p.side <;> simp only [hside] at hbrackets ⊢
    · exact mul_nonpos_of_nonpos_of_nonneg (sub_nonpos.mpr hbrackets.1.le) hquantity
    · exact mul_nonpos_of_nonpos_of_nonneg (sub_nonpos.mpr hbrackets.2.le) hquantity
  | takeProfit =>
    obtain rfl : l = price := Option.some.inj (hl.symm.trans (htarget rfl))
    simp only [StateTransitionEvent.HonestExit, hpay, hgross, PositionState.grossPnl]
    unfold PositionSide.Brackets at hbrackets
    cases hside : p.side <;> simp only [hside] at hbrackets ⊢
    · exact mul_nonneg (sub_nonneg.mpr hbrackets.2.le) hquantity
    · exact mul_nonneg (sub_nonneg.mpr hbrackets.1.le) hquantity
  | signal => simp only [StateTransitionEvent.HonestExit, hpay]
  | timeout => simp only [StateTransitionEvent.HonestExit, hpay]
  | endOfRun => simp only [StateTransitionEvent.HonestExit, hpay]

namespace PlatformRuntime

variable {rt rt' rt₁ : PlatformRuntime} {ctx : CycleCtx} {call : CycleCall}
  {engine : SimulatedExecutionEngine} {ts : List StateTransitionEvent}

/-! ## Levels over a run -/

/-- In the present store and in every store the run has gone through the open positions have levels
that bracket their entry price, and every exit so far is honest. -/
structure Levelled (rt : PlatformRuntime) : Prop where
  stateStore : rt.stateStore.Bracketed
  trail : ∀ e ∈ rt.trail, e.2.Bracketed ∧ e.1.HonestExit

instance (rt : PlatformRuntime) : Decidable rt.Levelled :=
  decidable_of_iff (rt.stateStore.Bracketed ∧ ∀ e ∈ rt.trail, e.2.Bracketed ∧ e.1.HonestExit)
    ⟨fun h => ⟨h.1, h.2⟩, fun h => ⟨h.1, h.2⟩⟩

/-- The signal of the decision that a cycle approves, if it gets to one. -/
def approvedSignal (rt : PlatformRuntime) (call : CycleCall) : Option FinalSignal :=
  match (rt.runToDecision call).1 with
  | .ok d => if d.decision.isApproved then d.decision.finalSignal else none
  | .error _ => none

/-- The decision of the cycle, if it approves one, carries levels that bracket the price of its
signal. -/
def DecidesBracketed (rt : PlatformRuntime) (call : CycleCall) : Prop :=
  ∀ signal ∈ rt.approvedSignal call, signal.Bracketed

instance (rt : PlatformRuntime) (call : CycleCall) : Decidable (rt.DecidesBracketed call) :=
  inferInstanceAs (Decidable (∀ signal ∈ rt.approvedSignal call, _))

/-- The price at which the bar of the cycle fills an order is strictly between its levels: of every
entry queued for its symbol, and of the order that its decision fills at once. -/
def FillsInside (rt : PlatformRuntime) (call : CycleCall) : Prop :=
  match rt.prepareBar call with
  | .error _ => True
  | .ok (ctx, _) => ∀ engine ∈ rt.executionEngine,
    (∀ e ∈ engine.pendingEntries, e.symbol = ctx.symbol → e.positionSide.Brackets e.stopLoss
      (engine.fillPrice ctx.bar e.side true) e.takeProfit) ∧
    (engine.fillModel.fillAt ≠ .nextOpen → ∀ signal ∈ rt.approvedSignal call,
      (entrySide signal.side).Brackets signal.stopLoss (engine.fillPrice ctx.bar signal.side)
        signal.takeProfit)

theorem fillsInside_iff {rt : PlatformRuntime} {call : CycleCall} : rt.FillsInside call ↔
    ∀ prepared ∈ (rt.prepareBar call).toOption, ∀ engine ∈ rt.executionEngine,
      (∀ e ∈ engine.pendingEntries, e.symbol = prepared.1.symbol → e.positionSide.Brackets
        e.stopLoss (engine.fillPrice prepared.1.bar e.side true) e.takeProfit) ∧
      (engine.fillModel.fillAt ≠ .nextOpen → ∀ signal ∈ rt.approvedSignal call,
        (entrySide signal.side).Brackets signal.stopLoss
          (engine.fillPrice prepared.1.bar signal.side) signal.takeProfit) := by
  unfold FillsInside
  cases rt.prepareBar call with
  | error e => exact iff_of_true trivial fun prepared hprepared => by cases hprepared
  | ok prepared =>
    constructor
    · intro h prepared' hprepared
      cases hprepared
      exact h
    · exact fun h => h prepared rfl

instance (rt : PlatformRuntime) (call : CycleCall) : Decidable (rt.FillsInside call) :=
  decidable_of_iff' _ fillsInside_iff

/-- A condition on the cycles among the operations. -/
def OnCycle (P : PlatformRuntime → CycleCall → Prop) (rt : PlatformRuntime) : RuntimeOp → Prop
  | .cycle call => P rt call
  | .liquidate _ => True

instance (P : PlatformRuntime → CycleCall → Prop) [∀ rt call, Decidable (P rt call)]
    (rt : PlatformRuntime) : (op : RuntimeOp) → Decidable (OnCycle P rt op)
  | .cycle call => inferInstanceAs (Decidable (P rt call))
  | .liquidate _ => inferInstanceAs (Decidable True)

/-- Sound positions and honest exits so far, and queued entries of a positive quantity. -/
structure SoundRun (rt : PlatformRuntime) : Prop where
  stateStore : rt.stateStore.Sound
  trail : ∀ e ∈ rt.trail, e.2.Sound ∧ e.1.HonestExit
  queue : ∀ engine ∈ rt.executionEngine, ∀ e ∈ engine.pendingEntries, 0 < e.quantity

theorem SoundRun.levelled (h : rt.SoundRun) : rt.Levelled :=
  ⟨h.stateStore.bracketed, fun e he => ⟨(h.trail e he).1.bracketed, (h.trail e he).2⟩⟩

theorem SoundRun.applied (h : rt.SoundRun) (happlied : Applied ts rt rt')
    (hts : ∀ t ∈ ts, t.SoundMove)
    (hqueue : ∀ engine ∈ rt'.executionEngine, ∀ e ∈ engine.pendingEntries, 0 < e.quantity) :
    rt'.SoundRun := by
  have hstep : ∀ t ∈ ts, ∀ (s : InMemoryStateStore) (hist : Trail),
      (s.Sound ∧ ∀ e ∈ hist, e.2.Sound ∧ e.1.HonestExit) →
      (s.apply t).Sound ∧ ∀ e ∈ hist ++ [(t, s.apply t)], e.2.Sound ∧ e.1.HonestExit := by
    rintro t ht s hist ⟨hs, hhist⟩
    have hsound := (hts t ht).1 s hs
    refine ⟨hsound, fun e he => ?_⟩
    rcases List.mem_append.mp he with he | he
    · exact hhist e he
    · obtain rfl := List.mem_singleton.mp he
      exact ⟨hsound, (hts t ht).2⟩
  obtain ⟨hstore, htrail⟩ := happlied.trail_rule hstep ⟨h.stateStore, h.trail⟩
  exact ⟨hstore, htrail, hqueue⟩

theorem SoundRun.kept (h : rt.SoundRun) (hkept : Kept rt rt') : rt'.SoundRun := by
  obtain ⟨ts, happlied, hts⟩ := hkept.books
  refine h.applied happlied (fun t ht => soundMove_bookkeeping (hts t ht)) ?_
  rw [hkept.executionEngine]
  exact h.queue

/-- The pre-decision pass opens sound positions when the open of the bar is inside the levels. -/
theorem SoundRun.preDecisionEvaluate (h : rt.SoundRun)
    (hinside : ∀ engine ∈ rt.executionEngine, ∀ e ∈ engine.pendingEntries, e.symbol = ctx.symbol →
      e.positionSide.Brackets e.stopLoss (engine.fillPrice ctx.bar e.side true) e.takeProfit) :
    (rt.preDecisionEvaluate ctx).2.SoundRun := by
  cases hengine : rt.executionEngine with
  | none => rwa [preDecisionEvaluate_none hengine]
  | some engine =>
  obtain ⟨opens, closes, engine', u, u', happlied, hengine', hqueue, _, hfills, hcloses⟩ :=
    preDecisionEvaluate_exits ctx hengine
  refine h.applied happlied (fun t ht => ?_) fun e he => ?_
  · rcases List.mem_append.mp ht with ht | ht
    · obtain ⟨p, hp, _, e, he, filling, hmodel, hof⟩ := hfills.opened? t ht
      obtain ⟨he, hsym⟩ := List.mem_filter.mp he
      have hprice : filling.fillPrice ctx.bar e.side true =
          engine.fillPrice ctx.bar e.side true := by
        simp only [fillPrice, hmodel]
      refine soundMove_opened hp ⟨?_, ?_⟩
      · rw [hof]
        refine ⟨_, rfl, _, rfl, ?_⟩
        rw [hprice]
        exact hinside engine hengine e he (of_decide_eq_true hsym)
      · rw [hof]
        exact (h.queue engine hengine e he).le
    · obtain ⟨p, hp, reason, price, hclose, hreason⟩ := hcloses t ht
      refine soundMove_closing hclose.isClosing (honestExit_closes hclose (h.stateStore p hp) ?_ ?_)
      · rintro rfl
        rcases hreason with hlevels | ⟨hreason, _⟩
        · rcases checkLevels_reason hlevels with ⟨_, hstop⟩ | ⟨hreason, _⟩
          · exact hstop
          · cases hreason
        · cases hreason
      · rintro rfl
        rcases hreason with hlevels | ⟨hreason, _⟩
        · rcases checkLevels_reason hlevels with ⟨hreason, _⟩ | ⟨_, htarget⟩
          · cases hreason
          · exact htarget
        · cases hreason
  · cases hengine'.symm.trans he
    rw [hqueue.pendingEntries]
    exact fun e he => h.queue engine hengine e (List.mem_of_mem_filter he)

/-- An execution opens a sound position when its price is inside the levels of its signal. -/
theorem SoundRun.sameBarExitAndExecute (h : rt.SoundRun) {decision : Decision}
    (hinside : ∀ engine ∈ rt.executionEngine, engine.fillModel.fillAt ≠ .nextOpen →
      decision.isApproved = true → ∀ signal ∈ decision.finalSignal,
        (entrySide signal.side).Brackets signal.stopLoss (engine.fillPrice ctx.bar signal.side)
          signal.takeProfit) :
    (rt.sameBarExitAndExecute ctx decision).2.SoundRun := by
  cases hengine : rt.executionEngine with
  | none => rwa [sameBarExitAndExecute_idle (.inr hengine)]
  | some engine =>
  obtain ⟨exits, entry, engine₁, engine', happlied, hengine', hqueue, _, hexits, hentered⟩ :=
    sameBarExitAndExecute_entered ctx decision hengine
  have hprice : ∀ side, engine₁.fillPrice ctx.bar side = engine.fillPrice ctx.bar side := by
    intro side
    simp only [fillPrice, hqueue.fillModel]
  have hold : ∀ e ∈ engine₁.pendingEntries, 0 < e.quantity := by
    rw [hqueue.pendingEntries]
    exact h.queue engine hengine
  refine h.applied happlied (fun t ht => ?_) fun e he => ?_
  · rcases List.mem_append.mp ht with ht | ht
    · obtain ⟨p, hp, hclose⟩ := hexits t ht
      refine soundMove_closing hclose.isClosing (honestExit_closes hclose (h.stateStore p hp) ?_ ?_)
      · intro hreason
        cases hreason
      · intro hreason
        cases hreason
    · generalize engine'.pendingEntries = queue at hentered
      cases hentered with
      | idle => exact absurd ht List.not_mem_nil
      | queued => exact absurd ht List.not_mem_nil
      | filled hfill happroved hsignal hpos hopened =>
        obtain rfl := List.mem_singleton.mp ht
        refine soundMove_opened hopened ⟨⟨_, rfl, _, rfl, ?_⟩, hpos.le⟩
        rw [hqueue.fillModel] at hfill
        have hbrackets := hinside engine hengine hfill happroved _ hsignal
        rwa [← hprice] at hbrackets
  · cases hengine'.symm.trans he
    generalize engine'.pendingEntries = queue at hentered
    cases hentered with
    | idle => exact hold
    | filled => exact hold
    | queued _ _ _ hpos _ =>
      intro e he
      rcases List.mem_append.mp he with he | he
      · exact hold e he
      · exact List.mem_singleton.mp he ▸ hpos

theorem approvedSignal_of_ok {d : AtDecision} (h : rt.runToDecision call = (.ok d, rt'))
    (happroved : d.decision.isApproved = true) {signal : FinalSignal}
    (hsignal : d.decision.finalSignal = some signal) : signal ∈ rt.approvedSignal call := by
  simp only [approvedSignal, h, happroved, if_true]
  exact hsignal

theorem SoundRun.step (h : rt.SoundRun) (hinside : rt.FillsInside call) :
    (rt.step call).SoundRun := by
  rcases step_passes rt call with ⟨_, _, hsame⟩ | ⟨ctx, rt₁, hprep, hpasses⟩
  · rwa [hsame]
  have hengine : rt₁.executionEngine = rt.executionEngine := hprep.quiet.executionEngine
  simp only [FillsInside, hprep.prepared] at hinside
  have hclock : SoundRun { rt₁ with clock := rt.clock } := h.kept hprep.quiet.kept
  have hprepared : rt₁.SoundRun := ⟨hclock.stateStore, hclock.trail, hclock.queue⟩
  have hpre : (rt₁.preDecisionEvaluate ctx).2.SoundRun :=
    hprepared.preDecisionEvaluate fun engine he => (hinside engine (hengine ▸ he)).1
  rcases hpasses with hkept | ⟨d, rt₂, hdec, hkept, hsame, _, hquiet⟩
  · exact hpre.kept hkept
  refine ((hpre.kept hkept).sameBarExitAndExecute fun engine he hfill happroved signal hsignal =>
    ?_).kept hquiet.kept
  have hmem := approvedSignal_of_ok hdec happroved hsignal
  rw [hsame.bar]
  -- the engine that executes has the fill model of the one before the cycle
  rw [Option.mem_def, hkept.executionEngine] at he
  cases hfirst : rt₁.executionEngine with
  | none =>
    rw [preDecisionEvaluate_none hfirst, hfirst] at he
    cases he
  | some first =>
    obtain ⟨_, _, engine', _, _, _, hengine', hqueue, _⟩ := preDecisionEvaluate_exits ctx hfirst
    cases hengine'.symm.trans he
    have hmodel : engine.fillModel = first.fillModel := hqueue.fillModel
    have hbrackets := (hinside first (hengine ▸ hfirst)).2 (hmodel ▸ hfill) signal hmem
    simpa only [fillPrice, hmodel] using hbrackets

theorem SoundRun.liquidate (h : rt.SoundRun) {call : LiquidationCall}
    (hrun : rt.liquidateOpenPositions call = .ok rt') : rt'.SoundRun := by
  rcases liquidateOpenPositions_ok hrun with ⟨rfl, _⟩ | ⟨engine, bar, c, hengine, _, _, _, rfl⟩
  · exact h
  let positions := rt.stateStore.portfolio.openPositions
  let result := closeAll bar.close c engine positions (rt.uuid + 1)
  let passed : PlatformRuntime :=
    { rt with uuid := result.2, executionEngine := some result.1.engine }
  have hle : rt.uuid ≤ result.2 := (Nat.le_add_right _ 1).trans (le_closeAll_uuid positions)
  have happlied : Applied result.1.transitions rt (passed.applyTransitions result.1.transitions) :=
    applied_of_engine hle
  have hengine' : (passed.applyTransitions result.1.transitions).executionEngine =
      some result.1.engine := executionEngine_applyTransitions
  refine SoundRun.kept (h.applied happlied (fun t ht => ?_) fun e he => ?_) quiet_published.kept
  · obtain ⟨p, hp, hclose⟩ := mem_closeAll ht
    refine soundMove_closing hclose.isClosing (honestExit_closes hclose (h.stateStore p hp) ?_ ?_)
    · intro hreason
      cases hreason
    · intro hreason
      cases hreason
  · cases hengine'.symm.trans he
    rw [(closeAll_closes bar.close c positions engine (rt.uuid + 1)).1.pendingEntries]
    exact h.queue engine hengine

theorem SoundRun.operate (h : rt.SoundRun) {op : RuntimeOp} (hinside : OnCycle FillsInside rt op) :
    (rt.operate op).SoundRun := by
  cases op with
  | cycle call => exact h.step hinside
  | liquidate call =>
    simp only [PlatformRuntime.operate]
    split
    · next hrun => exact h.liquidate hrun
    · exact h

theorem SoundRun.start (setup : RuntimeSetup) : setup.start.SoundRun where
  stateStore := fun p hp => absurd hp List.not_mem_nil
  trail := fun e he => absurd he List.not_mem_nil
  queue := fun engine he e hpending => by
    obtain ⟨setup, _, rfl⟩ := Option.map_eq_some_iff.mp he
    cases hpending

/-- In a run in which every order is filled strictly between its levels, every open position has
levels that bracket its entry price, and no exit at a stop books a gross profit and none at a target
a gross loss. -/
theorem levelled_of_along_fillsInside (setup : RuntimeSetup) (ops : List RuntimeOp)
    (h : Run.Along operate (OnCycle FillsInside) setup.start ops) : (setup.after ops).Levelled :=
  (h.exec_inv (fun _ _ hsound hinside => SoundRun.operate hsound hinside)
    (SoundRun.start setup)).levelled

/-- A buy decided at 100, with its stop at 99, is filled at the open of the next bar at 90: the stop
lies above the entry price, and the bar after that closes the position at its stop with a profit. -/
theorem not_levelled_gap :
    let ops : List RuntimeOp := [.cycle (.flat "BTC" 0 100 .buy),
      .cycle (.flat "BTC" 3600 90 .hold), .cycle (.flat "BTC" 7200 90 .hold)]
    Run.Along operate (OnCycle DecidesBracketed) (RuntimeSetup.solo .nextOpen).start ops ∧
      ¬ ((RuntimeSetup.solo .nextOpen).after (ops.take 2)).stateStore.Bracketed ∧
      ¬ ((RuntimeSetup.solo .nextOpen).after ops).Levelled ∧
      ∃ e ∈ ((RuntimeSetup.solo .nextOpen).after ops).trail, ¬ e.1.HonestExit := by
  decide +kernel

theorem levelled_solo : ((RuntimeSetup.solo .nextOpen).after [.cycle (.flat "BTC" 0 100 .buy),
    .cycle (.flat "BTC" 3600 100 .hold)]).Levelled :=
  levelled_of_along_fillsInside _ _ (by decide +kernel)

end PlatformRuntime

end TradingPlatform
