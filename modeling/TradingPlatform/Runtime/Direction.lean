import TradingPlatform.Runtime.Coupling
import TradingPlatform.Runtime.NextOpen

/-!
# One direction for each symbol

An approved decision first closes the positions of its symbol that it opposes and only then opens a
position or queues an entry. Together with the pre-decision pass, which drains the queue of the
symbol, this keeps all positions and queued entries of a symbol on one side.
-/

namespace TradingPlatform

open InMemoryStateStore

/-! ## Where open positions come from -/

/-- A position open after some trades was open before them or is opened by one of them. -/
theorem mem_exec_trades {s : InMemoryStateStore} {ts : List StateTransitionEvent}
    {p : PositionState} (hts : ∀ t ∈ ts, t.IsTrade)
    (hp : p ∈ (Run.exec InMemoryStateStore.apply s ts).portfolio.openPositions) :
    p ∈ s.portfolio.openPositions ∨
      ∃ t ∈ ts, ∃ fill cost, t.payload = .positionOpened p fill cost := by
  induction ts generalizing s with
  | nil => exact .inl hp
  | cons t ts ih =>
    rcases ih (fun t' ht' => hts t' (List.mem_cons_of_mem _ ht')) hp with
      hold | ⟨t', ht', fill, cost, hpay⟩
    · rcases hts t List.mem_cons_self with ⟨q, fill, cost, hpay⟩ | ⟨id, fill, pnl, reason, hpay⟩
      · rw [apply_positionOpened hpay] at hold
        rcases List.mem_append.mp hold with hold | hnew
        · exact .inl hold
        · obtain rfl := List.mem_singleton.mp hnew
          exact .inr ⟨t, List.mem_cons_self, fill, cost, hpay⟩
      · rw [apply_positionClosed hpay, openPositions_applyPositionClosed] at hold
        exact .inl (Keyed.mem_remove.mp hold).1
    · exact .inr ⟨t', List.mem_cons_of_mem _ ht', fill, cost, hpay⟩

theorem mem_exec_closings {s : InMemoryStateStore} {ts : List StateTransitionEvent}
    {p : PositionState} (hts : ∀ t ∈ ts, t.IsClosing)
    (hp : p ∈ (Run.exec InMemoryStateStore.apply s ts).portfolio.openPositions) :
    p ∈ s.portfolio.openPositions := by
  refine (mem_exec_trades (fun t ht => .inr (hts t ht)) hp).resolve_right ?_
  rintro ⟨t, ht, fill, cost, hopened⟩
  obtain ⟨_, _, _, _, hclosed⟩ := hts t ht
  cases hopened.symm.trans hclosed

@[simp] theorem symbol_revalue (prices : List (String × ℚ)) (p : PositionState) :
    (revalue prices p).symbol = p.symbol := by unfold revalue; split <;> rfl

@[simp] theorem side_revalue (prices : List (String × ℚ)) (p : PositionState) :
    (revalue prices p).side = p.side := by unfold revalue; split <;> rfl

/-- Bookkeeping changes the value of a position, not its symbol and its side. -/
theorem mem_exec_bookkeeping {s : InMemoryStateStore} {ts : List StateTransitionEvent}
    {p : PositionState} (hts : ∀ t ∈ ts, t.IsBookkeeping)
    (hp : p ∈ (Run.exec InMemoryStateStore.apply s ts).portfolio.openPositions) :
    ∃ q ∈ s.portfolio.openPositions, q.symbol = p.symbol ∧ q.side = p.side := by
  induction ts generalizing s with
  | nil => exact ⟨p, hp, rfl, rfl⟩
  | cons t ts ih =>
    obtain ⟨q, hq, hsym, hside⟩ := ih (fun t' ht' => hts t' (List.mem_cons_of_mem _ ht')) hp
    rcases hts t List.mem_cons_self with ⟨updates, hpay, _⟩ | ⟨prices, hpay⟩
    · rw [apply_riskUpdated hpay] at hq
      exact ⟨q, hq, hsym, hside⟩
    · rw [apply_markToMarket hpay] at hq
      obtain ⟨q', hq', rfl⟩ := List.mem_map.mp hq
      exact ⟨q', hq', by rw [← hsym, symbol_revalue], by rw [← hside, side_revalue]⟩

/-- The positions a decision side leaves are on the side it opens. -/
theorem side_eq_entrySide {side : Side} {positionSide : PositionSide}
    (h : side.opposes positionSide = false) :
    positionSide = SimulatedExecutionEngine.entrySide side := by
  cases side <;> cases positionSide <;> first | rfl | cases h

namespace PlatformRuntime

/-! ## Facing one way -/

/-- All open positions and all queued entries of the symbol are on the side. -/
structure Faces (symbol : String) (side : PositionSide) (rt : PlatformRuntime) : Prop where
  positions : ∀ p ∈ rt.stateStore.portfolio.openPositions, p.symbol = symbol → p.side = side
  entries : ∀ e ∈ rt.pendingEntries, e.symbol = symbol → e.positionSide = side

/-- Every symbol has one direction and at most one queued entry. -/
def OneDirection (rt : PlatformRuntime) : Prop :=
  ∀ symbol, (∃ side, rt.Faces symbol side) ∧
    (rt.pendingEntries.filter (·.symbol = symbol)).length ≤ 1

variable {rt rt' : PlatformRuntime} {ctx : CycleCtx} {engine : SimulatedExecutionEngine}
  {symbol : String} {side : PositionSide} {s₀ : InMemoryStateStore} {call : CycleCall}

theorem pendingEntries_of_some (h : rt.executionEngine = some engine) :
    rt.pendingEntries = engine.pendingEntries := by simp only [pendingEntries, h]

theorem Faces.books (h : rt.Faces symbol side) (hbooks : Books rt rt')
    (hengine : rt'.executionEngine = rt.executionEngine) : rt'.Faces symbol side where
  positions := by
    intro p hp hsym
    obtain ⟨ts, happlied, hts⟩ := hbooks
    rw [happlied.stateStore] at hp
    obtain ⟨q, hq, hsym', hside⟩ := mem_exec_bookkeeping hts hp
    exact hside.symm.trans (h.positions q hq (hsym'.trans hsym))
  entries := by
    have hsame : rt'.pendingEntries = rt.pendingEntries := by unfold pendingEntries; rw [hengine]
    exact hsame ▸ h.entries

/-- The pre-decision pass opens positions of the cycle's symbol on the sides of its entries. -/
theorem Faces.preDecisionEvaluate (h : rt.Faces symbol side) :
    (rt.preDecisionEvaluate ctx).2.Faces symbol side where
  entries := by
    rw [pendingEntries_preDecisionEvaluate]
    exact fun e he => h.entries e (List.mem_of_mem_filter he)
  positions := by
    intro p hp hsym
    cases hengine : rt.executionEngine with
    | none =>
      rw [preDecisionEvaluate_none hengine] at hp
      exact h.positions p hp hsym
    | some engine =>
      obtain ⟨opens, closes, engine', u', ⟨⟨u₁, hfills, hexits⟩, _⟩, _, hrt⟩ :=
        preDecisionEvaluate_some ctx hengine
      rw [hrt, (applied_applyTransitions _ _).stateStore, Run.exec_append] at hp
      have hp := mem_exec_closings (fun t ht => (hexits.isClosing t ht).1) hp
      rcases mem_exec_trades (fun t ht => .inl (hfills.isOpening.2 t ht).1) hp with
        hold | ⟨t, ht, fill, cost, hpay⟩
      · exact h.positions p hold hsym
      · obtain ⟨hctx, e, he, hside⟩ := hfills.opened t ht p fill cost hpay
        obtain ⟨he, hesym⟩ := List.mem_filter.mp he
        rw [hside]
        refine h.entries e (pendingEntries_of_some hengine ▸ he) ?_
        exact (of_decide_eq_true hesym).trans (hctx.symm.trans hsym)

/-- A same-bar exit leaves only the side that its signal opens. -/
theorem faces_sameBarExit (h : Traded s₀ rt) (hengine : rt.executionEngine = some engine)
    (signal : FinalSignal)
    (hdrained : ∀ e ∈ rt.pendingEntries, e.symbol ≠ ctx.symbol) :
    (rt.sameBarExit ctx engine (some signal)).2.Faces ctx.symbol
      (SimulatedExecutionEngine.entrySide signal.side) := by
  by_cases hopen : rt.stateStore.portfolio.openPositions = []
  · rw [sameBarExit_idle ctx engine (some signal) (.inr hopen)]
    refine ⟨fun p hp => ?_, fun e he hsym => absurd hsym (hdrained e he)⟩
    rw [hopen] at hp
    exact absurd hp List.not_mem_nil
  · rw [sameBarExit_eq ctx engine signal hopen]
    let c := executionCtx engine ctx ctx.eventTime
    let snapshot := (rt.snapshot ctx.cycleId).1
    let b : Book := ⟨engine, rt.stateStore, rt.uuid + 1⟩
    let pass := engine.evaluateBar ctx.bar snapshot c (some signal.side) false (rt.uuid + 1)
    have hcoupled : Book.Coupled (closedIds rt.transitions) b :=
      (h.coupled.book hengine).congr rfl rfl rfl (Nat.le_add_right _ 1)
    have hmoves : Book.Moves c b pass.1.transitions (b.after pass) :=
      Book.evaluateBar_moves ctx.bar (some signal.side) false b hcoupled.nodup rfl
    obtain ⟨hexits, hqueue⟩ := SimulatedExecutionEngine.evaluateBar_exit_spec ctx.bar c engine
      snapshot (some signal.side) (rt.uuid + 1)
    let passed : PlatformRuntime :=
      { rt with uuid := pass.2, executionEngine := some pass.1.engine }
    have happlied := applied_applyTransitions passed pass.1.transitions
    have hafter : (passed.applyTransitions pass.1.transitions).executionEngine =
        some pass.1.engine := executionEngine_applyTransitions
    refine ⟨fun p hp hsym => ?_, fun e he hsym => ?_⟩
    · have hp : p ∈ (Run.exec InMemoryStateStore.apply rt.stateStore
          pass.1.transitions).portfolio.openPositions := happlied.stateStore ▸ hp
      have hold : p ∈ rt.stateStore.portfolio.openPositions :=
        mem_exec_closings (fun t ht => (hexits.isClosing t ht).1) hp
      have hkey : pass.1.engine.positionBars.get? p.positionId ≠ none := by
        rw [← Dict.mem_keys_iff]
        have hbars : pass.1.engine.positionBars.keys = _ := (hmoves.coupled hcoupled).bars
        exact hbars ▸ List.mem_map_of_mem hp
      have hkept := SimulatedExecutionEngine.kept_evaluatePositions ctx.bar c (some signal.side)
        false rt.stateStore.portfolio.openPositions engine (rt.uuid + 1) hcoupled.nodup p hold hsym
        hkey
      exact side_eq_entrySide (SimulatedExecutionEngine.not_opposes_of_kept hkept)
    · have hentries : (passed.applyTransitions pass.1.transitions).pendingEntries =
          rt.pendingEntries := by
        rw [pendingEntries_of_some hafter, pendingEntries_of_some hengine]
        exact hqueue.pendingEntries
      exact absurd hsym (hdrained e (hentries ▸ he))

theorem Faces.sameBarExit (h : rt.Faces symbol side) (hengine : rt.executionEngine = some engine)
    (signal : Option FinalSignal) : (rt.sameBarExit ctx engine signal).2.Faces symbol side := by
  obtain ⟨exits, engine', u, u', _, hexits, hqueue, _, hexited⟩ :=
    sameBarExit_spec ctx signal hengine
  have hafter : (rt.sameBarExit ctx engine signal).2.executionEngine = some engine' := by
    rw [hexited, executionEngine_applyTransitions]
  refine ⟨fun p hp => ?_, ?_⟩
  · rw [hexited, (applied_applyTransitions _ _).stateStore] at hp
    exact h.positions p (mem_exec_closings (fun t ht => (hexits.isClosing t ht).1) hp)
  · rw [pendingEntries_of_some hafter, hqueue.pendingEntries, ← pendingEntries_of_some hengine]
    exact h.entries

/-- An execution adds at most one position or entry, of the cycle's symbol and on the side of the
decision's signal. -/
theorem Faces.executeDecision (h : rt.Faces symbol side)
    (hengine : rt.executionEngine = some engine) {decision : Decision}
    (hside : ∀ signal, decision.finalSignal = some signal → ctx.symbol = symbol →
      SimulatedExecutionEngine.entrySide signal.side = side) :
    (rt.executeDecision ctx engine decision).2.Faces symbol side := by
  rcases executeDecision_spec rt ctx engine decision with hquiet |
    ⟨_, u, u', pass, _, _, _, hrun, hrt⟩
  · exact h.books (.of_applied_nil hquiet.applied_nil) hquiet.executionEngine
  have hafter : (rt.executeDecision ctx engine decision).2.pendingEntries =
      pass.engine.pendingEntries := by
    rw [hrt]
    exact pendingEntries_of_some executionEngine_applyTransitions
  have hstore : (rt.executeDecision ctx engine decision).2.stateStore =
      Run.exec InMemoryStateStore.apply rt.stateStore pass.transitions := by
    rw [hrt]
    exact (applied_applyTransitions _ _).stateStore
  have hentries := h.entries
  rw [pendingEntries_of_some hengine] at hentries
  rcases SimulatedExecutionEngine.execute_direction hrun with ⟨hts, hqueue⟩ |
    ⟨signal, hsignal, ⟨e, hts, hqueue, hesym, heside⟩ |
      ⟨t, p, fill, cost, hts, hpay, hpsym, hpside, hqueue⟩⟩
  · refine ⟨?_, ?_⟩
    · rw [hstore, hts]
      exact h.positions
    · rw [hafter, hqueue]
      exact hentries
  · refine ⟨?_, ?_⟩
    · rw [hstore, hts]
      exact h.positions
    · rw [hafter, hqueue]
      intro e' he' hsym
      rcases List.mem_append.mp he' with hold | hnew
      · exact hentries e' hold hsym
      · obtain rfl := List.mem_singleton.mp hnew
        exact heside.trans (hside signal hsignal (hesym.symm.trans hsym))
  · refine ⟨?_, ?_⟩
    · rw [hstore, hts]
      intro q hq hsym
      rw [Run.exec_cons, Run.exec_nil, apply_positionOpened hpay] at hq
      rcases List.mem_append.mp hq with hold | hnew
      · exact h.positions q hold hsym
      · obtain rfl := List.mem_singleton.mp hnew
        exact hpside.trans (hside signal hsignal (hpsym.symm.trans hsym))
    · rw [hafter, hqueue]
      exact hentries

/-! ## One direction over a cycle -/

/-- A runtime whose symbols have one direction each, before the execution of a cycle: the entries of
the cycle's symbol have been drained. -/
structure Drained (s₀ : InMemoryStateStore) (ctx : CycleCtx) (rt : PlatformRuntime) : Prop where
  traded : Traded s₀ rt
  oneDirection : rt.OneDirection
  drained : ∀ e ∈ rt.pendingEntries, e.symbol ≠ ctx.symbol

theorem OneDirection.books (h : rt.OneDirection) (hbooks : Books rt rt')
    (hengine : rt'.executionEngine = rt.executionEngine) : rt'.OneDirection := by
  intro symbol
  obtain ⟨⟨side, hfaces⟩, hlen⟩ := h symbol
  have hsame : rt'.pendingEntries = rt.pendingEntries := by unfold pendingEntries; rw [hengine]
  exact ⟨⟨side, hfaces.books hbooks hengine⟩, hsame ▸ hlen⟩

theorem OneDirection.preDecisionEvaluate (h : rt.OneDirection) :
    (rt.preDecisionEvaluate ctx).2.OneDirection := by
  intro symbol
  obtain ⟨⟨side, hfaces⟩, hlen⟩ := h symbol
  refine ⟨⟨side, hfaces.preDecisionEvaluate⟩, le_trans ?_ hlen⟩
  rw [pendingEntries_preDecisionEvaluate]
  exact (List.filter_sublist.filter _).length_le

theorem Drained.books (h : Drained s₀ ctx rt) (hbooks : Books rt rt')
    (hengine : rt'.executionEngine = rt.executionEngine) : Drained s₀ ctx rt' where
  traded := h.traded.books hbooks hengine
  oneDirection := h.oneDirection.books hbooks hengine
  drained := by
    have hsame : rt'.pendingEntries = rt.pendingEntries := by unfold pendingEntries; rw [hengine]
    exact hsame ▸ h.drained

/-- The side of a symbol after an execution. -/
theorem Drained.faces (h : Drained s₀ ctx rt) (decision : Decision) (symbol : String) :
    ∃ side, (rt.sameBarExitAndExecute ctx decision).2.Faces symbol side := by
  obtain ⟨⟨side, hfaces⟩, _⟩ := h.oneDirection symbol
  cases hengine : rt.executionEngine with
  | none => exact ⟨side, by rwa [sameBarExitAndExecute_idle (.inr hengine)]⟩
  | some engine =>
    cases happroved : decision.isApproved with
    | false => exact ⟨side, by rwa [sameBarExitAndExecute_idle (.inl happroved)]⟩
    | true =>
      obtain ⟨engine', hengine', hrun⟩ := sameBarExitAndExecute_eq ctx happroved hengine
      have hctx : (rt.sameBarExit ctx engine decision.finalSignal).1.symbol = ctx.symbol := by
        obtain ⟨_, _, _, _, _, _, _, hsame, _⟩ := sameBarExit_spec ctx decision.finalSignal hengine
        exact hsame.symbol
      rw [hrun]
      cases hsignal : decision.finalSignal with
      | none =>
        rw [hsignal] at hengine'
        refine ⟨side, (hfaces.sameBarExit hengine none).executeDecision hengine' ?_⟩
        intro signal hsome
        cases hsignal.symm.trans hsome
      | some signal =>
        rw [hsignal] at hengine' hctx
        by_cases hsym : symbol = ctx.symbol
        · subst hsym
          refine ⟨_, (faces_sameBarExit h.traded hengine signal h.drained).executeDecision
            hengine' ?_⟩
          intro signal' hsome _
          obtain rfl := Option.some.inj (hsignal.symm.trans hsome)
          rfl
        · refine ⟨side, (hfaces.sameBarExit hengine (some signal)).executeDecision hengine' ?_⟩
          intro _ _ hsame
          exact absurd (hsame.symm.trans hctx) hsym

theorem Drained.sameBarExitAndExecute (h : Drained s₀ ctx rt) (decision : Decision) :
    (rt.sameBarExitAndExecute ctx decision).2.OneDirection := by
  intro symbol
  refine ⟨h.faces decision symbol, ?_⟩
  obtain ⟨_, hlen⟩ := h.oneDirection symbol
  rcases pendingEntries_sameBarExitAndExecute rt ctx decision with hkeep | ⟨e, hqueue, hesym, _⟩
  · rwa [hkeep]
  · rw [hqueue, List.filter_append, List.length_append]
    by_cases hsym : e.symbol = symbol
    · have hnil : rt.pendingEntries.filter (·.symbol = symbol) = [] := by
        refine List.filter_eq_nil_iff.mpr fun e' he' => ?_
        rw [decide_eq_true_eq, ← hsym, hesym]
        exact h.drained e' he'
      rw [hnil]
      exact Nat.le_of_eq (by simp [hsym])
    · simpa [hsym] using hlen

theorem oneDirection_step (htraded : Traded s₀ rt) (h : rt.OneDirection) (call : CycleCall) :
    (rt.step call).OneDirection := by
  have hrule := step_rule_post rt call (I := Drained s₀) (J := fun _ r => r.OneDirection)
    ?_ ?_ ?_ ?_ ?_ ?_ (fun _ _ hr => hr.oneDirection) ?_
  · rcases hrule with ⟨_, _, hsame⟩ | ⟨_, _, _, hstep⟩
    · rwa [hsame]
    · exact hstep
  · intro ctx r r' hquiet hr
    exact hr.books (.of_applied_nil hquiet.applied_nil) hquiet.executionEngine
  · intro ctx r r' hquiet hr
    exact hr.books (.of_applied_nil hquiet.applied_nil) hquiet.executionEngine
  · intro ctx rt₁ hprep
    have hone : OneDirection { rt₁ with clock := rt.clock } :=
      h.books (.of_applied_nil hprep.quiet.applied_nil) hprep.quiet.executionEngine
    refine ⟨(htraded.prepared hprep).preDecisionEvaluate, ?_, ?_⟩
    · have hone' : OneDirection rt₁ := fun symbol =>
        ⟨(hone symbol).1.imp fun _ hf => ⟨hf.positions, hf.entries⟩, (hone symbol).2⟩
      exact hone'.preDecisionEvaluate
    · rw [pendingEntries_preDecisionEvaluate]
      exact fun e he => of_decide_eq_true (List.mem_filter.mp he).2
  · intro ctx r hr
    exact hr.books (books_maybeResetDailyRisk r _ _) executionEngine_maybeResetDailyRisk
  · intro ctx r hr
    exact hr.books (books_markToMarket r ctx) executionEngine_markToMarket
  · intro ctx ctx' decision snapshot r _ hr
    exact hr.books (books_countApproved r ctx' decision snapshot) executionEngine_countApproved
  · intro ctx ctx' decision r hsame _ hr
    have hr' : Drained s₀ ctx' r :=
      ⟨hr.traded, hr.oneDirection, fun e he => hsame.symbol ▸ hr.drained e he⟩
    exact hr'.sameBarExitAndExecute decision

/-- After every cycle of a run all open positions and all queued entries of a symbol are on one
side, and at most one entry of a symbol is queued. -/
theorem along_oneDirection (setup : RuntimeSetup) (calls : List CycleCall) :
    Run.Along step (fun rt call => (rt.step call).OneDirection) setup.start calls := by
  refine Run.Along.of_inv
    (I := fun rt => Traded setup.start.stateStore rt ∧ rt.OneDirection) (D := fun _ _ => True)
    ?_ ?_ ⟨.start setup, ?_⟩ Run.along_true
  · rintro rt call ⟨htraded, hone⟩ _
    exact ⟨htraded.step call, oneDirection_step htraded hone call⟩
  · rintro rt call ⟨htraded, hone⟩ _
    exact oneDirection_step htraded hone call
  · intro symbol
    rw [pendingEntries_start]
    refine ⟨⟨.long, fun p hp => absurd hp List.not_mem_nil, ?_⟩, Nat.zero_le 1⟩
    rw [pendingEntries_start]
    exact fun e he => absurd he List.not_mem_nil

end PlatformRuntime

end TradingPlatform
