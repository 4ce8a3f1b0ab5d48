import TradingPlatform.Execution.Coupling
import TradingPlatform.Runtime.Phases

/-!
# The engine in step with the store

Over every cycle, whether it returns or raises, the simulated engine's private maps have the ids of
the store's open positions, and every transition the runtime applies is one the store's bookkeeping
expects: a new id is opened, only an open position is closed. After the pre-decision pass no
position of the cycle's symbol has been held for the limit of bars.
-/

namespace TradingPlatform

open InMemoryStateStore

theorem map_fst_trailFrom {s : InMemoryStateStore} {ts : List StateTransitionEvent} :
    (PlatformRuntime.trailFrom s ts).map Prod.fst = ts := by
  induction ts generalizing s with
  | nil => rfl
  | cons t ts ih => rw [PlatformRuntime.trailFrom, List.map_cons, ih]

/-- A bookkeeping transition opens and closes nothing. -/
theorem openIds_apply_bookkeeping {s : InMemoryStateStore} {t : StateTransitionEvent}
    (h : t.IsBookkeeping) : (s.apply t).openIds = s.openIds := by
  rcases h with ⟨updates, hpay, _⟩ | ⟨prices, hpay⟩
  · rw [apply_riskUpdated hpay]
    rfl
  · rw [apply_markToMarket hpay]
    exact openIds_applyMarkToMarket _ _

theorem openIds_exec_bookkeeping {s : InMemoryStateStore} {ts : List StateTransitionEvent}
    (h : ∀ t ∈ ts, t.IsBookkeeping) :
    (Run.exec InMemoryStateStore.apply s ts).openIds = s.openIds :=
  Run.exec_frame openIds fun t ht _ => openIds_apply_bookkeeping (h t ht)

theorem produced_bookkeeping {s : InMemoryStateStore} {t : StateTransitionEvent}
    (h : t.IsBookkeeping) : Produced s t.payload := by
  rcases h with ⟨updates, hpay, hexposure, _⟩ | ⟨prices, hpay⟩
  · rw [hpay]
    exact .riskUpdated hexposure
  · rw [hpay]
    exact .markToMarket

theorem producedFrom_bookkeeping {s : InMemoryStateStore} {ts : List StateTransitionEvent}
    (h : ∀ t ∈ ts, t.IsBookkeeping) : s.ProducedFrom ts := by
  induction ts generalizing s with
  | nil => trivial
  | cons t ts ih =>
    exact ⟨produced_bookkeeping (h t List.mem_cons_self),
      ih fun t' ht' => h t' (List.mem_cons_of_mem _ ht')⟩

theorem closedIds_bookkeeping {ts : List StateTransitionEvent}
    (h : ∀ t ∈ ts, t.IsBookkeeping) : closedIds ts = [] := by
  refine List.filterMap_eq_nil_iff.mpr fun t ht => ?_
  rcases h t ht with ⟨updates, hpay, _⟩ | ⟨prices, hpay⟩ <;>
    simp only [StateTransitionEvent.closedId?, hpay]

namespace PlatformRuntime

/-- The transitions applied so far. -/
def transitions (rt : PlatformRuntime) : List StateTransitionEvent := rt.applied.map Prod.fst

/-- The engine and its store are coupled; a runtime without an engine has never held a position. -/
def Coupled (rt : PlatformRuntime) : Prop :=
  match rt.executionEngine with
  | none => rt.stateStore.portfolio.openPositions = [] ∧ closedIds rt.transitions = []
  | some engine => Book.Coupled (closedIds rt.transitions) ⟨engine, rt.stateStore, rt.uuid⟩

/-- The run so far, as the store has seen it: the transitions lead from `s₀` to the present store,
each of them is produced in the state it is applied in, and the engine is in step. -/
structure Traded (s₀ : InMemoryStateStore) (rt : PlatformRuntime) : Prop where
  stateStore : rt.stateStore = Run.exec InMemoryStateStore.apply s₀ rt.transitions
  trail : rt.trail = trailFrom s₀ rt.transitions
  produced : s₀.ProducedFrom rt.transitions
  coupled : rt.Coupled

variable {rt rt' : PlatformRuntime} {s₀ : InMemoryStateStore} {ts : List StateTransitionEvent}
  {ctx : CycleCtx} {call : CycleCall} {engine : SimulatedExecutionEngine}

theorem map_fst_trail : rt.trail.map Prod.fst = rt.transitions := by
  simp [trail, transitions, Function.comp_def]

theorem Applied.transitions (h : Applied ts rt rt') : rt'.transitions = rt.transitions ++ ts := by
  rw [← map_fst_trail, h.trail, List.map_append, map_fst_trail, map_fst_trailFrom]

theorem Coupled.book (h : rt.Coupled) (hengine : rt.executionEngine = some engine) :
    Book.Coupled (closedIds rt.transitions) ⟨engine, rt.stateStore, rt.uuid⟩ := by
  unfold PlatformRuntime.Coupled at h
  rwa [hengine] at h

theorem Coupled.of_some (hengine : rt.executionEngine = some engine)
    (h : Book.Coupled (closedIds rt.transitions) ⟨engine, rt.stateStore, rt.uuid⟩) :
    rt.Coupled := by
  unfold PlatformRuntime.Coupled
  rwa [hengine]

theorem Traded.applied (h : Traded s₀ rt) (happlied : Applied ts rt rt')
    (hproduced : rt.stateStore.ProducedFrom ts) (hcoupled : rt'.Coupled) : Traded s₀ rt' where
  stateStore := by
    rw [happlied.stateStore, happlied.transitions, Run.exec_append, ← h.stateStore]
  trail := by
    rw [happlied.trail, happlied.transitions, trailFrom_append, ← h.stateStore, h.trail]
  produced := by
    rw [happlied.transitions]
    exact Run.along_append.mpr ⟨h.produced, h.stateStore ▸ hproduced⟩
  coupled := hcoupled

/-- Bookkeeping leaves the engine in step. -/
theorem Traded.books (h : Traded s₀ rt) (hbooks : Books rt rt')
    (hengine : rt'.executionEngine = rt.executionEngine) : Traded s₀ rt' := by
  obtain ⟨ts, happlied, hts⟩ := hbooks
  refine h.applied happlied (producedFrom_bookkeeping hts) ?_
  have hclosed : closedIds rt'.transitions = closedIds rt.transitions := by
    rw [happlied.transitions, closedIds_append, closedIds_bookkeeping hts, List.append_nil]
  have hids : rt'.stateStore.openIds = rt.stateStore.openIds := by
    rw [happlied.stateStore, openIds_exec_bookkeeping hts]
  cases hnone : rt.executionEngine with
  | none =>
    have hcoupled := h.coupled
    unfold PlatformRuntime.Coupled at hcoupled ⊢
    rw [hengine, hnone]
    rw [hnone] at hcoupled
    refine ⟨?_, hclosed.trans hcoupled.2⟩
    have hnil : rt'.stateStore.openIds = [] := by
      rw [hids, openIds, hcoupled.1, List.map_nil]
    exact List.map_eq_nil_iff.mp hnil
  | some engine =>
    refine .of_some (hengine.trans hnone) ?_
    rw [hclosed]
    exact (h.coupled.book hnone).congr rfl rfl hids happlied.uuid

theorem Traded.quiet (h : Traded s₀ rt) (hquiet : Quiet rt rt') : Traded s₀ rt' :=
  h.books (.of_applied_nil hquiet.applied_nil) hquiet.executionEngine

/-- Moves of the book whose transitions are then applied leave the engine in step. -/
theorem Traded.moves (h : Traded s₀ rt) (hengine : rt.executionEngine = some engine) {c : EventCtx}
    {u u' : ℕ} {engine' : SimulatedExecutionEngine} (hle : rt.uuid ≤ u) (hle' : u ≤ u')
    {s : InMemoryStateStore}
    (hmoves : Book.Moves c ⟨engine, rt.stateStore, u⟩ ts ⟨engine', s, u'⟩) :
    Traded s₀ ({ rt with uuid := u', executionEngine := some engine' }.applyTransitions ts) := by
  have hcoupled : Book.Coupled (closedIds rt.transitions) ⟨engine, rt.stateStore, u⟩ :=
    (h.coupled.book hengine).congr rfl rfl rfl hle
  have happlied := applied_applyTransitions
    { rt with uuid := u', executionEngine := some engine' } ts
  refine h.applied (applied_of_engine (hle.trans hle')) (hmoves.produced hcoupled) ?_
  have hengine' : ({ rt with uuid := u', executionEngine := some engine' }.applyTransitions
      ts).executionEngine = some engine' := executionEngine_applyTransitions
  refine .of_some hengine' ?_
  rw [happlied.transitions, closedIds_append]
  exact (hmoves.coupled hcoupled).congr rfl rfl
    (congrArg openIds (happlied.stateStore.trans hmoves.stateStore.symm)) happlied.uuid

theorem Traded.preDecisionEvaluate (h : Traded s₀ rt) :
    Traded s₀ (rt.preDecisionEvaluate ctx).2 := by
  cases hengine : rt.executionEngine with
  | none => rwa [preDecisionEvaluate_none hengine]
  | some engine =>
    rw [preDecisionEvaluate_eq hengine]
    have hmoves := Book.evaluateBar_moves (c := executionCtx engine ctx ctx.eventTime) ctx.bar none
      true ⟨engine, rt.stateStore, rt.uuid + 1⟩ (h.coupled.book hengine).nodup
      (show (rt.snapshot ctx.cycleId).1.portfolio = rt.stateStore.portfolio from rfl)
    exact h.moves hengine (Nat.le_add_right _ 1) hmoves.le_uuid hmoves

/-- The same-bar exit leaves an engine, and the engine in step. -/
theorem Traded.sameBarExit (h : Traded s₀ rt) (hengine : rt.executionEngine = some engine)
    (signal : Option FinalSignal) : Traded s₀ (rt.sameBarExit ctx engine signal).2 := by
  cases signal with
  | none => rwa [sameBarExit_idle ctx engine none (.inl rfl)]
  | some signal =>
    by_cases hopen : rt.stateStore.portfolio.openPositions = []
    · rwa [sameBarExit_idle ctx engine (some signal) (.inr hopen)]
    · rw [sameBarExit_eq ctx engine signal hopen]
      have hmoves := Book.evaluateBar_moves (c := executionCtx engine ctx ctx.eventTime) ctx.bar
        (some signal.side) false ⟨engine, rt.stateStore, rt.uuid + 1⟩ (h.coupled.book hengine).nodup
        (show (rt.snapshot ctx.cycleId).1.portfolio = rt.stateStore.portfolio from rfl)
      exact h.moves hengine (Nat.le_add_right _ 1) hmoves.le_uuid hmoves

theorem Traded.executeDecision (h : Traded s₀ rt) (hengine : rt.executionEngine = some engine)
    (decision : Decision) : Traded s₀ (rt.executeDecision ctx engine decision).2 := by
  rcases executeDecision_spec rt ctx engine decision with hquiet |
    ⟨snapshot, u, u', pass, hle, _, _, hrun, hrt⟩
  · exact h.quiet hquiet
  · rw [hrt]
    have hmoves := Book.execute_moves ⟨engine, rt.stateStore, u⟩ hrun
    exact h.moves hengine hle hmoves.le_uuid hmoves

theorem Traded.sameBarExitAndExecute (h : Traded s₀ rt) (decision : Decision) :
    Traded s₀ (rt.sameBarExitAndExecute ctx decision).2 := by
  cases hengine : rt.executionEngine with
  | none => rwa [sameBarExitAndExecute_idle (.inr hengine)]
  | some engine =>
    cases happroved : decision.isApproved with
    | false => rwa [sameBarExitAndExecute_idle (.inl happroved)]
    | true =>
      obtain ⟨engine', hengine', hrun⟩ :=
        sameBarExitAndExecute_eq ctx happroved hengine
      rw [hrun]
      exact (h.sameBarExit hengine decision.finalSignal).executeDecision hengine' decision

theorem Traded.start (setup : RuntimeSetup) : Traded setup.start.stateStore setup.start where
  stateStore := rfl
  trail := rfl
  produced := trivial
  coupled := by
    unfold PlatformRuntime.Coupled
    cases hengine : setup.start.executionEngine with
    | none => exact ⟨rfl, rfl⟩
    | some engine =>
      obtain ⟨e, _, rfl⟩ := Option.map_eq_some_iff.mp hengine
      exact Book.Coupled.start rfl rfl rfl 0

theorem Traded.prepared {rt₁ : PlatformRuntime} (h : Traded s₀ rt)
    (hprep : Prepared call rt ctx rt₁) : Traded s₀ rt₁ :=
  have hclock : Traded s₀ { rt₁ with clock := rt.clock } := h.quiet hprep.quiet
  ⟨hclock.stateStore, hclock.trail, hclock.produced, hclock.coupled⟩

/-- A cycle leaves the engine in step, whether it returns or raises. -/
theorem Traded.step (h : Traded s₀ rt) (call : CycleCall) : Traded s₀ (rt.step call) := by
  have hrule := step_rule rt call (I := fun _ r => Traded s₀ r)
    (fun _ _ _ hquiet hr => hr.quiet hquiet) ?_ ?_ ?_ ?_ ?_
  · rcases hrule with ⟨_, _, hsame⟩ | ⟨_, _, _, hstep⟩
    · rwa [hsame]
    · exact hstep
  · intro ctx rt₁ hprep
    exact (h.prepared hprep).preDecisionEvaluate
  · intro ctx r hr
    exact hr.books (books_maybeResetDailyRisk r _ _) executionEngine_maybeResetDailyRisk
  · intro ctx r hr
    exact hr.books (books_markToMarket r ctx) executionEngine_markToMarket
  · intro ctx ctx' decision snapshot r _ hr
    exact hr.books (books_countApproved r ctx' decision snapshot) executionEngine_countApproved
  · intro ctx ctx' decision r _ _ hr
    exact hr.sameBarExitAndExecute decision

/-! ## The engine and the store over a run -/

/-- Every closing transition of a trail closes a position that is open in the state before it. -/
def ClosesOpen : InMemoryStateStore → Trail → Prop
  | _, [] => True
  | s, (t, s') :: rest => (∀ id ∈ t.closedId?, id ∈ s.openIds) ∧ ClosesOpen s' rest

/-- The engine's maps have the ids of the open positions, which are distinct; over the run from the
store `s₀` only open positions have been closed, and each once. -/
structure InStep (s₀ : InMemoryStateStore) (rt : PlatformRuntime) : Prop where
  bars : ∀ engine ∈ rt.executionEngine, ∀ id,
    id ∈ engine.positionBars.keys ↔ id ∈ rt.stateStore.openIds
  orders : ∀ engine ∈ rt.executionEngine, ∀ id,
    id ∈ engine.positionOrders.keys ↔ id ∈ rt.stateStore.openIds
  nodup : rt.stateStore.openIds.Nodup
  closesOpen : ClosesOpen s₀ rt.trail
  closedOnce : (closedIds rt.transitions).Nodup

/-- After the pre-decision pass of a cycle that gets a bar, every open position of the cycle's
symbol has been held for fewer bars than the limit. -/
def BelowBarLimit (rt : PlatformRuntime) (call : CycleCall) : Prop :=
  match rt.prepareBar call with
  | .error _ => True
  | .ok (ctx, rt₁) => ∀ engine ∈ (rt₁.preDecisionEvaluate ctx).2.executionEngine,
    ∀ p ∈ (rt₁.preDecisionEvaluate ctx).2.stateStore.portfolio.openPositions,
      p.symbol = ctx.symbol → ∃ n, engine.positionBars.get? p.positionId = some n ∧
        n < engine.config.maxBarsInTrade

theorem closesOpen_of_produced {s : InMemoryStateStore} (h : s.ProducedFrom ts) :
    ClosesOpen s (trailFrom s ts) := by
  induction ts generalizing s with
  | nil => trivial
  | cons t ts ih =>
    refine ⟨fun id hid => ?_, ih h.2⟩
    have hproduced : Produced s t.payload := h.1
    cases hpay : t.payload with
    | positionClosed id' fill pnl reason =>
      rw [hpay] at hproduced
      simp only [StateTransitionEvent.closedId?, hpay, Option.mem_some_iff] at hid
      cases hproduced with
      | positionClosed isOpen => exact hid ▸ List.mem_map_of_mem isOpen
    | _ => simp [StateTransitionEvent.closedId?, hpay] at hid

theorem Traded.inStep (h : Traded s₀ rt) : rt.InStep s₀ := by
  have hcloses : ClosesOpen s₀ rt.trail := h.trail ▸ closesOpen_of_produced h.produced
  cases hengine : rt.executionEngine with
  | none =>
    have hcoupled := h.coupled
    unfold PlatformRuntime.Coupled at hcoupled
    rw [hengine] at hcoupled
    have hnil : rt.stateStore.openIds = [] := by rw [openIds, hcoupled.1, List.map_nil]
    refine ⟨?_, ?_, hnil ▸ List.nodup_nil, hcloses, hcoupled.2 ▸ List.nodup_nil⟩
    · rw [hengine]
      exact fun engine hmem => absurd hmem (Option.not_mem_none engine)
    · rw [hengine]
      exact fun engine hmem => absurd hmem (Option.not_mem_none engine)
  | some engine =>
    obtain ⟨hbars, horders, hnd, _, hclosed, _⟩ := h.coupled.book hengine
    refine ⟨?_, ?_, hnd, hcloses, hclosed⟩
    · intro engine' hmem id
      obtain rfl := Option.some.inj (hengine.symm.trans hmem)
      exact hbars ▸ Iff.rfl
    · intro engine' hmem id
      obtain rfl := Option.some.inj (hengine.symm.trans hmem)
      exact horders ▸ Iff.rfl

theorem Traded.belowBarLimit (h : Traded s₀ rt) (call : CycleCall) : rt.BelowBarLimit call := by
  unfold BelowBarLimit
  cases hprepare : rt.prepareBar call with
  | error e => trivial
  | ok prepared =>
    obtain ⟨ctx, rt₁⟩ := prepared
    have htraded : Traded s₀ rt₁ := h.prepared (prepareBar_ok hprepare)
    intro engine' hengine' p hp hsym
    cases hengine : rt₁.executionEngine with
    | none =>
      rw [preDecisionEvaluate_none hengine, hengine] at hengine'
      exact absurd hengine' (Option.not_mem_none engine')
    | some engine =>
      have hcoupled : Book.Coupled (closedIds rt₁.transitions)
          ⟨engine, rt₁.stateStore, rt₁.uuid + 1⟩ :=
        (htraded.coupled.book hengine).congr rfl rfl rfl (Nat.le_add_right _ 1)
      rw [preDecisionEvaluate_eq hengine] at hengine' hp
      let pass := engine.evaluateBar ctx.bar (rt₁.snapshot ctx.cycleId).1
        (executionCtx engine ctx ctx.eventTime) none true (rt₁.uuid + 1)
      let passed : PlatformRuntime :=
        { rt₁ with uuid := pass.2, executionEngine := some pass.1.engine }
      have happlied : Applied pass.1.transitions passed
          (passed.applyTransitions pass.1.transitions) :=
        applied_applyTransitions passed pass.1.transitions
      have hsame : (passed.applyTransitions pass.1.transitions).executionEngine =
          some pass.1.engine := executionEngine_applyTransitions
      obtain rfl := Option.some.inj (hsame.symm.trans hengine')
      have hp : p ∈ (Run.exec InMemoryStateStore.apply rt₁.stateStore
          pass.1.transitions).portfolio.openPositions := happlied.stateStore ▸ hp
      obtain ⟨_, _, _, _, _, _, hqueue⟩ := SimulatedExecutionEngine.evaluateBar_spec ctx.bar
        (executionCtx engine ctx ctx.eventTime) engine (rt₁.snapshot ctx.cycleId).1 none
        (rt₁.uuid + 1)
      have hconfig : pass.1.engine.config = engine.config := hqueue.config
      obtain ⟨n, hn, hlt⟩ := Book.evaluateBar_belowLimit
        (c := executionCtx engine ctx ctx.eventTime) ctx.bar hcoupled
        (show (rt₁.snapshot ctx.cycleId).1.portfolio = rt₁.stateStore.portfolio from rfl) hp hsym
      exact ⟨n, hn, hconfig ▸ hlt⟩

/-- After every cycle of a run the engine is in step with the store, and in every cycle the
pre-decision pass leaves no position of its symbol open that has been held for the limit of
bars. -/
theorem along_inStep (setup : RuntimeSetup) (calls : List CycleCall) :
    Run.Along step (fun rt call => (rt.step call).InStep setup.start.stateStore ∧
      rt.BelowBarLimit call) setup.start calls :=
  Run.Along.of_inv (I := Traded setup.start.stateStore) (D := fun _ _ => True)
    (fun _ call h _ => h.step call)
    (fun _ call h _ => ⟨(h.step call).inStep, h.belowBarLimit call⟩) (.start setup) Run.along_true

end PlatformRuntime

end TradingPlatform
