import TradingPlatform.Runtime.Coupling

/-!
# The rule of the book

The engine of a runtime and the store it trades on make a book. What every move of a book and the
bookkeeping of the runtime keep, every cycle keeps, whether it returns or raises; what the
pre-decision pass makes of it holds after the cycle.
-/

namespace TradingPlatform

namespace PlatformRuntime

/-- The moves of the engine and the bookkeeping of the runtime keep `P`. -/
structure KeptByBook (P : Book → Prop) : Prop where
  moves : ∀ {c : EventCtx} {b b' : Book} {ts : List StateTransitionEvent} {closed : List ℕ},
    Book.Moves c b ts b' → Book.Coupled closed b → P b → P b'
  books : ∀ {b : Book} {ts : List StateTransitionEvent} {u : ℕ},
    (∀ t ∈ ts, t.IsBookkeeping) → b.uuid ≤ u → P b →
    P ⟨b.engine, Run.exec InMemoryStateStore.apply b.stateStore ts, u⟩

/-- The run so far has been traded, and `P` holds of the book of the engine. -/
structure Keeping (s₀ : InMemoryStateStore) (P : Book → Prop) (rt : PlatformRuntime) : Prop where
  traded : Traded s₀ rt
  book : ∀ engine ∈ rt.executionEngine, P ⟨engine, rt.stateStore, rt.uuid⟩

variable {s₀ : InMemoryStateStore} {P Q : Book → Prop} {rt rt' rt₁ : PlatformRuntime}
  {ctx : CycleCtx} {call : CycleCall} {engine : SimulatedExecutionEngine} {u : ℕ}
  {ts : List StateTransitionEvent}

theorem KeptByBook.draw (hP : KeptByBook P) {b : Book} (hle : b.uuid ≤ u) (h : P b) :
    P { b with uuid := u } :=
  have hnone : ∀ t ∈ ([] : List StateTransitionEvent), t.IsBookkeeping := List.forall_mem_nil _
  hP.books hnone hle h

namespace Keeping

theorem books (hP : KeptByBook P) (h : Keeping s₀ P rt) (hbooks : Books rt rt')
    (hengine : rt'.executionEngine = rt.executionEngine) : Keeping s₀ P rt' := by
  refine ⟨h.traded.books hbooks hengine, fun engine hmem => ?_⟩
  obtain ⟨ts, happlied, hts⟩ := hbooks
  rw [happlied.stateStore]
  exact hP.books hts happlied.uuid (h.book engine (hengine ▸ hmem))

theorem quiet (hP : KeptByBook P) (h : Keeping s₀ P rt) (hquiet : Quiet rt rt') :
    Keeping s₀ P rt' :=
  h.books hP (.of_applied_nil hquiet.applied_nil) hquiet.executionEngine

theorem prepared (hP : KeptByBook P) (h : Keeping s₀ P rt) (hprep : Prepared call rt ctx rt₁) :
    Keeping s₀ P rt₁ :=
  have hclock : Keeping s₀ P { rt₁ with clock := rt.clock } := h.quiet hP hprep.quiet
  ⟨h.traded.prepared hprep, hclock.book⟩

/-- Once the transitions of a pass have been applied, the runtime has the book of the pass. -/
theorem of_pass (hP : KeptByBook P)
    (htraded : Traded s₀
      ({ rt with uuid := u, executionEngine := some engine }.applyTransitions ts))
    (h : P ⟨engine, Run.exec InMemoryStateStore.apply rt.stateStore ts, u⟩) :
    Keeping s₀ P ({ rt with uuid := u, executionEngine := some engine }.applyTransitions ts) := by
  refine ⟨htraded, fun engine' hmem => ?_⟩
  have happlied := applied_applyTransitions
    { rt with uuid := u, executionEngine := some engine } ts
  rw [executionEngine_applyTransitions] at hmem
  obtain rfl := Option.some.inj hmem
  rw [happlied.stateStore]
  exact hP.draw happlied.uuid h

theorem coupled_draw (h : Traded s₀ rt) (hengine : rt.executionEngine = some engine)
    (hle : rt.uuid ≤ u) : Book.Coupled (closedIds rt.transitions) ⟨engine, rt.stateStore, u⟩ :=
  (h.coupled.book hengine).congr rfl rfl rfl hle

theorem sameBarExit (hP : KeptByBook P) (h : Keeping s₀ P rt)
    (hengine : rt.executionEngine = some engine) (signal : Option FinalSignal) :
    Keeping s₀ P (rt.sameBarExit ctx engine signal).2 := by
  have htraded : Traded s₀ (rt.sameBarExit ctx engine signal).2 :=
    h.traded.sameBarExit hengine signal
  cases signal with
  | none => rwa [sameBarExit_idle ctx engine none (.inl rfl)]
  | some signal =>
    by_cases hopen : rt.stateStore.portfolio.openPositions = []
    · rwa [sameBarExit_idle ctx engine (some signal) (.inr hopen)]
    · rw [sameBarExit_eq ctx engine signal hopen] at htraded ⊢
      have hcoupled := coupled_draw h.traded hengine (Nat.le_add_right rt.uuid 1)
      have hmoves := Book.evaluateBar_moves (c := executionCtx engine ctx ctx.eventTime) ctx.bar
        (some signal.side) false ⟨engine, rt.stateStore, rt.uuid + 1⟩ hcoupled.nodup
        (show (rt.snapshot ctx.cycleId).1.portfolio = rt.stateStore.portfolio from rfl)
      have hdrawn := hP.draw (Nat.le_add_right rt.uuid 1) (h.book engine hengine)
      exact of_pass hP htraded (hP.moves hmoves hcoupled hdrawn)

theorem executeDecision (hP : KeptByBook P) (h : Keeping s₀ P rt)
    (hengine : rt.executionEngine = some engine) (decision : Decision) :
    Keeping s₀ P (rt.executeDecision ctx engine decision).2 := by
  have htraded : Traded s₀ (rt.executeDecision ctx engine decision).2 :=
    h.traded.executeDecision hengine decision
  rcases executeDecision_spec rt ctx engine decision with hquiet |
    ⟨snapshot, u, u', pass, hle, _, _, hrun, hrt⟩
  · exact h.quiet hP hquiet
  · rw [hrt] at htraded ⊢
    have hmoves := Book.execute_moves ⟨engine, rt.stateStore, u⟩ hrun
    have hdrawn := hP.draw hle (h.book engine hengine)
    exact of_pass hP htraded (hP.moves hmoves (coupled_draw h.traded hengine hle) hdrawn)

theorem sameBarExitAndExecute (hP : KeptByBook P) (h : Keeping s₀ P rt) (decision : Decision) :
    Keeping s₀ P (rt.sameBarExitAndExecute ctx decision).2 := by
  cases hengine : rt.executionEngine with
  | none => rwa [sameBarExitAndExecute_idle (.inr hengine)]
  | some engine =>
    cases happroved : decision.isApproved with
    | false => rwa [sameBarExitAndExecute_idle (.inl happroved)]
    | true =>
      obtain ⟨engine', hengine', hrun⟩ := sameBarExitAndExecute_eq ctx happroved hengine
      rw [hrun]
      exact (h.sameBarExit hP hengine decision.finalSignal).executeDecision hP hengine' decision

/-- The pre-decision pass turns `P` into `Q`. -/
theorem preDecisionEvaluate (hP : KeptByBook P) (hQ : KeptByBook Q)
    (pass : ∀ (b : Book) (closed : List ℕ) (snapshot : StateSnapshot), Book.Coupled closed b →
      snapshot.portfolio = b.stateStore.portfolio → P b →
      Q (b.after (b.engine.evaluateBar ctx.bar snapshot
        (executionCtx b.engine ctx ctx.eventTime) none true b.uuid)))
    (h : Keeping s₀ P rt) : Keeping s₀ Q (rt.preDecisionEvaluate ctx).2 := by
  have htraded : Traded s₀ (rt.preDecisionEvaluate ctx).2 := h.traded.preDecisionEvaluate
  cases hengine : rt.executionEngine with
  | none =>
    rw [preDecisionEvaluate_none hengine]
    refine ⟨h.traded, fun engine hmem => ?_⟩
    rw [hengine] at hmem
    exact absurd hmem (Option.not_mem_none engine)
  | some engine =>
    have hdrawn := hP.draw (Nat.le_add_right rt.uuid 1) (h.book engine hengine)
    rw [preDecisionEvaluate_eq hengine] at htraded ⊢
    exact of_pass hQ htraded
      (pass _ _ _ (coupled_draw h.traded hengine (Nat.le_add_right rt.uuid 1)) rfl hdrawn)

/-- A cycle that gets a bar turns `P` into what its pre-decision pass makes of it. -/
theorem step_pass {Q : CycleCtx → Book → Prop} (hP : KeptByBook P)
    (hQ : ∀ ctx, KeptByBook (Q ctx))
    (pass : ∀ (ctx : CycleCtx) (b : Book) (closed : List ℕ) (snapshot : StateSnapshot),
      Book.Coupled closed b → snapshot.portfolio = b.stateStore.portfolio → P b →
      Q ctx (b.after (b.engine.evaluateBar ctx.bar snapshot
        (executionCtx b.engine ctx ctx.eventTime) none true b.uuid)))
    (h : Keeping s₀ P rt) (call : CycleCall) :
    (∃ e, rt.prepareBar call = .error e ∧ Keeping s₀ P (rt.step call)) ∨
      ∃ ctx rt₁, Prepared call rt ctx rt₁ ∧ Keeping s₀ (Q ctx) (rt.step call) := by
  have hrule := step_rule rt call (I := fun ctx r => Keeping s₀ (Q ctx) r)
    (fun ctx _ _ hquiet hr => hr.quiet (hQ ctx) hquiet) ?_ ?_ ?_ ?_ ?_
  · rcases hrule with ⟨e, hprep, hsame⟩ | hstep
    · exact .inl ⟨e, hprep, hsame.symm ▸ h⟩
    · exact .inr hstep
  · intro ctx rt₁ hprep
    exact (h.prepared hP hprep).preDecisionEvaluate hP (hQ ctx) (pass ctx)
  · intro ctx r hr
    exact hr.books (hQ ctx) (books_maybeResetDailyRisk r _ _) executionEngine_maybeResetDailyRisk
  · intro ctx r hr
    exact hr.books (hQ ctx) (books_markToMarket r ctx) executionEngine_markToMarket
  · intro ctx ctx' decision snapshot r _ hr
    exact hr.books (hQ ctx) (books_countApproved r ctx' decision snapshot)
      executionEngine_countApproved
  · intro ctx ctx' decision r _ _ hr
    exact hr.sameBarExitAndExecute (hQ ctx) decision

/-- A cycle keeps what the moves and the bookkeeping keep. -/
theorem step (hP : KeptByBook P) (h : Keeping s₀ P rt) (call : CycleCall) :
    Keeping s₀ P (rt.step call) := by
  have hpass := h.step_pass (Q := fun _ => P) hP (fun _ => hP) ?_ call
  · rcases hpass with ⟨_, _, hstep⟩ | ⟨_, _, _, hstep⟩
    · exact hstep
    · exact hstep
  · intro ctx b closed snapshot hcoupled hsnap hb
    exact hP.moves (Book.evaluateBar_moves ctx.bar none true b hcoupled.nodup hsnap) hcoupled hb

end Keeping

end PlatformRuntime

end TradingPlatform
