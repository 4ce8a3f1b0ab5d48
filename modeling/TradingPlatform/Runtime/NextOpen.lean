import TradingPlatform.Runtime.Phases

/-!
# Entries waiting for the next open

An order of a next-open fill model waits in the engine's queue and is filled by the next cycle of
its symbol, on whatever bar that cycle has. Here the fills of a run are related to the bars its
cycles run on.
-/

namespace TradingPlatform

namespace PlatformRuntime

open SimulatedExecutionEngine

variable {rt r r' : PlatformRuntime} {ctx ctx' : CycleCtx} {call : CycleCall}

/-! ## The queue over a cycle -/

/-- The execution queues at most one entry, of the cycle's symbol and of the decision's time. -/
theorem pendingEntries_sameBarExitAndExecute (r : PlatformRuntime) (ctx : CycleCtx)
    (decision : Decision) :
    (r.sameBarExitAndExecute ctx decision).2.pendingEntries = r.pendingEntries ∨
    ∃ p, (r.sameBarExitAndExecute ctx decision).2.pendingEntries = r.pendingEntries ++ [p] ∧
      p.symbol = ctx.symbol ∧ p.decisionEventTime = decision.eventTime := by
  rcases sameBarExitAndExecute_cases r ctx decision with hidle |
    ⟨engine, exits, engine', exited, hengine, ⟨u, u', _, _, hexited⟩, hqueue, hexecution⟩
  · exact .inl (by rw [hidle])
  have hengine' : exited.executionEngine = some engine' := by
    rw [hexited, executionEngine_applyTransitions]
  have hbefore : exited.pendingEntries = engine'.pendingEntries := by
    simp only [pendingEntries, hengine']
  have hkeep : exited.pendingEntries = r.pendingEntries := by
    simp only [pendingEntries, hengine', hengine, hqueue.pendingEntries]
  rw [← hkeep]
  rcases hexecution with hquiet | ⟨snapshot, v, v', pass, _, _, _, hrun, hrt⟩
  · exact .inl hquiet.pendingEntries
  · have hafter : (r.sameBarExitAndExecute ctx decision).2.pendingEntries =
        pass.engine.pendingEntries := by
      simp only [pendingEntries, hrt, executionEngine_applyTransitions]
    rw [hafter, hbefore]
    exact execute_pendingEntries hrun

/-- After a cycle that has got a bar, an entry is queued either by that cycle or for another symbol
and from before. -/
theorem pendingEntries_step (rt : PlatformRuntime) (call : CycleCall) :
    (∃ e, rt.prepareBar call = .error e ∧ rt.step call = rt) ∨
    ∃ ctx rt₁, Prepared call rt ctx rt₁ ∧ ∀ p ∈ (rt.step call).pendingEntries,
      (p.symbol = ctx.symbol ∧ p.decisionEventTime = ctx.eventTime) ∨
        (p.symbol ≠ ctx.symbol ∧ p ∈ rt.pendingEntries) := by
  refine step_rule rt call (I := fun ctx r => ∀ p ∈ r.pendingEntries,
    (p.symbol = ctx.symbol ∧ p.decisionEventTime = ctx.eventTime) ∨
      (p.symbol ≠ ctx.symbol ∧ p ∈ rt.pendingEntries)) ?_ ?_ ?_ ?_ ?_ ?_
  · intro ctx r r' hquiet hr
    rwa [hquiet.pendingEntries]
  · intro ctx rt₁ hprep p hp
    rw [pendingEntries_preDecisionEvaluate, List.mem_filter] at hp
    refine .inr ⟨of_decide_eq_true hp.2, ?_⟩
    exact hprep.quiet.pendingEntries ▸ hp.1
  · intro ctx r hr
    unfold pendingEntries
    rwa [executionEngine_maybeResetDailyRisk]
  · intro ctx r hr
    unfold pendingEntries
    rwa [executionEngine_markToMarket]
  · intro ctx ctx' decision snapshot r hsame hr
    unfold pendingEntries
    rwa [executionEngine_countApproved]
  · intro ctx ctx' decision r hsame htime hr p hp
    rcases pendingEntries_sameBarExitAndExecute r ctx' decision with
      hkeep | ⟨queued, hqueued, hsymbol, hdecided⟩
    · exact hr p (hkeep ▸ hp)
    · rw [hqueued, List.mem_append, List.mem_singleton] at hp
      rcases hp with hp | rfl
      · exact hr p hp
      · exact .inl ⟨hsymbol.trans hsame.symbol, hdecided.trans htime⟩

end PlatformRuntime

/-! ## Fills and the bars of the run -/

namespace WatchedRuntime

open PlatformRuntime

/-- The entries a cycle fills at the open of its bar, with the timestamp of the bar. -/
def fills (w : WatchedRuntime) (call : CycleCall) : List (PendingEntry × ℤ) :=
  match w.runtime.prepareBar call with
  | .ok (ctx, _) =>
    (w.runtime.pendingEntries.filter (·.symbol = ctx.symbol)).map fun p => (p, ctx.eventTime)
  | .error _ => []

/-- Every entry a cycle fills is filled at the open of a bar later than its decision. -/
def FillsLater (w : WatchedRuntime) (call : CycleCall) : Prop :=
  ∀ fill ∈ w.fills call, fill.1.decisionEventTime < fill.2

instance (w : WatchedRuntime) (call : CycleCall) : Decidable (w.FillsLater call) :=
  inferInstanceAs (Decidable (∀ fill ∈ w.fills call, _))

/-- A cycle that finds an entry queued for its symbol runs on a later bar than the last cycle of
that symbol, of whatever timeframe. -/
def AdvancesQueued (w : WatchedRuntime) (call : CycleCall) : Prop :=
  match w.runtime.prepareBar call with
  | .ok (ctx, _) => (∃ p ∈ w.runtime.pendingEntries, p.symbol = ctx.symbol) →
    ∀ last ∈ w.bars.lookup ctx.symbol, last < ctx.eventTime
  | .error _ => True

/-- Every queued entry was decided on the last bar of its symbol. -/
def QueuedOnLast (w : WatchedRuntime) : Prop :=
  ∀ p ∈ w.runtime.pendingEntries, w.bars.lookup p.symbol = some p.decisionEventTime

variable {w : WatchedRuntime} {call : CycleCall}

theorem QueuedOnLast.step (h : w.QueuedOnLast) (call : CycleCall) : (w.step call).QueuedOnLast := by
  intro p hp
  rcases pendingEntries_step w.runtime call with ⟨e, herr, hsame⟩ | ⟨ctx, rt₁, hprep, hpending⟩
  · rw [bars_step_of_error herr]
    refine h p ?_
    rw [← hsame]
    exact hp
  · rw [bars_step hprep]
    rcases hpending p hp with ⟨hsymbol, htime⟩ | ⟨hother, hqueued⟩
    · rw [hsymbol, htime, List.lookup_cons_self]
    · rw [List.lookup_cons, beq_false_of_ne hother]
      exact h p hqueued

theorem fillsLater_iff (h : w.QueuedOnLast) (call : CycleCall) :
    w.FillsLater call ↔ w.AdvancesQueued call := by
  unfold FillsLater fills AdvancesQueued
  cases hprep : w.runtime.prepareBar call with
  | error e => simp
  | ok prepared =>
    obtain ⟨ctx, rt₁⟩ := prepared
    simp only [List.forall_mem_map, List.mem_filter, decide_eq_true_eq]
    constructor
    · rintro hlater ⟨p, hp, hsymbol⟩ last hlast
      have hlookup := h p hp
      rw [hsymbol, hlast] at hlookup
      cases hlookup
      exact hlater p ⟨hp, hsymbol⟩
    · rintro hadvance p ⟨hp, hsymbol⟩
      have hlookup := h p hp
      rw [hsymbol] at hlookup
      exact hadvance ⟨p, hp, hsymbol⟩ _ hlookup

/-- Every fill of a run is later than its decision exactly when every cycle of the run that finds an
entry queued runs on a later bar than the last cycle of its symbol. -/
theorem along_fillsLater_iff (setup : RuntimeSetup) (calls : List CycleCall) :
    Run.Along step FillsLater ⟨setup.start, []⟩ calls ↔
      Run.Along step AdvancesQueued ⟨setup.start, []⟩ calls := by
  refine Run.along_iff (I := QueuedOnLast) (D := fun _ _ => True) (fun _ call h _ _ => h.step call)
    (fun _ call h _ => fillsLater_iff h call) ?_ Run.along_true
  intro p hp
  rw [pendingEntries_start] at hp
  exact absurd hp List.not_mem_nil

/-- A bar served twice: the buy decided on it is filled at its own open. -/
theorem not_fillsLater_same_bar : ¬ Run.Along step FillsLater
    ⟨(RuntimeSetup.solo .nextOpen).start, []⟩
    [.flat "BTC" 0 100 .buy, .flat "BTC" 0 100 .hold] := by
  decide +kernel

end WatchedRuntime

end TradingPlatform
