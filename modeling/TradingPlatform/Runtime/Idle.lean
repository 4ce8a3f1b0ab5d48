import TradingPlatform.Execution.Reports
import TradingPlatform.Runtime.Coupling

/-!
# A runtime with nothing to trade

With no position open and no entry queued, the passes of a cycle trade nothing until a decision is
approved.
-/

namespace TradingPlatform

open InMemoryStateStore

theorem madeTrades_bookkeeping {ts : List StateTransitionEvent} (h : ∀ t ∈ ts, t.IsBookkeeping) :
    madeTrades ts = [] := by
  refine List.filterMap_eq_nil_iff.mpr fun t ht => ?_
  rcases h t ht with ⟨updates, hpay, -⟩ | ⟨prices, hpay⟩ <;> rw [hpay] <;> rfl

/-- Bookkeeping keeps an empty book, the cash, the limits and the count of losses. -/
theorem InMemoryStateStore.flat_exec_bookkeeping {s : InMemoryStateStore}
    {ts : List StateTransitionEvent} (h : ∀ t ∈ ts, t.IsBookkeeping)
    (hflat : s.portfolio.openPositions = []) :
    (Run.exec apply s ts).portfolio.openPositions = [] ∧
      (Run.exec apply s ts).portfolio.cash = s.portfolio.cash ∧
      (Run.exec apply s ts).risk.limits = s.risk.limits ∧
      (Run.exec apply s ts).risk.consecutiveLosses = s.risk.consecutiveLosses := by
  induction ts generalizing s with
  | nil => exact ⟨hflat, rfl, rfl, rfl⟩
  | cons t ts ih =>
    have hstep : (s.apply t).portfolio.openPositions = [] ∧
        (s.apply t).portfolio.cash = s.portfolio.cash ∧ (s.apply t).risk.limits = s.risk.limits ∧
        (s.apply t).risk.consecutiveLosses = s.risk.consecutiveLosses := by
      rcases h t List.mem_cons_self with ⟨updates, hpay, _, hlimits, hlosses⟩ | ⟨prices, hpay⟩
      · rw [apply_riskUpdated hpay, applyRiskUpdated, hlimits, hlosses]
        exact ⟨hflat, rfl, rfl, rfl⟩
      · rw [apply_markToMarket hpay]
        exact ⟨congrArg (List.map (revalue prices)) hflat, rfl, rfl, rfl⟩
    obtain ⟨hnil, hcash, hlimits, hlosses⟩ := hstep
    obtain ⟨hnil', hcash', hlimits', hlosses'⟩ :=
      ih (fun t' ht' => h t' (List.mem_cons_of_mem _ ht')) hnil
    exact ⟨hnil', hcash'.trans hcash, hlimits'.trans hlimits, hlosses'.trans hlosses⟩

namespace PlatformRuntime

variable {rt rt' : PlatformRuntime} {ctx : CycleCtx} {trades : List Trade}

/-- Nothing is open or queued, and the trades made so far are `trades`. -/
structure Idle (trades : List Trade) (rt : PlatformRuntime) : Prop where
  flat : rt.stateStore.portfolio.openPositions = []
  queue : rt.pendingEntries = []
  made : madeTrades rt.transitions = trades

theorem Idle.quiet (h : Idle trades rt) (hquiet : Quiet rt rt') : Idle trades rt' where
  flat := hquiet.stateStore ▸ h.flat
  queue := hquiet.pendingEntries.trans h.queue
  made := by
    rw [transitions, hquiet.applied]
    exact h.made

/-- Bookkeeping leaves the runtime idle; cash, limits and the count of losses stay. -/
theorem Idle.books (h : Idle trades rt) (hbooks : Books rt rt')
    (hengine : rt'.executionEngine = rt.executionEngine) :
    Idle trades rt' ∧ rt'.stateStore.portfolio.cash = rt.stateStore.portfolio.cash ∧
      rt'.stateStore.risk.limits = rt.stateStore.risk.limits ∧
      rt'.stateStore.risk.consecutiveLosses = rt.stateStore.risk.consecutiveLosses := by
  obtain ⟨ts, happlied, hts⟩ := hbooks
  obtain ⟨hflat, hkept⟩ := flat_exec_bookkeeping hts h.flat
  rw [← happlied.stateStore] at hflat hkept
  refine ⟨⟨hflat, ?_, ?_⟩, hkept⟩
  · unfold PlatformRuntime.pendingEntries
    rw [hengine]
    exact h.queue
  · rw [happlied.transitions, madeTrades_append, h.made, madeTrades_bookkeeping hts,
      List.append_nil]

/-- The pass over the bar has nothing to fill and nothing to close. -/
theorem Idle.preDecisionEvaluate (h : Idle trades rt) (ctx : CycleCtx) :
    Idle trades (rt.preDecisionEvaluate ctx).2 ∧
      (rt.preDecisionEvaluate ctx).2.stateStore = rt.stateStore := by
  obtain ⟨ts, happlied, _, _, hnil⟩ := preDecisionEvaluate_trades rt ctx
  obtain rfl := hnil h.queue h.flat
  have hstore : (rt.preDecisionEvaluate ctx).2.stateStore = rt.stateStore := happlied.stateStore
  refine ⟨⟨hstore ▸ h.flat, ?_, ?_⟩, hstore⟩
  · rw [pendingEntries_preDecisionEvaluate, h.queue, List.filter_nil]
  · rw [happlied.transitions, List.append_nil]
    exact h.made

theorem Idle.prepared {rt₁ : PlatformRuntime} {call : CycleCall} (h : Idle trades rt)
    (hprep : Prepared call rt ctx rt₁) :
    Idle trades rt₁ ∧ rt₁.stateStore = rt.stateStore := by
  have hclock : Idle trades { rt₁ with clock := rt.clock } := h.quiet hprep.quiet
  exact ⟨⟨hclock.flat, hclock.queue, hclock.made⟩, hprep.quiet.stateStore⟩

end PlatformRuntime

end TradingPlatform
