import TradingPlatform.Runtime.Coupling
import TradingPlatform.Validation.Harness

/-!
# Where the cash goes

Over any run of cycles and liquidations the cash is accounted for: the initial cash and the realised
result, less the entry fees of all positions ever opened and the capital the open ones lock. The
same holds of any sequence of openings, marks and closes of an account fed by the simulated engine.
-/

namespace TradingPlatform

open InMemoryStateStore

/-- Closing the positions of a symbol opens nothing and leaves the queue. -/
theorem SimulatedExecutionEngine.closeAll_closes (exitPrice : ℚ) (c : EventCtx)
    (positions : List PositionState)
    (engine : SimulatedExecutionEngine) (u : ℕ) :
    SameQueue engine (closeAll exitPrice c engine positions u).1.engine ∧
      ∀ t ∈ (closeAll exitPrice c engine positions u).1.transitions, t.IsClosing := by
  induction positions generalizing engine u with
  | nil => exact ⟨.refl engine, List.forall_mem_nil _⟩
  | cons p rest ih =>
    by_cases hsymbol : p.symbol = c.symbol
    · rw [closeAll_cons_of_eq hsymbol]
      let filled := engine.closePosition p exitPrice .endOfRun c u
      obtain ⟨hqueue, hcloses⟩ := ih filled.1.engine filled.2
      refine ⟨sameQueue_closePosition.trans hqueue, List.forall_mem_cons.mpr ⟨?_, hcloses⟩⟩
      obtain ⟨fill, -, -, hpay⟩ := closePosition_payload engine c u p exitPrice .endOfRun
      exact ⟨_, fill, _, _, hpay⟩
    · rw [closeAll_cons_of_ne hsymbol]
      exact ih engine u

namespace PlatformRuntime

variable {rt rt' : PlatformRuntime} {s₀ : InMemoryStateStore}

/-! ## Liquidations -/

/-- What a liquidation that finds open positions of its symbol does. -/
theorem liquidateOpenPositions_ok {call : LiquidationCall}
    (h : rt.liquidateOpenPositions call = .ok rt') :
    rt' = rt ∧ (rt.executionEngine = none ∨
      rt.stateStore.portfolio.openPositions.filter (·.symbol = call.symbol) = []) ∨
    ∃ (engine : SimulatedExecutionEngine) (bar : Bar) (c : EventCtx),
      rt.executionEngine = some engine ∧ c.symbol = call.symbol ∧
      c.eventTime = call.lastBarTime ∧ c.correlationId = call.correlationId ∧
      let result := SimulatedExecutionEngine.closeAll bar.close c engine
        rt.stateStore.portfolio.openPositions (rt.uuid + 1)
      let after := { rt with uuid := result.2, executionEngine := some result.1.engine
        }.applyTransitions result.1.transitions
      rt' = { after with published := after.published ++ result.1.events } := by
  unfold liquidateOpenPositions at h
  split at h
  · next hengine =>
    cases h
    exact .inl ⟨rfl, .inl hengine⟩
  next engine hengine =>
  split at h
  · next hflat =>
    cases h
    exact .inl ⟨rfl, .inr hflat⟩
  split at h
  · cases h
  next df hdf =>
  split at h
  · cases h
  next lastRow hlast =>
  cases h
  exact .inr ⟨engine, lastRow.bar, _, hengine, rfl, rfl, rfl, rfl⟩

theorem Traded.liquidate (h : Traded s₀ rt) {call : LiquidationCall}
    (hrun : rt.liquidateOpenPositions call = .ok rt') : Traded s₀ rt' := by
  rcases liquidateOpenPositions_ok hrun with ⟨rfl, _⟩ | ⟨engine, bar, c, hengine, _, _, _, rfl⟩
  · exact h
  · have hmoves := Book.closeAll_moves (c := c) bar.close rt.stateStore.portfolio.openPositions
      ⟨engine, rt.stateStore, rt.uuid + 1⟩ (h.coupled.book hengine).nodup fun p hp => hp
    exact (h.moves hengine (Nat.le_add_right _ 1) hmoves.le_uuid hmoves).quiet quiet_published

/-! ## Runs with liquidations -/

/-- A cycle, or a liquidation. -/
inductive RuntimeOp
  | cycle (call : CycleCall)
  | liquidate (call : LiquidationCall)

/-- The runtime after an operation, whether it has returned or raised. -/
def operate (rt : PlatformRuntime) : RuntimeOp → PlatformRuntime
  | .cycle call => rt.step call
  | .liquidate call =>
    match rt.liquidateOpenPositions call with
    | .ok rt' => rt'
    | .error _ => rt

theorem Traded.operate (h : Traded s₀ rt) (op : RuntimeOp) : Traded s₀ (rt.operate op) := by
  cases op with
  | cycle call => exact h.step call
  | liquidate call =>
    simp only [PlatformRuntime.operate]
    split
    · next hrun => exact h.liquidate hrun
    · exact h

/-! ## The cash over a run -/

/-- The cash identity holds now and held after every transition so far, with the entry fees of the
positions opened by then. -/
structure CashAccounted (initialCash : ℚ) (rt : PlatformRuntime) : Prop where
  now : rt.stateStore.CashIdentity initialCash (entryFees rt.transitions)
  throughout : ∀ earlier t s later, rt.trail = earlier ++ (t, s) :: later →
    s.CashIdentity initialCash (entryFees (earlier.map Prod.fst ++ [t]))

theorem trailFrom_eq_append {s s' : InMemoryStateStore} {ts : List StateTransitionEvent}
    {earlier later : Trail} {t : StateTransitionEvent}
    (h : trailFrom s ts = earlier ++ (t, s') :: later) :
    ∃ rest, ts = (earlier.map Prod.fst ++ [t]) ++ rest ∧
      s' = Run.exec InMemoryStateStore.apply s (earlier.map Prod.fst ++ [t]) := by
  induction ts generalizing s earlier with
  | nil => simp [trailFrom] at h
  | cons t' ts ih =>
    cases earlier with
    | nil =>
      rw [trailFrom, List.nil_append, List.cons.injEq] at h
      obtain ⟨hhead, _⟩ := h
      obtain ⟨rfl, rfl⟩ := Prod.mk.inj hhead
      exact ⟨ts, rfl, rfl⟩
    | cons e earlier =>
      rw [trailFrom, List.cons_append, List.cons.injEq] at h
      obtain ⟨rfl, htail⟩ := h
      obtain ⟨rest, hts, hs⟩ := ih htail
      exact ⟨rest, by rw [hts]; rfl, hs⟩

theorem Traded.cashAccounted {initialCash : ℚ} (hs₀ : Audited initialCash s₀ {})
    (h : Traded s₀ rt) : rt.CashAccounted initialCash := by
  have haudited : ∀ ts, s₀.ProducedFrom ts →
      (Run.exec InMemoryStateStore.apply s₀ ts).CashIdentity initialCash (entryFees ts) := by
    intro ts hts
    have hcash := (hs₀.recordAll hts).cashIdentity
    rwa [Audit.entryFees_recordAll, zero_add] at hcash
  refine ⟨?_, fun earlier t s later htrail => ?_⟩
  · rw [h.stateStore]
    exact haudited _ h.produced
  · rw [h.trail] at htrail
    obtain ⟨rest, hts, rfl⟩ := trailFrom_eq_append htrail
    have hproduced := h.produced
    rw [hts] at hproduced
    exact haudited _ (Run.along_append.mp hproduced).1

end PlatformRuntime

/-- The runtime after operations. -/
def RuntimeSetup.after (setup : RuntimeSetup) (ops : List PlatformRuntime.RuntimeOp) :
    PlatformRuntime := Run.exec PlatformRuntime.operate setup.start ops

/-- At all times the cash is the initial cash and the realised result, less the entry fees of all
positions ever opened and the capital locked in the open ones: after every transition of a run of
cycles and liquidations, and after every operation of an account that opens, marks and closes in any
order. -/
theorem cash_accounted :
    (∀ (setup : RuntimeSetup) (ops : List PlatformRuntime.RuntimeOp),
      Run.Along PlatformRuntime.operate
        (fun rt op => (rt.operate op).CashAccounted setup.initialCash) setup.start ops) ∧
    ∀ (engine : SimulatedExecutionEngine) (initialCash : ℚ) (limits : RiskLimits) (now : ℤ)
      (uuid : ℕ) (ops : List AccountOp), Run.Along SimulatedAccount.step
        (fun a op => (a.step op).stateStore.CashIdentity initialCash (a.step op).audit.entryFees)
        (.start engine initialCash limits now uuid) ops := by
  constructor
  · intro setup ops
    have hs₀ : Audited setup.initialCash setup.start.stateStore {} :=
      Audited.init setup.initialCash setup.limits setup.startedAt
    exact Run.Along.of_inv (I := PlatformRuntime.Traded setup.start.stateStore)
      (D := fun _ _ => True) (fun _ op h _ => h.operate op)
      (fun _ op h _ => (h.operate op).cashAccounted hs₀) (.start setup) Run.along_true
  · intro engine initialCash limits now uuid ops
    exact Run.Along.of_inv (I := SimulatedAccount.Consistent initialCash) (D := fun _ _ => True)
      (fun _ op h _ => h.step op) (fun _ op h _ => (h.step op).audited.cashIdentity)
      (.start engine initialCash limits now uuid) Run.along_true

end TradingPlatform
