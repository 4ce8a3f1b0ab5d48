import TradingPlatform.Runtime.Idle
import TradingPlatform.Runtime.OrderFlow
import TradingPlatform.Validation.Ledgers

/-!
# The books read back from the log

The trades that the published events report are those that the store has applied, in their order. A
reader of the log who opens, closes and counts by them alone has the open positions of the store,
the result it has realised and the losses it counts in a row.
-/

namespace TradingPlatform

open InMemoryStateStore

/-! ## The books -/

/-- A position without its mark. -/
def PositionState.unmarked (p : PositionState) : PositionState := { p with unrealizedPnl := 0 }

/-- What a reader of trades keeps: the open positions, the realised result and the losses in a
row. -/
structure TradeBook where
  openPositions : List PositionState := []
  realizedPnl : ℚ := 0
  consecutiveLosses : ℤ := 0

def TradeBook.record (book : TradeBook) : Trade → TradeBook
  | .opened _ position =>
    { book with openPositions := book.openPositions ++ [position.unmarked] }
  | .closed positionId pnl =>
    { openPositions := book.openPositions.filter (·.positionId ≠ positionId)
      realizedPnl := book.realizedPnl + pnl
      consecutiveLosses := if 0 ≤ pnl then 0 else book.consecutiveLosses + 1 }

/-- The books of a log. -/
def TradeBook.ofLog (events : List EventEnvelope) : TradeBook :=
  (reportedTrades events).foldl TradeBook.record {}

/-- The books of a store. -/
def InMemoryStateStore.tradeBook (s : InMemoryStateStore) : TradeBook where
  openPositions := s.portfolio.openPositions.map (·.unmarked)
  realizedPnl := s.portfolio.realizedPnl
  consecutiveLosses := s.risk.consecutiveLosses

section

variable {s : InMemoryStateStore} {t : StateTransitionEvent} {ts : List StateTransitionEvent}

/-- A trade is recorded, and bookkeeping leaves the books as they are. -/
theorem tradeBook_apply (h : t.IsTrade ∨ t.IsBookkeeping) : (s.apply t).tradeBook =
    t.payload.trade?.toList.foldl TradeBook.record s.tradeBook := by
  rcases h with (⟨p, fill, cost, hpay⟩ | ⟨id, fill, pnl, reason, hpay⟩) |
    ⟨updates, hpay, -, -, hlosses⟩ | ⟨prices, hpay⟩
  · rw [apply_positionOpened hpay, hpay]
    simp [tradeBook, applyPositionOpened, TransitionPayload.trade?, TradeBook.record]
  · rw [apply_positionClosed hpay, hpay]
    have hrest : (s.portfolio.openPositions.filter (·.positionId ≠ id)).map (·.unmarked) =
        (s.portfolio.openPositions.map (·.unmarked)).filter (·.positionId ≠ id) := by
      rw [List.filter_map]
      rfl
    simp only [tradeBook, applyPositionClosed, hrest]
    rfl
  · rw [apply_riskUpdated hpay, hpay]
    simp only [tradeBook, applyRiskUpdated, hlosses]
    rfl
  · rw [apply_markToMarket hpay, hpay]
    have hmarks : (s.portfolio.openPositions.map (revalue prices)).map (·.unmarked) =
        s.portfolio.openPositions.map (·.unmarked) := by
      rw [List.map_map]
      refine List.map_congr_left fun p _ => ?_
      rw [Function.comp_apply, revalue]
      split <;> rfl
    simp only [tradeBook, applyMarkToMarket, hmarks]
    rfl

theorem tradeBook_exec (h : ∀ t ∈ ts, t.IsTrade ∨ t.IsBookkeeping) :
    (Run.exec InMemoryStateStore.apply s ts).tradeBook =
      (madeTrades ts).foldl TradeBook.record s.tradeBook := by
  induction ts generalizing s with
  | nil => rfl
  | cons t ts ih =>
    rw [Run.exec_cons, ih fun t' ht' => h t' (List.mem_cons_of_mem _ ht'),
      tradeBook_apply (h t List.mem_cons_self), madeTrades_cons, List.foldl_append]

end

/-! ## Losses in a row -/

/-- The result of a close. -/
def Trade.closedPnl? : Trade → Option ℚ
  | .opened _ _ => none
  | .closed _ pnl => some pnl

/-- The losses in a row that end a list of results. -/
def losingStreak (pnls : List ℚ) : ℕ := (pnls.reverse.takeWhile (· < 0)).length

theorem losingStreak_append (pnls : List ℚ) (pnl : ℚ) :
    losingStreak (pnls ++ [pnl]) = if 0 ≤ pnl then 0 else losingStreak pnls + 1 := by
  unfold losingStreak
  rw [List.reverse_append, List.reverse_singleton, List.singleton_append, List.takeWhile_cons]
  by_cases h : 0 ≤ pnl
  · rw [if_pos h, if_neg (by simpa using h)]
    rfl
  · rw [if_neg h, if_pos (by simpa using h), List.length_cons]

/-- The losses counted are those that end the results so far. -/
theorem consecutiveLosses_foldl (trades : List Trade) :
    (trades.foldl TradeBook.record {}).consecutiveLosses =
      losingStreak (trades.filterMap Trade.closedPnl?) := by
  induction trades using List.reverseRecOn with
  | nil => rfl
  | append_singleton trades trade ih =>
    rw [List.foldl_append, List.filterMap_append]
    cases trade with
    | opened id position =>
      rw [show [Trade.opened id position].filterMap Trade.closedPnl? = [] from rfl, List.append_nil]
      exact ih
    | closed id pnl =>
      change (if 0 ≤ pnl then 0 else _ + 1) = ((losingStreak (_ ++ [pnl]) : ℕ) : ℤ)
      rw [ih, losingStreak_append]
      split <;> rfl

/-! ## Runs -/

namespace PlatformRuntime

variable {rt rt' : PlatformRuntime} {s₀ : InMemoryStateStore} {ts : List StateTransitionEvent}
  {ctx : CycleCtx} {call : CycleCall}

/-- The store has booked the trades applied since `s₀`, and no others. -/
def Booked (s₀ : InMemoryStateStore) (rt : PlatformRuntime) : Prop :=
  rt.stateStore.tradeBook = (madeTrades rt.transitions).foldl TradeBook.record s₀.tradeBook

theorem Booked.applied (h : Booked s₀ rt) (happlied : Applied ts rt rt')
    (hts : ∀ t ∈ ts, t.IsTrade ∨ t.IsBookkeeping) : Booked s₀ rt' := by
  unfold Booked
  rw [happlied.stateStore, tradeBook_exec hts, happlied.transitions, madeTrades_append,
    List.foldl_append, h]

theorem Booked.quiet (h : Booked s₀ rt) (hquiet : Quiet rt rt') : Booked s₀ rt' :=
  h.applied hquiet.applied_nil (List.forall_mem_nil _)

theorem Booked.books (h : Booked s₀ rt) (hbooks : Books rt rt') : Booked s₀ rt' := by
  obtain ⟨ts, happlied, hts⟩ := hbooks
  exact h.applied happlied fun t ht => .inr (hts t ht)

/-- A cycle books its trades, whether it returns or raises. -/
theorem Booked.step (h : Booked s₀ rt) (call : CycleCall) : Booked s₀ (rt.step call) := by
  have hrule := step_rule rt call (I := fun _ r => Booked s₀ r)
    (fun _ _ _ hquiet hr => hr.quiet hquiet) ?_ ?_ ?_ ?_ ?_
  · rcases hrule with ⟨_, _, hsame⟩ | ⟨_, _, _, hstep⟩
    · rwa [hsame]
    · exact hstep
  · intro ctx rt₁ hprep
    have hprepared : Booked s₀ { rt₁ with clock := rt.clock } := h.quiet hprep.quiet
    replace hprepared : Booked s₀ rt₁ := hprepared
    obtain ⟨ts, happlied, htrades, -, -⟩ := preDecisionEvaluate_trades rt₁ ctx
    exact hprepared.applied happlied fun t ht => .inl (htrades t ht).1
  · intro ctx r hr
    exact hr.books (books_maybeResetDailyRisk r _ _)
  · intro ctx r hr
    exact hr.books (books_markToMarket r ctx)
  · intro ctx ctx' decision snapshot r _ hr
    exact hr.books (books_countApproved r ctx' decision snapshot)
  · intro ctx ctx' decision r hsame htime hr
    obtain ⟨ts, happlied, htrades, -⟩ :=
      sameBarExitAndExecute_trades r ctx' (htime.trans hsame.eventTime.symm)
    exact hr.applied happlied fun t ht => .inl (htrades t ht).1

/-- The transitions of a liquidation close positions. -/
theorem applied_liquidate {call : LiquidationCall} (h : rt.liquidateOpenPositions call = .ok rt') :
    ∃ ts, Applied ts rt rt' ∧ ∀ t ∈ ts, t.IsClosing := by
  rcases liquidateOpenPositions_ok h with ⟨rfl, -⟩ | ⟨engine, bar, c, -, -, -, -, rfl⟩
  · exact ⟨[], (Quiet.refl _).applied_nil, List.forall_mem_nil _⟩
  · let pass := SimulatedExecutionEngine.closeAll bar.close c engine
      rt.stateStore.portfolio.openPositions (rt.uuid + 1)
    obtain ⟨-, hcloses⟩ := SimulatedExecutionEngine.closeAll_closes bar.close c
      rt.stateStore.portfolio.openPositions engine (rt.uuid + 1)
    have happlied : Applied pass.1.transitions rt ({ rt with
        uuid := pass.2, executionEngine := some pass.1.engine
        }.applyTransitions pass.1.transitions) :=
      applied_of_engine ((Nat.le_add_right _ 1).trans
        (SimulatedExecutionEngine.le_closeAll_uuid rt.stateStore.portfolio.openPositions))
    refine ⟨pass.1.transitions ++ [], happlied.trans quiet_published.applied_nil, fun t ht => ?_⟩
    rw [List.append_nil] at ht
    exact hcloses t ht

/-- The store has booked what the published events report. -/
structure ReadBack (s₀ : InMemoryStateStore) (rt : PlatformRuntime) : Prop where
  booked : Booked s₀ rt
  reported : reportedTrades rt.published = madeTrades rt.transitions

theorem ReadBack.operate {op : RuntimeOp} (h : ReadBack s₀ rt) (hreturns : rt.Returns op) :
    ReadBack s₀ (rt.operate op) := by
  cases op with
  | cycle call =>
    obtain ⟨result, rt', hrun⟩ := hreturns
    have hstep : rt.operate (.cycle call) = rt' := congrArg Prod.snd hrun
    obtain ⟨ctx, rt₁, ts, -, hts, hreports, hpublished, -, -⟩ := runCycle_reports hrun
    refine ⟨h.booked.step call, ?_⟩
    rw [hstep, hpublished, hts, reportedTrades_append, madeTrades_append, h.reported,
      hreports.trades]
  | liquidate call =>
    cases hrun : rt.liquidateOpenPositions call with
    | error e =>
      have hsame : rt.operate (.liquidate call) = rt := by
        simp only [PlatformRuntime.operate, hrun]
      rwa [hsame]
    | ok rt' =>
      have hstep : rt.operate (.liquidate call) = rt' := by
        simp only [PlatformRuntime.operate, hrun]
      obtain ⟨closes, happlied, hcloses⟩ := applied_liquidate hrun
      obtain ⟨events, ts, hpublished, hts, hreports⟩ := liquidate_reports hrun
      rw [hstep]
      refine ⟨h.booked.applied happlied fun t ht => .inl (.inr (hcloses t ht)), ?_⟩
      rw [hpublished, hts, reportedTrades_append, madeTrades_append, h.reported, hreports.trades]

end PlatformRuntime

/-- After every run of cycles that return and of liquidations, the events published so far give the
store's open positions but for their marks, the result it has realised, and the losses in a row that
its risk checks count: those that end the results of the closes. -/
theorem tradeBook_ofLog {setup : RuntimeSetup} {ops : List PlatformRuntime.RuntimeOp}
    (hreturns : Run.Along PlatformRuntime.operate PlatformRuntime.Returns setup.start ops) :
    let rt := setup.after ops
    TradeBook.ofLog rt.published = rt.stateStore.tradeBook ∧
    rt.stateStore.risk.consecutiveLosses =
      losingStreak ((reportedTrades rt.published).filterMap Trade.closedPnl?) := by
  intro rt
  have hread : rt.ReadBack setup.start.stateStore :=
    hreturns.exec_inv (I := fun rt => rt.ReadBack setup.start.stateStore)
      (fun _ _ h hop => h.operate hop) ⟨rfl, rfl⟩
  have hlog : TradeBook.ofLog rt.published = rt.stateStore.tradeBook := by
    rw [TradeBook.ofLog, hread.reported]
    exact hread.booked.symm
  refine ⟨hlog, ?_⟩
  rw [← consecutiveLosses_foldl]
  exact (congrArg TradeBook.consecutiveLosses hlog).symm

theorem tradeBook_ofLog_soloQueueing :
    let rt := RuntimeSetup.soloQueueing.after boughtAndLiquidated
    TradeBook.ofLog rt.published = rt.stateStore.tradeBook ∧
    rt.stateStore.risk.consecutiveLosses =
      losingStreak ((reportedTrades rt.published).filterMap Trade.closedPnl?) := by
  refine tradeBook_ofLog ⟨PlatformRuntime.returns_cycle ?_, PlatformRuntime.returns_cycle ?_,
    trivial, trivial⟩
  · decide +kernel
  · decide +kernel

end TradingPlatform
