import TradingPlatform.Engine.RiskGates
import TradingPlatform.Runtime.Idle
import TradingPlatform.Validation.Cash

/-!
# The limit on losses in a row

A runtime whose losses in a row have reached their limit, with nothing open and nothing queued,
never trades again. Only a close changes the count, there is nothing left to close, and the reset of
the day leaves the count as it is.
-/

namespace TradingPlatform

/-- A decision is approved only below the limit on losses in a row. -/
theorem EngineConfig.consecutiveLosses_lt_of_approved {config : EngineConfig}
    {signals : List StrategySignal} {context : MarketContext} {snapshot : StateSnapshot}
    {c : DecisionCtx} {u : ℕ} {d : Decision}
    (hd : (config.process signals context snapshot c u).1 = .ok d)
    (happroved : d.isApproved = true) :
    snapshot.risk.consecutiveLosses < snapshot.risk.limits.maxConsecutiveLosses := by
  obtain ⟨aggregated, _, hpassed⟩ := process_of_approved hd happroved
  have hcheck := List.all_eq_true.mp hpassed (RiskConfig.maxConsecutiveLossesCheck snapshot.risk)
    (by simp [RiskConfig.checks])
  exact of_decide_eq_true hcheck

namespace PlatformRuntime

variable {rt rt' : PlatformRuntime} {trades : List Trade} {call : CycleCall} {op : RuntimeOp}

/-- The losses in a row have reached their limit, no position is open and no entry is queued. -/
structure Halted (trades : List Trade) (rt : PlatformRuntime) : Prop extends Idle trades rt where
  losses : rt.stateStore.risk.limits.maxConsecutiveLosses ≤ rt.stateStore.risk.consecutiveLosses

theorem Halted.quiet (h : Halted trades rt) (hquiet : Quiet rt rt') : Halted trades rt' :=
  ⟨h.toIdle.quiet hquiet, hquiet.stateStore ▸ h.losses⟩

theorem Halted.books (h : Halted trades rt) (hbooks : Books rt rt')
    (hengine : rt'.executionEngine = rt.executionEngine) : Halted trades rt' := by
  obtain ⟨hidle, -, hlimits, hlosses⟩ := h.toIdle.books hbooks hengine
  exact ⟨hidle, by rw [hlimits, hlosses]; exact h.losses⟩

/-- A decision that the runtime makes in the cycle is rejected. -/
def RejectsAll (rt : PlatformRuntime) (call : CycleCall) : Prop :=
  ∀ d rt', rt.runToDecision call = (.ok d, rt') → d.decision.isApproved = false

/-- A cycle of a halted runtime approves nothing, and the runtime stays halted. -/
theorem Halted.cycle (h : Halted trades rt) (call : CycleCall) :
    rt.RejectsAll call ∧ Halted trades (rt.step call) := by
  rcases runToSnapshot_cases rt call with ⟨e, -, hsnap⟩ | ⟨ctx, rt₁, hprep, hsnap⟩
  · have hrun := runToDecision_of_error hsnap
    rw [step_of_error hrun]
    exact ⟨fun d rt' hd => (by cases hrun.symm.trans hd), h⟩
  obtain ⟨hprepared, hstore⟩ := h.toIdle.prepared hprep
  obtain ⟨hidle, hstore'⟩ := hprepared.preDecisionEvaluate ctx
  have hpre : Halted trades (rt₁.preDecisionEvaluate ctx).2 :=
    ⟨hidle, by rw [hstore', hstore]; exact h.losses⟩
  rcases hsnap with ⟨e, rt', hsnap, hquiet⟩ |
    ⟨a, rt₂, rt₃, hsnap, hquiet₂, hquiet₃, -, -, hrisk⟩
  · have hrun := runToDecision_of_error hsnap
    rw [step_of_error hrun]
    exact ⟨fun d rt'' hd => (by cases hrun.symm.trans hd), hpre.quiet hquiet⟩
  have htaken : Halted trades rt₃ :=
    (((hpre.quiet hquiet₂).books (books_maybeResetDailyRisk _ _ _)
      executionEngine_maybeResetDailyRisk).books (books_markToMarket _ _)
      executionEngine_markToMarket).quiet hquiet₃
  rcases runToDecision_of_ok hsnap with ⟨e, rt₄, hdec, hquiet⟩ |
    ⟨d, rt₄, hdec, hquiet, -, -, -, c, u, hprocess⟩
  · rw [step_of_error hdec]
    exact ⟨fun d rt'' hd => (by cases hdec.symm.trans hd), htaken.quiet hquiet⟩
  have hrejected : d.decision.isApproved = false := by
    rw [← Bool.not_eq_true]
    intro happroved
    have hlt := EngineConfig.consecutiveLosses_lt_of_approved hprocess happroved
    rw [hrisk] at hlt
    exact absurd hlt (not_lt.mpr htaken.losses)
  refine ⟨fun d' rt'' hd' => ?_, ?_⟩
  · cases hdec.symm.trans hd'
    exact hrejected
  · refine Halted.quiet ?_ (step_of_ok hdec)
    rw [sameBarExitAndExecute_idle (.inl hrejected)]
    exact (htaken.quiet hquiet).books (books_countApproved _ _ _ _) executionEngine_countApproved

/-- The operation approves no decision, and after it the trades made so far are still `trades`, and
the runtime is halted. -/
structure Rests (trades : List Trade) (rt : PlatformRuntime) (op : RuntimeOp) : Prop where
  rejects : ∀ call, op = .cycle call → rt.RejectsAll call
  halted : Halted trades (rt.operate op)

theorem Halted.rests (h : Halted trades rt) (op : RuntimeOp) : rt.Rests trades op := by
  cases op with
  | cycle call =>
    obtain ⟨hrejects, hhalted⟩ := h.cycle call
    exact ⟨fun call' hcall => (by cases hcall; exact hrejects), hhalted⟩
  | liquidate call =>
    refine ⟨fun _ hcall => (nomatch hcall), ?_⟩
    simp only [operate]
    split
    · next hrun =>
      rcases liquidateOpenPositions_ok hrun with ⟨rfl, -⟩ |
        ⟨engine, bar, c, hengine, -, -, -, rfl⟩
      · exact h
      · simp only [h.flat]
        refine h.quiet ⟨rfl, rfl, rfl, rfl, rfl, hengine.symm, rfl, rfl, rfl, ?_⟩
        exact Nat.le_add_right _ 1
    · exact h

/-- A halted runtime is halted for good: in no continuation is a decision approved or a trade
made. -/
theorem Halted.absorbing (h : Halted trades rt) (ops : List RuntimeOp) :
    Run.Along operate (fun rt op => rt.Rests trades op) rt ops :=
  Run.Along.of_inv (I := Halted trades) (D := fun _ _ => True)
    (fun _ op h _ => (h.rests op).halted) (fun _ op h _ => h.rests op) h Run.along_true

/-! ## One loss allowed -/

/-- A runtime that halts at its first loss. -/
def oneLoss : RuntimeSetup :=
  { RuntimeSetup.solo .close with limits := { defaultLimits with maxConsecutiveLosses := 1 } }

/-- A long entry at 100 that is stopped out at 98. -/
def stoppedOut : PlatformRuntime := oneLoss.after
  [.cycle (.flat "BTC" 3600000000 100 .buy), .cycle (.flat "BTC" 7200000000 98 .buy)]

theorem halted_stoppedOut : Halted (madeTrades stoppedOut.transitions) stoppedOut :=
  ⟨⟨by decide +kernel, by decide +kernel, rfl⟩, by decide +kernel⟩

/-- The cycles of the next days find it halted. -/
theorem rests_stoppedOut : Run.Along operate
    (fun rt op => rt.Rests (madeTrades stoppedOut.transitions) op) stoppedOut
    [.cycle (.flat "BTC" 86400000000 100 .buy), .cycle (.flat "ETH" 172800000000 100 .sell)] :=
  Halted.absorbing halted_stoppedOut _

end PlatformRuntime

end TradingPlatform
