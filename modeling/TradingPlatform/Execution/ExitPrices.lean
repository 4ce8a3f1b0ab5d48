import TradingPlatform.Execution.Effects

/-!
# The prices of simulated exits

A stop or a target is triggered by the extremes of a bar and filled at the level itself; every other
exit is filled at the close. The exits of a bar lie within its range exactly when the bar has not
jumped past a level that it triggers.
-/

namespace TradingPlatform

/-- The open and the close lie between the extremes. -/
structure Bar.WellFormed (bar : Bar) : Prop where
  low_le_open : bar.low ≤ bar.open
  open_le_high : bar.open ≤ bar.high
  low_le_close : bar.low ≤ bar.close
  close_le_high : bar.close ≤ bar.high

instance (bar : Bar) : Decidable bar.WellFormed :=
  decidable_of_iff (bar.low ≤ bar.open ∧ bar.open ≤ bar.high ∧ bar.low ≤ bar.close ∧
    bar.close ≤ bar.high) ⟨fun ⟨h₁, h₂, h₃, h₄⟩ => ⟨h₁, h₂, h₃, h₄⟩,
      fun ⟨h₁, h₂, h₃, h₄⟩ => ⟨h₁, h₂, h₃, h₄⟩⟩

/-- The market has traded at the price during the bar. -/
def Bar.Contains (bar : Bar) (price : ℚ) : Prop := bar.low ≤ price ∧ price ≤ bar.high

instance (bar : Bar) (price : ℚ) : Decidable (bar.Contains price) :=
  inferInstanceAs (Decidable (_ ∧ _))

theorem Bar.WellFormed.low_le_high {bar : Bar} (h : bar.WellFormed) : bar.low ≤ bar.high :=
  h.low_le_open.trans h.open_le_high

theorem Bar.WellFormed.contains_close {bar : Bar} (h : bar.WellFormed) : bar.Contains bar.close :=
  ⟨h.low_le_close, h.close_le_high⟩

namespace PositionState

variable {position : PositionState} {bar : Bar}

/-- The bar has reached the stop `s`. -/
def StopReached (position : PositionState) (bar : Bar) (s : ℚ) : Prop :=
  match position.side with
  | .long => bar.low ≤ s
  | .short => s ≤ bar.high

/-- The bar has reached the target `t`. -/
def TargetReached (position : PositionState) (bar : Bar) (t : ℚ) : Prop :=
  match position.side with
  | .long => t ≤ bar.high
  | .short => bar.low ≤ t

theorem stopReached_iff {s : ℚ} : position.StopReached bar s ↔
    match position.side with | .long => bar.low ≤ s | .short => s ≤ bar.high := Iff.rfl

theorem targetReached_iff {t : ℚ} : position.TargetReached bar t ↔
    match position.side with | .long => t ≤ bar.high | .short => bar.low ≤ t := Iff.rfl

instance (position : PositionState) (bar : Bar) (s : ℚ) : Decidable (position.StopReached bar s) :=
  match h : position.side with
  | .long => decidable_of_iff (bar.low ≤ s) (by rw [stopReached_iff, h])
  | .short => decidable_of_iff (s ≤ bar.high) (by rw [stopReached_iff, h])

instance (position : PositionState) (bar : Bar) (t : ℚ) :
    Decidable (position.TargetReached bar t) :=
  match h : position.side with
  | .long => decidable_of_iff (t ≤ bar.high) (by rw [targetReached_iff, h])
  | .short => decidable_of_iff (bar.low ≤ t) (by rw [targetReached_iff, h])

/-- The bar does not lie beyond the stop, nor beyond the target unless it has reached the stop. -/
def NotGapped (position : PositionState) (bar : Bar) : Prop :=
  match position.side with
  | .long => (∀ s ∈ position.stopLoss, s ≤ bar.high) ∧
      ∀ t ∈ position.takeProfit, bar.low ≤ t ∨ ∃ s ∈ position.stopLoss, bar.low ≤ s
  | .short => (∀ s ∈ position.stopLoss, bar.low ≤ s) ∧
      ∀ t ∈ position.takeProfit, t ≤ bar.high ∨ ∃ s ∈ position.stopLoss, s ≤ bar.high

end PositionState

/-- The prices of the exit fills of a pass. -/
def Pass.exitPrices (pass : Pass) : List ℚ :=
  pass.transitions.filterMap fun t => match t.payload with
    | .positionClosed _ fill _ _ => some fill.price
    | _ => none

theorem Pass.mem_exitPrices {pass : Pass} {price : ℚ} : price ∈ pass.exitPrices ↔
    ∃ t ∈ pass.transitions, ∃ id fill pnl reason,
      t.payload = .positionClosed id fill pnl reason ∧ fill.price = price := by
  simp only [exitPrices, List.mem_filterMap]
  refine exists_congr fun t => and_congr_right fun _ => ?_
  cases t.payload <;> simp

namespace SimulatedExecutionEngine

variable {engine : SimulatedExecutionEngine} {position : PositionState} {bar : Bar} {c : EventCtx}
  {approvedSide : Option Side} {incrementBars : Bool} {reason : ExitReason} {price : ℚ}

/-! ## The exit test -/

/-- `check_exit` looks at the levels unless it is asked for signal exits only. -/
def TestsLevels (approvedSide : Option Side) (incrementBars : Bool) : Prop :=
  approvedSide = none ∨ incrementBars = true

theorem checkExit_of_levels (h : TestsLevels approvedSide incrementBars) {barsHeld : ℕ}
    (hlevels : checkLevels position bar = some (reason, price)) :
    engine.checkExit position bar barsHeld approvedSide incrementBars = some (reason, price) := by
  rcases h with rfl | rfl
  · simp only [checkExit, hlevels]
  · cases approvedSide <;> simp only [checkExit, hlevels]

/-- Where no level is reached, `check_exit` looks at the bars held. -/
theorem checkExit_of_no_levels (h : TestsLevels approvedSide incrementBars) {barsHeld : ℕ}
    (hlevels : checkLevels position bar = none) :
    engine.checkExit position bar barsHeld approvedSide incrementBars =
      if incrementBars ∧ engine.config.maxBarsInTrade ≤ barsHeld then some (.timeout, bar.close)
      else none := by
  rcases h with rfl | rfl
  · simp only [checkExit, hlevels]
  · cases approvedSide <;> simp only [checkExit, hlevels]

/-- An exit is at a level or at the close of the bar. -/
theorem checkExit_cases {barsHeld : ℕ}
    (h : engine.checkExit position bar barsHeld approvedSide incrementBars = some (reason, price)) :
    (TestsLevels approvedSide incrementBars ∧
      (checkLevels position bar = some (reason, price) ∨ reason = .timeout ∧ price = bar.close)) ∨
    (¬ TestsLevels approvedSide incrementBars ∧ reason = .signal ∧ price = bar.close) := by
  by_cases htests : TestsLevels approvedSide incrementBars
  · refine .inl ⟨htests, ?_⟩
    cases hhit : checkLevels position bar with
    | some hit =>
      obtain ⟨reason', price'⟩ := hit
      rw [checkExit_of_levels htests hhit] at h
      exact .inl h
    | none =>
      rw [checkExit_of_no_levels htests hhit] at h
      split at h
      · cases h
        exact .inr ⟨rfl, rfl⟩
      · cases h
  · have hnot := htests
    unfold TestsLevels at hnot
    push Not at hnot
    obtain ⟨side, rfl⟩ := Option.ne_none_iff_exists'.mp hnot.1
    obtain rfl : incrementBars = false := Bool.eq_false_iff.mpr hnot.2
    simp only [checkExit] at h
    split at h
    · cases h
      exact .inr ⟨htests, rfl, rfl⟩
    · cases h

theorem checkLevels_reason (h : checkLevels position bar = some (reason, price)) :
    (reason = .stopLoss ∧ position.stopLoss = some price) ∨
      (reason = .takeProfit ∧ position.takeProfit = some price) := by
  simp only [checkLevels] at h
  split at h
  · next s hstop =>
    cases h
    exact .inl ⟨rfl, (Option.filter_eq_some_iff.mp hstop).1⟩
  · next hstop =>
    obtain ⟨t, htarget, heq⟩ := Option.map_eq_some_iff.mp h
    cases heq
    exact .inr ⟨rfl, (Option.filter_eq_some_iff.mp htarget).1⟩

theorem checkLevels_eq (position : PositionState) (bar : Bar) : checkLevels position bar =
    match position.stopLoss.filter (decide <| position.StopReached bar ·) with
    | some s => some (.stopLoss, s)
    | none => (position.takeProfit.filter (decide <| position.TargetReached bar ·)).map
        fun t => (.takeProfit, t) := by
  unfold checkLevels
  cases h : position.side with
  | long =>
    have hstop : (fun s => decide (position.StopReached bar s)) = fun s => decide (bar.low ≤ s) :=
      funext fun s => decide_eq_decide.mpr (by rw [PositionState.stopReached_iff, h])
    have htarget :
        (fun t => decide (position.TargetReached bar t)) = fun t => decide (t ≤ bar.high) :=
      funext fun t => decide_eq_decide.mpr (by rw [PositionState.targetReached_iff, h])
    rewrite [hstop, htarget]
    rfl
  | short =>
    have hstop : (fun s => decide (position.StopReached bar s)) = fun s => decide (s ≤ bar.high) :=
      funext fun s => decide_eq_decide.mpr (by rw [PositionState.stopReached_iff, h])
    have htarget :
        (fun t => decide (position.TargetReached bar t)) = fun t => decide (bar.low ≤ t) :=
      funext fun t => decide_eq_decide.mpr (by rw [PositionState.targetReached_iff, h])
    rewrite [hstop, htarget]
    rfl

/-- A stop that the bar has reached is the exit. -/
theorem checkLevels_of_stop {s : ℚ} (hs : position.stopLoss = some s)
    (hhit : position.StopReached bar s) : checkLevels position bar = some (.stopLoss, s) := by
  rw [checkLevels_eq, hs, Option.filter_some, if_pos (decide_eq_true hhit)]

theorem checkLevels_of_not_stop (hmiss : ∀ s ∈ position.stopLoss, ¬ position.StopReached bar s) :
    checkLevels position bar =
      (position.takeProfit.filter (decide <| position.TargetReached bar ·)).map
        fun t => (.takeProfit, t) := by
  rw [checkLevels_eq, Option.filter_eq_none_iff.mpr]
  simpa using hmiss

/-- Without a stop that the bar has reached, a target that it has reached is the exit. -/
theorem checkLevels_of_target {t : ℚ}
    (hmiss : ∀ s ∈ position.stopLoss, ¬ position.StopReached bar s)
    (ht : position.takeProfit = some t) (hhit : position.TargetReached bar t) :
    checkLevels position bar = some (.takeProfit, t) := by
  rw [checkLevels_of_not_stop hmiss, ht, Option.filter_some, if_pos (decide_eq_true hhit),
    Option.map_some]

/-- The level a bar triggers lies within its range exactly when the bar has not jumped past it. -/
theorem contains_checkLevels_iff (hbar : bar.low ≤ bar.high) :
    (∀ hit ∈ checkLevels position bar, bar.Contains hit.2) ↔ position.NotGapped bar := by
  by_cases hstop : ∃ s ∈ position.stopLoss, position.StopReached bar s
  · obtain ⟨s, hs, hhit⟩ := hstop
    have hs : position.stopLoss = some s := hs
    rw [checkLevels_of_stop hs hhit]
    rw [PositionState.stopReached_iff] at hhit
    unfold PositionState.NotGapped Bar.Contains
    cases hside : position.side <;> simp only [hside] at hhit <;> simp [hs, hhit]
  push Not at hstop
  have hclear : (∀ hit ∈ checkLevels position bar, bar.Contains hit.2) ↔
      ∀ t ∈ position.takeProfit, position.TargetReached bar t → bar.Contains t := by
    constructor
    · intro h t ht hhit
      exact h (.takeProfit, t) (checkLevels_of_target hstop ht hhit)
    · intro h hit hhit
      rw [checkLevels_of_not_stop hstop] at hhit
      obtain ⟨t, ht, rfl⟩ := Option.map_eq_some_iff.mp hhit
      obtain ⟨ht, hreached⟩ := Option.filter_eq_some_iff.mp ht
      exact h t ht (of_decide_eq_true hreached)
  rw [hclear]
  simp only [PositionState.stopReached_iff] at hstop
  simp only [PositionState.targetReached_iff]
  unfold PositionState.NotGapped Bar.Contains
  cases hside : position.side with
  | long =>
    simp only [hside] at hstop ⊢
    have hmiss : ¬ ∃ s ∈ position.stopLoss, bar.low ≤ s := by simpa using hstop
    constructor
    · intro h
      refine ⟨fun s hs => (le_of_not_ge (hstop s hs)).trans hbar, fun t ht => .inl ?_⟩
      by_contra hlt
      exact hlt (h t ht ((not_le.mp hlt).le.trans hbar)).1
    · rintro ⟨_, h⟩ t ht hreached
      exact ⟨(h t ht).resolve_right hmiss, hreached⟩
  | short =>
    simp only [hside] at hstop ⊢
    have hmiss : ¬ ∃ s ∈ position.stopLoss, s ≤ bar.high := by simpa using hstop
    constructor
    · intro h
      refine ⟨fun s hs => hbar.trans (le_of_not_ge (hstop s hs)), fun t ht => .inl ?_⟩
      by_contra hlt
      exact hlt (h t ht (hbar.trans (not_le.mp hlt).le)).2
    · rintro ⟨_, h⟩ t ht hreached
      exact ⟨hreached, (h t ht).resolve_right hmiss⟩

/-! ## The exits of a bar -/

/-- The transition closes the position for the reason and at the price; it books the result at that
price, less the fee. -/
def Closes (position : PositionState) (reason : ExitReason) (price : ℚ)
    (t : StateTransitionEvent) : Prop :=
  ∃ fill pnl, t.payload = .positionClosed position.positionId fill pnl reason ∧
    fill.price = price ∧ pnl = position.grossPnl price - fill.fee

variable {u : ℕ} {positions : List PositionState} {t : StateTransitionEvent}

theorem closes_closePosition : Closes position reason price
    (engine.closePosition position price reason c u).1.transition := by
  obtain ⟨fill, hfee, hprice, hpay⟩ := closePosition_payload engine c u position price reason
  exact ⟨fill, _, hpay, hprice, by rw [hfee]; rfl⟩

/-- Every transition of an exit pass closes a position on the word of `check_exit`. -/
theorem mem_evaluatePositions (h : t ∈ (evaluatePositions bar c approvedSide incrementBars engine
    positions u).1.transitions) : ∃ position ∈ positions, position.symbol = c.symbol ∧
    ∃ engine' : SimulatedExecutionEngine, ∃ barsHeld reason price,
      engine'.checkExit position bar barsHeld approvedSide incrementBars = some (reason, price) ∧
      Closes position reason price t := by
  induction positions generalizing engine u with
  | nil => exact absurd h List.not_mem_nil
  | cons position rest ih =>
    have hrest : ∀ {e v}, t ∈ (evaluatePositions bar c approvedSide incrementBars e rest
        v).1.transitions → ∃ p ∈ position :: rest, p.symbol = c.symbol ∧
        ∃ engine' : SimulatedExecutionEngine, ∃ barsHeld reason price,
          engine'.checkExit p bar barsHeld approvedSide incrementBars = some (reason, price) ∧
          Closes p reason price t := by
      intro e v h
      obtain ⟨p, hp, hexit⟩ := ih h
      exact ⟨p, List.mem_cons_of_mem _ hp, hexit⟩
    by_cases hsym : position.symbol = c.symbol
    · cases hexit : (engine.countBar position incrementBars).checkExit position bar
          (engine.barsHeld position incrementBars) approvedSide incrementBars with
      | none =>
        rw [evaluatePositions_cons_of_none hsym hexit] at h
        exact hrest h
      | some hit =>
        rw [evaluatePositions_cons_of_some hsym hexit] at h
        rcases List.mem_cons.mp h with rfl | h
        · exact ⟨position, List.mem_cons_self, hsym, _, _, _, _, hexit, closes_closePosition⟩
        · exact hrest h
    · rw [evaluatePositions_cons_of_ne hsym] at h
      exact hrest h

variable (engine u) in
/-- A position whose levels a bar triggers is closed at the level. -/
theorem exists_closes_evaluatePositions (htests : TestsLevels approvedSide incrementBars)
    (hposition : position ∈ positions) (hsym : position.symbol = c.symbol)
    (hlevels : checkLevels position bar = some (reason, price)) :
    ∃ t ∈ (evaluatePositions bar c approvedSide incrementBars engine positions u).1.transitions,
      Closes position reason price t := by
  induction positions generalizing engine u with
  | nil => exact absurd hposition List.not_mem_nil
  | cons p rest ih =>
    by_cases hp : p.symbol = c.symbol
    · cases hexit : (engine.countBar p incrementBars).checkExit p bar
          (engine.barsHeld p incrementBars) approvedSide incrementBars with
      | none =>
        rw [evaluatePositions_cons_of_none hp hexit]
        rcases List.mem_cons.mp hposition with rfl | hposition
        · rw [checkExit_of_levels htests hlevels] at hexit
          cases hexit
        · exact ih _ _ hposition
      | some hit =>
        rw [evaluatePositions_cons_of_some hp hexit]
        rcases List.mem_cons.mp hposition with rfl | hposition
        · rw [checkExit_of_levels htests hlevels] at hexit
          cases hexit
          exact ⟨_, List.mem_cons_self, closes_closePosition⟩
        · obtain ⟨t, ht, hcloses⟩ := ih _ _ hposition
          exact ⟨t, List.mem_cons_of_mem _ ht, hcloses⟩
    · rw [evaluatePositions_cons_of_ne hp]
      refine ih _ _ ((List.mem_cons.mp hposition).resolve_left ?_)
      rintro rfl
      exact hp hsym

/-- Every transition of a liquidation is at the given price. -/
theorem mem_closeAll (h : t ∈ (closeAll price c engine positions u).1.transitions) :
    ∃ position ∈ positions, Closes position .endOfRun price t := by
  induction positions generalizing engine u with
  | nil => exact absurd h List.not_mem_nil
  | cons position rest ih =>
    by_cases hsym : position.symbol = c.symbol
    · rw [closeAll_cons_of_eq hsym] at h
      rcases List.mem_cons.mp h with rfl | h
      · exact ⟨position, List.mem_cons_self, closes_closePosition⟩
      · obtain ⟨p, hp, hcloses⟩ := ih h
        exact ⟨p, List.mem_cons_of_mem _ hp, hcloses⟩
    · rw [closeAll_cons_of_ne hsym] at h
      obtain ⟨p, hp, hcloses⟩ := ih h
      exact ⟨p, List.mem_cons_of_mem _ hp, hcloses⟩

variable {snapshot : StateSnapshot}

variable (engine bar snapshot c approvedSide incrementBars u) in
/-- `evaluate_bar` opens what is queued and then runs the exit loop over the snapshot. -/
theorem evaluateBar_transitions : ∃ opens engine' v, (∀ t ∈ opens, t.IsOpening) ∧
    (engine.evaluateBar bar snapshot c approvedSide incrementBars u).1.transitions =
      opens ++ (evaluatePositions bar c approvedSide incrementBars engine'
        snapshot.portfolio.openPositions v).1.transitions := by
  cases incrementBars with
  | false => exact ⟨[], engine, u, fun t ht => absurd ht List.not_mem_nil, rfl⟩
  | true =>
    let pending := engine.processPendingEntries bar c u
    have hfills := (processPendingEntries_spec bar c engine u).1
    exact ⟨pending.1.transitions, pending.1.engine, pending.2,
      fun t ht => (hfills.isOpening.2 t ht).1, rfl⟩

theorem Closes.isClosing (h : Closes position reason price t) : t.IsClosing := by
  obtain ⟨fill, pnl, hpay, -⟩ := h
  exact ⟨_, fill, pnl, reason, hpay⟩

/-- The closings of `evaluate_bar` are made on the word of `check_exit`. -/
theorem closes_of_evaluateBar (hclosing : t.IsClosing)
    (h : t ∈ (engine.evaluateBar bar snapshot c approvedSide incrementBars u).1.transitions) :
    ∃ position ∈ snapshot.portfolio.openPositions, position.symbol = c.symbol ∧
    ∃ engine' : SimulatedExecutionEngine, ∃ barsHeld reason price,
      engine'.checkExit position bar barsHeld approvedSide incrementBars = some (reason, price) ∧
      Closes position reason price t := by
  obtain ⟨opens, engine', v, hopens, htransitions⟩ :=
    evaluateBar_transitions engine bar c approvedSide incrementBars u snapshot
  rw [htransitions] at h
  rcases List.mem_append.mp h with h | h
  · obtain ⟨p, fill, cost, hopened⟩ := hopens t h
    obtain ⟨_, _, _, _, hclosed⟩ := hclosing
    cases hopened.symm.trans hclosed
  · exact mem_evaluatePositions h

/-- Where the levels are tested, the exits of `evaluate_bar` are within the bar exactly when the bar
has not jumped past the levels of an open position. -/
theorem evaluateBar_contains_iff (hbar : bar.WellFormed) :
    (∀ price ∈ (engine.evaluateBar bar snapshot c approvedSide incrementBars u).1.exitPrices,
      bar.Contains price) ↔
    (TestsLevels approvedSide incrementBars → ∀ position ∈ snapshot.portfolio.openPositions,
      position.symbol = c.symbol → position.NotGapped bar) := by
  constructor
  · intro h htests position hposition hsym
    refine (contains_checkLevels_iff hbar.low_le_high).mp ?_
    rintro ⟨reason, price⟩ hlevels
    obtain ⟨opens, engine', v, _, htransitions⟩ :=
      evaluateBar_transitions engine bar c approvedSide incrementBars u snapshot
    obtain ⟨t, ht, fill, pnl, hpay, hprice, _⟩ :=
      exists_closes_evaluatePositions engine' v htests hposition hsym hlevels
    refine h price (Pass.mem_exitPrices.mpr ⟨t, ?_, _, fill, pnl, reason, hpay, hprice⟩)
    rw [htransitions]
    exact List.mem_append_right _ ht
  · intro h price hprice
    obtain ⟨t, ht, id, fill, pnl, reason, hpay, rfl⟩ := Pass.mem_exitPrices.mp hprice
    obtain ⟨position, hposition, hsym, engine', barsHeld, reason', price', hexit, fill', pnl',
      hpay', rfl, _⟩ := closes_of_evaluateBar ⟨id, fill, pnl, reason, hpay⟩ ht
    cases hpay.symm.trans hpay'
    rcases checkExit_cases hexit with ⟨htests, hlevels | ⟨_, hclose⟩⟩ | ⟨_, _, hclose⟩
    · exact (contains_checkLevels_iff hbar.low_le_high).mpr (h htests position hposition hsym)
        _ hlevels
    · exact hclose ▸ hbar.contains_close
    · exact hclose ▸ hbar.contains_close

/-- Every exit of `evaluate_bar` and of `liquidate_open_positions` is filled within the range of the
bar exactly when only signal exits are looked for or the bar has not jumped past a level of an open
position of its symbol. -/
theorem exits_contained_iff (engine : SimulatedExecutionEngine) (snapshot : StateSnapshot)
    (c : EventCtx) (approvedSide : Option Side) (incrementBars : Bool) (u : ℕ)
    (hbar : bar.WellFormed) :
    ((∀ price ∈ (engine.evaluateBar bar snapshot c approvedSide incrementBars u).1.exitPrices,
        bar.Contains price) ∧
      ∀ price ∈ (engine.liquidateOpenPositions bar snapshot c u).1.exitPrices,
        bar.Contains price) ↔
    (TestsLevels approvedSide incrementBars → ∀ position ∈ snapshot.portfolio.openPositions,
      position.symbol = c.symbol → position.NotGapped bar) := by
  rw [evaluateBar_contains_iff hbar]
  refine and_iff_left fun price hprice => ?_
  obtain ⟨t, ht, id, fill, pnl, reason, hpay, rfl⟩ := Pass.mem_exitPrices.mp hprice
  obtain ⟨position, _, fill', pnl', hpay', hclose, _⟩ := mem_closeAll ht
  cases hpay.symm.trans hpay'
  rw [hclose]
  exact hbar.contains_close

/-! ## A bar beyond the stop -/

/-- A portfolio of 10000 with a long position from 100 that has its stop at 98 and its target at
104. -/
def longSnapshot : StateSnapshot :=
  let s := InMemoryStateStore.init 10000
  let position : PositionState := {
    positionId := 0, symbol := "BTC", side := .long, quantity := 1, entryPrice := 100
    entryTime := 0, stopLoss := some 98, takeProfit := some 104 }
  { snapshotId := 1, portfolio := { s.portfolio with openPositions := [position] }
    risk := s.risk, version := 1, correlationId := none }

/-- An engine without slippage and fees. -/
def plainEngine : SimulatedExecutionEngine where
  fillModel := { modelId := "no_cost" }
  config := .default

/-- The arguments of a cycle of `BTC`. -/
def plainCtx : EventCtx where
  eventTime := 0
  processingTime := 0
  correlationId := .given "cycle"
  symbol := "BTC"
  timeframe := "1h"
  mode := .validation

/-- The market opens at 90 and never trades above 92: the stop at 98 is filled at 98. -/
theorem not_contains_gap :
    let bar : Bar := ⟨90, 92, 88, 91, 1⟩
    bar.WellFormed ∧ ∃ price ∈ (plainEngine.evaluateBar bar longSnapshot plainCtx none true
      2).1.exitPrices, ¬ bar.Contains price := by
  decide +kernel

theorem exits_contained_iff_touched :
    let bar : Bar := ⟨100, 101, 97, 99, 1⟩
    ((∀ price ∈ (plainEngine.evaluateBar bar longSnapshot plainCtx none true 2).1.exitPrices,
        bar.Contains price) ∧
      ∀ price ∈ (plainEngine.liquidateOpenPositions bar longSnapshot plainCtx 2).1.exitPrices,
        bar.Contains price) ↔
    (TestsLevels none true → ∀ position ∈ longSnapshot.portfolio.openPositions,
      position.symbol = plainCtx.symbol → position.NotGapped ⟨100, 101, 97, 99, 1⟩) :=
  exits_contained_iff plainEngine longSnapshot plainCtx none true 2 (by decide +kernel)

end SimulatedExecutionEngine

end TradingPlatform
