import TradingPlatform.Carry.LiveExecutor

/-!
# Cycles of the carry runner

One `cycle` loads the state file, takes a snapshot, plans, executes, books the fills, accrues
funding and saves the file. A cycle that raises leaves the file as it was, whatever it has traded.
-/

namespace TradingPlatform

/-! ## Snapshots -/

structure PerpSnapshot where
  ts : ℤ
  symbol : String
  spotPx : ℚ
  perpMarkPx : ℚ
  fundingRate : ℚ
  trailingFunding8h : ℚ
  isFundingTime : Bool

/-- What the two clients answer to the reads of a snapshot, after the retries: the spot ticker, the
mark price and rate of `fetch_funding_rate`, the perp ticker, and the rates of the history. -/
structure MarketReplies where
  spotLast : Except PyError ℚ
  funding : Except PyError (Option ℚ × ℚ)
  perpLast : Except PyError ℚ
  history : Except PyError (List ℚ)

/-- The perp price of a snapshot: the mark price, or the last price where there is none. -/
def MarketReplies.perpPx (m : MarketReplies) (markPrice : Option ℚ) : Except PyError ℚ :=
  if orNumber markPrice 0 = 0 then m.perpLast else .ok (orNumber markPrice 0)

/-- `CarryExchange.snapshot`. Every snapshot of a live market is taken to be at a funding time. -/
def MarketReplies.snapshot (m : MarketReplies) (symbol : String) (now : ℤ) :
    Except PyError PerpSnapshot := do
  let spotPx ← m.spotLast
  let funding ← m.funding
  let perpPx ← m.perpPx funding.1
  let hist ← m.history
  return {
    ts := now
    symbol
    spotPx
    perpMarkPx := perpPx
    fundingRate := funding.2
    trailingFunding8h := if hist = [] then funding.2 else hist.sum / hist.length
    isFundingTime := true }

theorem MarketReplies.snapshot_ok {m : MarketReplies} {symbol : String} {now : ℤ}
    {snap : PerpSnapshot} (h : m.snapshot symbol now = .ok snap) :
    snap.ts = now ∧ snap.isFundingTime = true := by
  obtain ⟨spotPx, -, h⟩ := Except.bind_eq_ok.mp h
  obtain ⟨funding, -, h⟩ := Except.bind_eq_ok.mp h
  obtain ⟨perpPx, -, h⟩ := Except.bind_eq_ok.mp h
  obtain ⟨hist, -, h⟩ := Except.bind_eq_ok.mp h
  cases h
  exact ⟨rfl, rfl⟩

/-! ## Executors -/

/-- `PaperCarryExecutor.execute`: the plan is filled exactly, at a cost. -/
def paperExecute (takerBps slippageBps : ℚ) (plan : RebalancePlan) (spotPx perpPx : ℚ) :
    Option ExecReport :=
  if plan.isNoop then none
  else
    let costFrac := (takerBps + slippageBps) / 10000
    some
      { spotFillQty := plan.spotDeltaQty
        spotFillPx := if 0 < plan.spotDeltaQty then spotPx * (1 + costFrac)
          else spotPx * (1 - costFrac)
        perpFillQty := plan.perpDeltaQty
        perpFillPx := if 0 < plan.perpDeltaQty then perpPx * (1 - costFrac)
          else perpPx * (1 + costFrac)
        fee := (|plan.spotDeltaQty| * spotPx + |plan.perpDeltaQty| * perpPx) * (takerBps / 10000)
        reason := plan.reason }

inductive CarryExecutor
  | paper (takerBps slippageBps : ℚ)
  | live (venues : CarryVenues)

/-- What an executor reports, and what it really trades. -/
def CarryExecutor.execute (executor : CarryExecutor) (plan : RebalancePlan) (spotPx perpPx : ℚ) :
    Except PyError (Option ExecReport) × VenueTrades :=
  match executor with
  | .paper takerBps slippageBps => (.ok (paperExecute takerBps slippageBps plan spotPx perpPx), {})
  | .live venues => venues.execute plan spotPx perpPx

/-! ## The runner -/

structure CarryRunner where
  config : CarryManagerConfig := {}
  state : CarryPositionState
  cash : ℚ

namespace CarryRunner

def equity (r : CarryRunner) (spotPx perpPx : ℚ) : ℚ :=
  CarryManagerConfig.equity r.state r.cash spotPx perpPx

/-- The plan of a step. -/
def plan (r : CarryRunner) (snap : PerpSnapshot) : Except PyError RebalancePlan :=
  (r.config.decideTarget snap.trailingFunding8h (r.equity snap.spotPx snap.perpMarkPx)).map
    fun target => r.config.plan r.state target snap.spotPx snap.perpMarkPx

/-- The fill of a step is booked. -/
def book (r : CarryRunner) : Option ExecReport → CarryRunner
  | none => r
  | some report =>
    { r with state := (r.state.applyFill report).1, cash := r.cash + (r.state.applyFill report).2 }

/-- Whether a step accrues funding on the position it has booked. -/
def accrues (r : CarryRunner) (snap : PerpSnapshot) : Bool := snap.isFundingTime && r.state.inMarket

/-- The funding of a step, if it is due. -/
def accrue (r : CarryRunner) (snap : PerpSnapshot) : CarryRunner :=
  if r.accrues snap then
    { r with state := r.state.accrueFunding snap.fundingRate snap.perpMarkPx }
  else r

@[simp] theorem accrue_spotQty (r : CarryRunner) (snap : PerpSnapshot) :
    (r.accrue snap).state.spotQty = r.state.spotQty := by
  rw [accrue]
  split <;> rfl

@[simp] theorem accrue_perpQty (r : CarryRunner) (snap : PerpSnapshot) :
    (r.accrue snap).state.perpQty = r.state.perpQty := by
  rw [accrue]
  split <;> rfl

/-- `step`: the action, the runner after it and whether funding was accrued, or an error; and what
was really traded. -/
def step (r : CarryRunner) (executor : CarryExecutor) (snap : PerpSnapshot) :
    Except PyError (PlanReason × CarryRunner × Bool) × VenueTrades :=
  match r.plan snap with
  | .error e => (.error e, {})
  | .ok plan =>
    let result := executor.execute plan snap.spotPx snap.perpMarkPx
    (result.1.map fun report =>
      let booked := r.book report
      (plan.reason, booked.accrue snap, booked.accrues snap),
      result.2)

end CarryRunner

/-! ## The state file -/

structure CarryMark where
  ts : ℤ
  spotPx : ℚ
  perpPx : ℚ
  funding8h : ℚ
  equity : ℚ
  action : PlanReason
  dryRun : Bool

/-- The content of the state file. -/
structure CarryLiveState where
  symbol : String
  cash : ℚ
  spotBaseline : Option ℚ
  state : CarryPositionState
  mark : CarryMark

/-- `load_position`, with the defaults of a fresh runner. -/
def loadPosition (file : Option CarryLiveState) : CarryPositionState × ℚ × Option ℚ :=
  match file with
  | none => ({}, 0, none)
  | some file => (file.state, file.cash, file.spotBaseline)

/-- The position the file has. -/
abbrev persisted (file : Option CarryLiveState) : CarryPositionState := (loadPosition file).1

/-- A call of `_cycle`, and what its environment does: whether there are credentials, the spot and
perp quantities `open_positions` reads, the market, and the venues. -/
structure CycleCallEnv where
  credentials : Bool := true
  openPositions : Except PyError (ℚ × ℚ)
  market : MarketReplies
  venues : CarryVenues

structure CarryCycle where
  symbol : String
  capital : ℚ
  dryRun : Bool
  now : ℤ
  env : CycleCallEnv

namespace CarryCycle

/-- The executor of a cycle. -/
def executor (c : CarryCycle) : CarryExecutor :=
  if c.dryRun then .paper 5 3 else .live c.env.venues

/-- The spot baseline a cycle saves: a first real one records what is in the account already. -/
def spotBaseline (c : CarryCycle) (file : Option CarryLiveState) : Except PyError (Option ℚ) :=
  let (state, _, saved) := loadPosition file
  if saved = none ∧ !c.dryRun then
    c.env.openPositions.map fun actual => some (actual.1 - state.spotQty)
  else .ok saved

/-- The runner a cycle starts with, and the baseline it saves. -/
def runner (c : CarryCycle) (file : Option CarryLiveState) :
    Except PyError (CarryRunner × Option ℚ) :=
  let (state, cash, _) := loadPosition file
  let cash := if !state.inMarket ∧ cash = 0 then c.capital else cash
  if c.env.credentials then (c.spotBaseline file).map fun baseline => ({ state, cash }, baseline)
  else .error (.raised "missing credentials")

/-- What `_cycle` passes to `save_live_state`. -/
def saved (c : CarryCycle) (spotBaseline : Option ℚ) (snap : PerpSnapshot) (action : PlanReason)
    (r : CarryRunner) : CarryLiveState :=
  { symbol := c.symbol
    cash := r.cash
    spotBaseline
    state := r.state
    mark :=
      { ts := snap.ts
        spotPx := snap.spotPx
        perpPx := snap.perpMarkPx
        funding8h := snap.trailingFunding8h
        equity := r.equity snap.spotPx snap.perpMarkPx
        action
        dryRun := c.dryRun } }

/-- `_cycle`: what is saved, and whether funding was accrued, or an error; and what was really
traded. -/
def run (c : CarryCycle) (file : Option CarryLiveState) :
    Except PyError (CarryLiveState × Bool) × VenueTrades :=
  match c.runner file with
  | .error e => (.error e, {})
  | .ok (runner, spotBaseline) =>
    match c.env.market.snapshot c.symbol c.now with
    | .error e => (.error e, {})
    | .ok snap =>
      let result := runner.step c.executor snap
      (result.1.map fun (action, after, accrued) =>
        (c.saved spotBaseline snap action after, accrued),
        result.2)

/-- A cycle in a market at one price, with a funding rate of one basis point, on venues that fill
every order in full. -/
def quiet (dryRun : Bool) (now : ℤ) : CarryCycle where
  symbol := "BTC/USDT"
  capital := 1000
  dryRun
  now
  env :=
    { openPositions := .ok (0, 0)
      market :=
        { spotLast := .ok 100
          funding := .ok (some 100, 1 / 10000)
          perpLast := .ok 100
          history := .ok [] }
      venues := .filling 1 1 }

/-! ## What a cycle does -/

/-- The runner of a cycle, its snapshot and its plan, if it gets so far. -/
def planned (c : CarryCycle) (file : Option CarryLiveState) :
    Except PyError (CarryRunner × PerpSnapshot × RebalancePlan) := do
  let started ← c.runner file
  let snap ← c.env.market.snapshot c.symbol c.now
  let plan ← started.1.plan snap
  return (started.1, snap, plan)

variable {c : CarryCycle} {file : Option CarryLiveState} {runner : CarryRunner}
  {snap : PerpSnapshot} {plan : RebalancePlan}

theorem runner_state {baseline : Option ℚ} (h : c.runner file = .ok (runner, baseline)) :
    runner.state = persisted file := by
  simp only [CarryCycle.runner] at h
  split at h
  · obtain ⟨_, _, heq⟩ := Except.map_eq_ok.mp h
    obtain ⟨rfl, _⟩ := Prod.mk.inj heq
    rfl
  · cases h

theorem planned_ok (h : c.planned file = .ok (runner, snap, plan)) :
    (∃ baseline, c.runner file = .ok (runner, baseline)) ∧
      c.env.market.snapshot c.symbol c.now = .ok snap ∧ runner.plan snap = .ok plan := by
  obtain ⟨started, hstarted, h⟩ := Except.bind_eq_ok.mp h
  obtain ⟨snap', hsnap, h⟩ := Except.bind_eq_ok.mp h
  obtain ⟨plan', hplan, h⟩ := Except.bind_eq_ok.mp h
  cases h
  exact ⟨⟨started.2, hstarted⟩, hsnap, hplan⟩

/-- A cycle that gets to its plan executes it, and saves the runner with the fill booked and the
funding accrued if there is no error. -/
theorem run_of_planned (h : c.planned file = .ok (runner, snap, plan)) :
    ∃ baseline, c.run file =
      ((c.executor.execute plan snap.spotPx snap.perpMarkPx).1.map fun report =>
        (c.saved baseline snap plan.reason ((runner.book report).accrue snap),
          (runner.book report).accrues snap),
      (c.executor.execute plan snap.spotPx snap.perpMarkPx).2) := by
  obtain ⟨⟨baseline, hrunner⟩, hsnap, hplan⟩ := planned_ok h
  refine ⟨baseline, ?_⟩
  simp only [run, hrunner, hsnap, CarryRunner.step, hplan]
  cases (c.executor.execute plan snap.spotPx snap.perpMarkPx).1 <;> rfl

/-- A cycle that does not get to its plan trades nothing and saves nothing. -/
theorem run_of_not_planned {e : PyError} (h : c.planned file = .error e) :
    c.run file = (.error e, {}) := by
  simp only [run]
  cases hrunner : c.runner file with
  | error e' =>
    simp only [planned, hrunner] at h
    cases h
    rfl
  | ok started =>
    cases hsnap : c.env.market.snapshot c.symbol c.now with
    | error e' =>
      simp only [planned, hrunner, hsnap] at h
      cases h
      rfl
    | ok snap =>
      cases hplan : started.1.plan snap with
      | error e' =>
        simp only [planned, hrunner, hsnap, bind, Except.bind, hplan] at h
        cases h
        simp only [CarryRunner.step, hplan]
        rfl
      | ok plan =>
        simp only [planned, hrunner, hsnap, bind, Except.bind, hplan] at h
        cases h

end CarryCycle

end TradingPlatform
