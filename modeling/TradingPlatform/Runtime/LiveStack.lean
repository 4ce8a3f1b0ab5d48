import TradingPlatform.Data.LiveProvider
import TradingPlatform.Runtime.Phases

/-!
# The live stack

On a live stack the runtime shares a `WallClock` with nobody but itself: `_prepare_bar` asks it for
the end time and stores the time of the bar back into it. From the first cycle on the clock stands,
so every later cycle is cut off at the bar of the first.
-/

namespace TradingPlatform

open LiveProvider

/-- `build_live_stack`: the runtime of a live stack, on the configuration it loads. -/
def buildLiveStack (mode : Mode) (decisionEngine : EngineConfig) (fillModel : FillModel)
    (config : ValidationExecutionConfig) (now : ℤ) : RuntimeSetup where
  decisionEngine := decisionEngine
  mode := mode
  startedAt := now
  execution := some { fillModel, config, mode }
  clock := .wall none

/-- A cycle on a live stack: the data comes from the exchange. `opened` and `barSeconds` say what
the program sees through the exchange only, the bars of the symbol and timeframe that have opened by
the time of the call, oldest first, and their length. -/
structure LiveCall extends CycleCall where
  exchange : Exchange
  opened : List OhlcvRow
  barSeconds : ℤ

namespace LiveCall

/-- The wall-clock time of the call. -/
def now (call : LiveCall) : ℤ := call.collaborators.now

/-- The call with `LiveProvider.get_latest` as its data provider. -/
def toCall (call : LiveCall) : CycleCall :=
  { call.toCycleCall with collaborators := { call.collaborators with
      getLatest := fun symbol timeframe endTime =>
        LiveProvider.getLatest call.exchange call.now symbol timeframe 200 endTime } }

/-- The exchange serves every bar already opened for the symbol and timeframe. -/
structure Served (call : LiveCall) : Prop where
  series : Series call.barSeconds call.now call.opened
  serves : Serves call.exchange call.symbol call.timeframe call.barSeconds call.opened

/-- The open time of the newest bar closed by the time of the call. -/
def newestClosed (call : LiveCall) : Option ℤ :=
  LiveProvider.newestClosed call.barSeconds call.now call.opened

end LiveCall

namespace PlatformRuntime

variable {rt r r' rt₁ : PlatformRuntime} {ctx : CycleCtx} {call : CycleCall}

/-! ## The clock over a cycle -/

theorem clock_books (h : Books r r') : r'.clock = r.clock := by
  obtain ⟨_, happlied, _⟩ := h
  exact happlied.clock

/-- Only the preparation of the bar sets the clock. -/
theorem clock_step (rt : PlatformRuntime) (call : CycleCall) :
    (∃ e, rt.prepareBar call = .error e ∧ rt.step call = rt) ∨
    ∃ ctx rt₁, Prepared call rt ctx rt₁ ∧
      (rt.step call).clock = rt.clock.setEventTime ctx.eventTime := by
  refine step_rule rt call (I := fun ctx r => r.clock = rt.clock.setEventTime ctx.eventTime)
    (fun _ _ _ hquiet hr => hquiet.clock.trans hr) (fun ctx rt₁ hprep => ?_)
    (fun _ r hr => (clock_books (books_maybeResetDailyRisk r _ _)).trans hr)
    (fun _ r hr => (clock_books (books_markToMarket r _)).trans hr)
    (fun _ _ _ _ r _ hr => (clock_books (books_countApproved r _ _ _)).trans hr)
    (fun _ ctx' decision r _ _ hr => ?_)
  · obtain ⟨_, _, happlied, _⟩ := preDecisionEvaluate_applied rt₁ ctx
    exact happlied.clock.trans hprep.clock
  · obtain ⟨_, _, happlied, _⟩ := sameBarExitAndExecute_applied r ctx' decision
    exact happlied.clock.trans hr

/-! ## The event times of a run -/

/-- A cycle on the live stack. -/
def liveStep (rt : PlatformRuntime) (call : LiveCall) : PlatformRuntime := rt.step call.toCall

/-- The event time of a cycle; none when it gets no bar. -/
def eventTime (rt : PlatformRuntime) (call : LiveCall) : Option ℤ :=
  match rt.prepareBar call.toCall with
  | .ok (ctx, _) => some ctx.eventTime
  | .error _ => none

/-- The event time of the cycle is the open time of the newest bar closed by the time of the call,
and without a closed bar there is none. -/
def OnNewestClosed (rt : PlatformRuntime) (call : LiveCall) : Prop :=
  rt.eventTime call = call.newestClosed

instance (rt : PlatformRuntime) (call : LiveCall) : Decidable (rt.OnNewestClosed call) :=
  inferInstanceAs (Decidable (_ = _))

/-- The event time of a cycle is the timestamp of the last row that the provider returns. -/
theorem eventTime_eq (rt : PlatformRuntime) (call : LiveCall) :
    rt.eventTime call =
      ((LiveProvider.getLatest call.exchange call.now call.symbol call.timeframe 200
        (some (rt.clock.nowEventTime call.now))).toOption.bind (·.getLast?)).map
        (·.timestamp) := by
  have hclock := (quiet_cycleId rt call.toCall).clock
  unfold eventTime prepareBar
  generalize rt.cycleId call.toCall = cycle at hclock
  obtain ⟨cycleId, rt'⟩ := cycle
  simp only at hclock
  cases hlatest : LiveProvider.getLatest call.exchange call.now call.symbol call.timeframe 200
      (some (rt.clock.nowEventTime call.now)) with
  | error e =>
    have hlatest' : call.toCall.collaborators.getLatest call.toCall.symbol call.toCall.timeframe
      (some (rt'.clock.nowEventTime call.toCall.collaborators.now)) = .error e := hclock ▸ hlatest
    simp only [hlatest']
    rfl
  | ok df =>
    have hlatest' : call.toCall.collaborators.getLatest call.toCall.symbol call.toCall.timeframe
      (some (rt'.clock.nowEventTime call.toCall.collaborators.now)) = .ok df := hclock ▸ hlatest
    simp only [hlatest']
    cases hlast : df.getLast? with
    | none => simp [bind, Except.bind, Except.toOption, hlast]; rfl
    | some row => simp [bind, Except.bind, Except.toOption, hlast]; rfl

variable {live : LiveCall} {calls : List LiveCall}

theorem onNewestClosed_iff (rt : PlatformRuntime) (hserved : live.Served) :
    rt.OnNewestClosed live ↔ ∀ c ∈ live.newestClosed, c ≤ rt.clock.nowEventTime live.now := by
  unfold OnNewestClosed
  rw [eventTime_eq]
  exact getLast?_getLatest_iff hserved.series.chronological hserved.serves 199 _

theorem newestClosed_le_now (hserved : live.Served) : ∀ c ∈ live.newestClosed, c ≤ live.now := by
  intro c hc
  obtain ⟨candle, hlast, rfl⟩ := Option.map_eq_some_iff.mp hc
  have hclosed : candle.timestamp + seconds live.barSeconds ≤ live.now :=
    of_decide_eq_true (List.mem_filter.mp (List.mem_of_getLast? hlast)).2
  have hpos := seconds_pos hserved.series.positive
  change candle.timestamp ≤ live.now
  omega

/-- A cycle on the newest closed bar leaves the clock at that bar. -/
theorem clock_liveStep {e : Option ℤ} (hclock : rt.clock = .wall e)
    (hnewest : rt.OnNewestClosed live) :
    (rt.liveStep live).clock = .wall (live.newestClosed.or e) := by
  unfold OnNewestClosed eventTime at hnewest
  rw [← hnewest]
  rcases clock_step rt live.toCall with ⟨err, herr, hsame⟩ | ⟨ctx, rt₁, hprep, hstep⟩
  · simp only [herr]
    exact (congrArg PlatformRuntime.clock hsame).trans hclock
  · simp only [hprep.prepared]
    exact hstep.trans (by rw [hclock]; rfl)

/-- From a clock at `e` on, the cycles are on the newest closed bars exactly when these bars are
never newer than the one before, nor than `e`. -/
theorem along_onNewestClosed {e : Option ℤ} (hclock : rt.clock = .wall e)
    (hserved : ∀ call ∈ calls, call.Served) :
    Run.Along liveStep OnNewestClosed rt calls ↔
      (e.toList ++ calls.filterMap LiveCall.newestClosed).IsChain (· ≥ ·) := by
  induction calls generalizing rt e with
  | nil => cases e <;> simp
  | cons live calls ih =>
    have hlive := hserved live List.mem_cons_self
    have hrest : ∀ call ∈ calls, call.Served := fun call hcall =>
      hserved call (List.mem_cons_of_mem _ hcall)
    have hiff := onNewestClosed_iff rt hlive
    rw [Run.along_cons, List.filterMap_cons]
    by_cases hstep : rt.OnNewestClosed live
    · rw [ih (clock_liveStep hclock hstep) hrest, and_iff_right hstep]
      cases hnewest : live.newestClosed with
      | none => rfl
      | some c =>
        cases e with
        | none => rfl
        | some e =>
          have hle : e ≥ c := by
            have hcut := hiff.mp hstep c hnewest
            rwa [hclock] at hcut
          exact (List.isChain_cons_cons.trans (and_iff_right hle)).symm
    · refine iff_of_false (fun h => hstep h.1) (fun hchain => hstep (hiff.mpr fun c hc => ?_))
      cases e with
      | none =>
        rw [hclock]
        exact newestClosed_le_now hlive c hc
      | some e =>
        rw [show live.newestClosed = some c from hc] at hchain
        rw [hclock]
        exact (List.isChain_cons_cons.mp hchain).1

/-- On a live stack every cycle is on the newest closed bar of its symbol and timeframe exactly when
the newest closed bars of the calls never get newer from one call to the next. -/
theorem along_onNewestClosed_iff {mode : Mode} {decisionEngine : EngineConfig}
    {fillModel : FillModel} {config : ValidationExecutionConfig} {startedAt : ℤ}
    (hserved : ∀ call ∈ calls, call.Served) :
    Run.Along liveStep OnNewestClosed
      (buildLiveStack mode decisionEngine fillModel config startedAt).start calls ↔
    (calls.filterMap LiveCall.newestClosed).IsChain (· ≥ ·) :=
  along_onNewestClosed (e := none) rfl hserved

/-! ## The second hour of a live stack -/

/-- A call at `now` for hourly bars of BTC that have opened at the given times, all at a price of
100. -/
def hourlyCall (hours : List ℤ) (now : ℤ) : LiveCall where
  toCycleCall := .flat "BTC" now 100 .hold
  exchange := {
    fetchOhlcv _ _ limit _ :=
      .ok ((hours.map fun h => ⟨h * 3600000, 100, 100, 100, 100, 1⟩).rtake limit)
    parseTimeframe _ := .ok 3600 }
  opened := hours.map fun h => ⟨h * 3600000, 100, 100, 100, 100, 1⟩
  barSeconds := 3600

theorem served_hourlyCall {hours : List ℤ} {now : ℤ} (hsorted : hours.Pairwise (· < ·))
    (hbegun : ∀ h ∈ hours, h * 3600000000 ≤ now) : (hourlyCall hours now).Served where
  series := {
    positive := show (0 : ℤ) < 3600 by decide
    spaced := List.pairwise_map.mpr (hsorted.imp fun {a b} hab => by
      change a * 3600000 * 1000 + 3600 * 1000000 ≤ b * 3600000 * 1000
      omega)
    begun := by
      intro row hrow
      obtain ⟨h, hh, rfl⟩ := List.mem_map.mp hrow
      have hle := hbegun h hh
      change h * 3600000 * 1000 ≤ now
      omega }
  serves := {
    parses := rfl
    fetches := ⟨0, by decide, fun k hk => absurd hk (Nat.not_lt_zero k), fun _ => rfl⟩ }

/-- A call at half past one and another an hour later, when a further bar has opened. -/
def twoHours : List LiveCall :=
  [hourlyCall [0, 1] 5400000000, hourlyCall [0, 1, 2] 9000000000]

theorem served_twoHours : ∀ call ∈ twoHours, call.Served := by
  intro call hcall
  rcases List.mem_pair.mp hcall with rfl | rfl
  · exact served_hourlyCall (by decide) (by decide)
  · exact served_hourlyCall (by decide) (by decide)

/-- The second cycle is on the bar of the first, although a newer bar has closed. -/
theorem not_onNewestClosed_twoHours : (twoHours.map LiveCall.now).IsChain (· ≤ ·) ∧
    (∀ call ∈ twoHours, call.Served) ∧
    ¬ Run.Along liveStep OnNewestClosed
      (buildLiveStack .live .solo { modelId := "no_cost", fillAt := .close } {} 0).start
      twoHours := by
  refine ⟨by decide, served_twoHours, fun h => ?_⟩
  have hchain := (along_onNewestClosed (e := none) rfl served_twoHours).mp h
  revert hchain
  decide +kernel

theorem along_onNewestClosed_iff_twoHours :
    Run.Along liveStep OnNewestClosed
      (buildLiveStack .live .solo { modelId := "no_cost", fillAt := .close } {} 0).start twoHours ↔
    (twoHours.filterMap LiveCall.newestClosed).IsChain (· ≥ ·) :=
  along_onNewestClosed_iff served_twoHours

end PlatformRuntime

end TradingPlatform
