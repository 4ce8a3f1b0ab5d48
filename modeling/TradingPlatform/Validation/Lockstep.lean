import TradingPlatform.Runtime.Lockstep
import TradingPlatform.Validation.Job
import TradingPlatform.Validation.Ledgers

/-!
# Validation runs with and without the full event stream

The optimiser has its runs emit the events of the outcome types only. Such a run goes in lockstep
with one of the same job that emits every event, through all its cycles and the liquidation, and the
outcome entries it is ranked by are the same. Only the full stream has candles, so only its metrics
are marked to market; the return of that curve divides by the initial capital with no guard, and
that is where the two runs part.
-/

namespace TradingPlatform

open SimulatedExecutionEngine (scoreOutcomeTypes)

/-! ## The bars of a run -/

namespace ValidationHarness

variable {ρ : Renaming} {h : ValidationHarness} {rt rt' : PlatformRuntime}

/-- Two results of a run that leaves its runtime, related under an extension of `ρ`. -/
def SameEnd {α β : Type} (ρ : Renaming) (x : α × PlatformRuntime) (y : β × PlatformRuntime) :
    Prop :=
  ∃ σ, ρ ≤ σ ∧ SameRuntime σ x.2 y.2

theorem sameRuntime_setClock (hrt : SameRuntime ρ rt rt') (barTime : ℤ) :
    SameRuntime ρ (setClock barTime rt) (setClock barTime rt') :=
  { hrt with
    clock := congrArg
      (fun clock => (clock.setEventTime barTime).setProcessingTime (barTime + seconds 2))
      hrt.clock }

/-- The harness names each of its cycles. -/
theorem cycleCall_named (i : ℕ) (barTime : ℤ) :
    (h.cycleCall i barTime).correlationId.filter (· ≠ "") =
      some ("val_" ++ toString i ++ "_" ++ h.isoformat barTime) := by
  simp [cycleCall, Option.filter]

theorem lockstep_runBars {bars : List (ℤ × ℕ)} (hrt : SameRuntime ρ rt rt') :
    Except.Rel (SameEnd ρ) (h.runBars bars rt) (h.runBars bars rt') := by
  induction bars generalizing ρ rt rt' with
  | nil => exact .ok ⟨ρ, le_rfl, hrt⟩
  | cons bar rest ih =>
    obtain ⟨barTime, i⟩ := bar
    have hcycle := PlatformRuntime.lockstep_runCycle (sameRuntime_setClock hrt barTime)
      (cycleCall_named (h := h) i barTime)
    unfold runBars
    generalize (setClock barTime rt).runCycle (h.cycleCall i barTime) = run at hcycle ⊢
    generalize (setClock barTime rt').runCycle (h.cycleCall i barTime) = run' at hcycle ⊢
    cases hcycle with
    | error e => exact .error e
    | @ok σ _ _ rt rt' hle hafter =>
      have hrest := ih hafter
      dsimp only at hrest ⊢
      generalize h.runBars rest rt = tail at hrest ⊢
      generalize h.runBars rest rt' = tail' at hrest ⊢
      cases hrest with
      | error e => exact .error e
      | ok hend =>
        obtain ⟨τ, hle', hend⟩ := hend
        exact .ok ⟨τ, hle.trans hle', hend⟩

end ValidationHarness

/-! ## The liquidation -/

theorem PlatformRuntime.lockstep_liquidateOpenPositions {ρ : Renaming} {rt rt' : PlatformRuntime}
    {call : LiquidationCall} (hrt : SameRuntime ρ rt rt') :
    Except.Rel (fun x y => ∃ σ, ρ ≤ σ ∧ SameRuntime σ x y) (rt.liquidateOpenPositions call)
      (rt'.liquidateOpenPositions call) := by
  have hidle : Except.Rel (ε := PyError) (fun x y => ∃ σ, ρ ≤ σ ∧ SameRuntime σ x y) (.ok rt)
      (.ok rt') := .ok ⟨ρ, le_rfl, hrt⟩
  have hflat : rt'.stateStore.portfolio.openPositions.filter (·.symbol = call.symbol) = [] ↔
      rt.stateStore.portfolio.openPositions.filter (·.symbol = call.symbol) = [] := by
    have hfilter := List.rel_filter (p := fun p : PositionState => p.symbol = call.symbol)
      (q := fun p : PositionState => p.symbol = call.symbol)
      (fun _ _ (hp : SamePosition ρ _ _) => by simp only [hp.symbol_eq])
      hrt.stateStore.openPositions
    rw [← List.length_eq_zero_iff, ← List.length_eq_zero_iff, hfilter.length_eq]
  have hengines := hrt.executionEngine
  unfold liquidateOpenPositions
  generalize rt.executionEngine = engine at hengines ⊢
  generalize rt'.executionEngine = engine' at hengines ⊢
  cases hengines with
  | none => exact hidle
  | @some engine engine' hengine =>
    obtain ⟨hsnapshot, hrt⟩ := hrt.snapshot call.correlationId
    dsimp only
    rw [if_congr hflat rfl rfl, hengine.mode]
    split
    · exact hidle
    cases call.getLatest call.symbol call.timeframe (some call.lastBarTime) with
    | error e => exact .error e
    | ok df =>
      dsimp only
      cases df.getLast? with
      | none => exact .error _
      | some lastRow =>
        obtain ⟨σ, hle, hpass, hbooks⟩ := hrt.toSameBooks.draw
          (SimulatedExecutionEngine.lockstep_liquidateOpenPositions lastRow.bar {
            eventTime := call.lastBarTime
            processingTime := call.lastBarTime + seconds 2
            correlationId := call.correlationId
            symbol := call.symbol
            timeframe := call.timeframe
            mode := engine.mode } hengine hsnapshot)
        have hafter := hbooks.pass hpass
        exact .ok ⟨σ, hle, { hafter with published := hafter.published.append hpass.events }⟩

/-! ## The metrics -/

section Metrics

variable {ρ : Renaming} {events events' : List EventEnvelope} {initialCapital equity : ℚ}
  {m m' : OutcomeMetrics}

theorem eventsOfType_outcomeEvents {eventType : EventType} (h : eventType ∈ scoreOutcomeTypes)
    (events : List EventEnvelope) :
    eventsOfType eventType (outcomeEvents events) = eventsOfType eventType events := by
  unfold eventsOfType outcomeEvents
  rw [List.filter_filter]
  refine List.filter_congr fun e _ => ?_
  by_cases htype : e.eventType = eventType
  · simp [htype, h]
  · simp [htype]

theorem SameEvent.eventType_eq {e e' : EventEnvelope} (h : SameEvent ρ e e') :
    e'.eventType = e.eventType := by
  obtain ⟨samePayload⟩ := h
  exact samePayload.eventType_eq

theorem SameEvents.ofType (h : SameEvents ρ events events') (eventType : EventType)
    (hout : eventType ∈ scoreOutcomeTypes) :
    List.Forall₂ (SameEvent ρ) (eventsOfType eventType events)
      (eventsOfType eventType events') := by
  rw [← eventsOfType_outcomeEvents hout events, ← eventsOfType_outcomeEvents hout events']
  refine List.rel_filter (fun e e' he => ?_) h
  dsimp only
  rw [he.eventType_eq]

/-- The time and the result of a close do not depend on the ids. -/
theorem SameEvent.timedPnl_eq {e e' : EventEnvelope} (h : SameEvent ρ e e') :
    (e'.eventTime, e'.pnl) = (e.eventTime, e.pnl) := by
  obtain ⟨id, eventTime, processingTime, correlationId, cause, symbol, timeframe, mode, revisionId,
    experimentId, payload⟩ := e
  obtain ⟨samePayload⟩ := h
  cases samePayload <;> rfl

theorem SameEvents.closed_eq (h : SameEvents ρ events events') :
    (eventsOfType .positionClosed events').map (fun e => (e.eventTime, e.pnl)) =
      (eventsOfType .positionClosed events).map (fun e => (e.eventTime, e.pnl)) := by
  have hclosed := h.ofType .positionClosed (by decide)
  have hmap := List.rel_map (P := Eq) (fun _ _ he => he.timedPnl_eq.symm) hclosed
  rw [List.forall₂_eq_eq_eq] at hmap
  exact hmap.symm

theorem SameEvents.pnls_eq (h : SameEvents ρ events events') :
    (eventsOfType .positionClosed events').map (·.pnl) =
      (eventsOfType .positionClosed events).map (·.pnl) := by
  simpa [Function.comp_def] using congrArg (List.map Prod.snd) h.closed_eq

theorem SameEvents.closedByTime_eq (h : SameEvents ρ events events') :
    closedByTime events' = closedByTime events := by
  have hsort : ∀ events, closedByTime events =
      ((eventsOfType .positionClosed events).map (fun e => (e.eventTime, e.pnl))).insertionSort
        (fun a b => a.1 ≤ b.1) := by
    intro events
    exact List.map_insertionSort _ _ _ _ fun _ _ _ _ => Iff.rfl
  rw [hsort, hsort, h.closed_eq]

/-- The metrics of runs with the same outcome events differ in the marked entries at most. -/
theorem SameEvents.metrics_eq (h : SameEvents ρ events events')
    (hm : computeOutcomeMetrics events initialCapital (some equity) = .ok m)
    (hm' : computeOutcomeMetrics events' initialCapital (some equity) = .ok m') :
    { m' with mtm := none } = { m with mtm := none } := by
  obtain ⟨mtm, _, hm⟩ := Except.bind_eq_ok.mp hm
  obtain ⟨mtm', _, hm'⟩ := Except.bind_eq_ok.mp hm'
  cases hm
  cases hm'
  have hrejected := (h.ofType .orderRejected (by decide)).length_eq
  have hopened := (h.ofType .positionOpened (by decide)).length_eq
  have hclosed := (h.ofType .positionClosed (by decide)).length_eq
  simp only [h.pnls_eq, hrejected, hopened, hclosed]

/-- The score is computed from entries that do not depend on the marking. -/
theorem SameEvents.score_eq (h : SameEvents ρ events events') (sqrt : ℚ → ℚ)
    (hm : { m' with mtm := none } = { m with mtm := none }) :
    (m'.scored sqrt events').score = (m.scored sqrt events).score := by
  have hcapital : m'.initialCapital = m.initialCapital := congrArg (·.initialCapital) hm
  have hsharpe : computeDailyEquityReturns events' m'.initialCapital =
      computeDailyEquityReturns events m.initialCapital := by
    rw [hcapital, computeDailyEquityReturns, computeDailyEquityReturns, h.closedByTime_eq]
  have hunmarked : ∀ (m : OutcomeMetrics) sharpe, strategyScore m sharpe =
    strategyScore { m with mtm := none } sharpe := fun _ _ => rfl
  simp only [OutcomeMetrics.scored]
  rw [hsharpe, hunmarked m', hm, ← hunmarked]

end Metrics

/-! ## The two runs of a job -/

namespace ValidationJob

variable (job : ValidationJob) (env : JobEnvironment)

/-- The run of a job up to its metrics. -/
def upToMetrics (emitAll : Bool) : Except PyError (List CycleResult × PlatformRuntime) := do
  let (provider, start, endTime) ← job.loadData env
  drive (job.harness env provider start endTime) (job.setup env emitAll start).start

/-- What a job reports of the run it has made. -/
def report (emitAll : Bool) (cycles : List CycleResult) (rt : PlatformRuntime) :
    Except PyError (JobResult × PlatformRuntime) := do
  let events := logged emitAll rt.published
  let metrics ←
    computeOutcomeMetrics events job.initialCapital (some rt.stateStore.portfolio.equity)
  return ({
    events
    cycles := if job.persistDb then cycles else []
    outcome := metrics.scored env.sqrt events }, rt)

theorem runEmitting_eq (emitAll : Bool) : job.runEmitting env emitAll =
    (job.upToMetrics env emitAll).bind fun (cycles, rt) => job.report env emitAll cycles rt := by
  unfold runEmitting upToMetrics report
  exact (bind_assoc ..).symm

variable {job env} {ρ : Renaming} {cycles : List CycleResult} {rt rt' : PlatformRuntime}

theorem sameRuntime_start (start : ℤ) :
    SameRuntime .empty (job.setup env false start).start (job.setup env true start).start where
  decisionEngine := rfl
  persistFeatures := rfl
  stateStore := ⟨.nil⟩
  clock := rfl
  published := .nil
  signalsDay := rfl
  uuid := Renaming.below_empty
  executionEngine := .some ⟨rfl, rfl, rfl, fun h => h.elim, .nil⟩

theorem lockstep_drive {h : ValidationHarness} (hrt : SameRuntime ρ rt rt') :
    Except.Rel (ValidationHarness.SameEnd ρ) (drive h rt) (drive h rt') := by
  have hfresh : SameRuntime ρ { rt with published := [] } { rt' with published := [] } :=
    { hrt with published := .nil }
  refine (Except.Rel.refl _).bind fun times _ htimes => ?_
  obtain rfl := htimes
  refine (ValidationHarness.lockstep_runBars hfresh).bind ?_
  rintro ⟨cycles, rt⟩ ⟨cycles', rt'⟩ ⟨σ, hle, hend⟩
  refine (PlatformRuntime.lockstep_liquidateOpenPositions hend).bind ?_
  rintro rt rt' ⟨τ, hle', hend⟩
  exact .ok ⟨τ, hle.trans hle', hend⟩

variable (job env) in
theorem lockstep_upToMetrics : Except.Rel (ValidationHarness.SameEnd .empty)
    (job.upToMetrics env false) (job.upToMetrics env true) := by
  refine (Except.Rel.refl _).bind fun loaded _ hloaded => ?_
  obtain rfl := hloaded
  exact lockstep_drive (sameRuntime_start loaded.2.1)

/-- A run that emits every event has published a candle. -/
theorem hasCandle_upToMetrics (hrun : job.upToMetrics env true = .ok (cycles, rt)) :
    ValidationHarness.HasCandle rt := by
  obtain ⟨⟨provider, start, endTime⟩, _, hrun⟩ := Except.bind_eq_ok.mp hrun
  obtain ⟨times, htimes, hrun⟩ := Except.bind_eq_ok.mp hrun
  obtain ⟨⟨cycles', rt₁⟩, hbars, hrun⟩ := Except.bind_eq_ok.mp hrun
  obtain ⟨rt₂, hliquidate, hrun⟩ := Except.bind_eq_ok.mp hrun
  cases hrun
  have hemit : (job.setup env true start).emitEvents = true := rfl
  obtain ⟨_, _, hcandle⟩ := ValidationHarness.drive_followed hemit htimes hbars hliquidate
  exact hcandle

/-- Without candles nothing is marked to market. -/
theorem markedOutcome_quiet (events : List EventEnvelope) (initialCapital : ℚ) :
    markedOutcome (logged false events) initialCapital = .ok none := by
  have hnone : ¬ (((logged false events).filter (·.eventType ∈ markedTypes)).insertionSort
      fun a b => a.eventTime ≤ b.eventTime).any (·.eventType = .candleReceived) := by
    rw [List.any_eq_true]
    rintro ⟨e, he, htype⟩
    rw [List.mem_insertionSort] at he
    have hfamily := (List.mem_filter.mp (List.mem_filter.mp he).1).2
    simp [EventEnvelope.eventFamily, of_decide_eq_true htype, EventType.family] at hfamily
  unfold markedOutcome computeMarkToMarketSeries
  simp only [hnone]
  rfl

/-- With candles the marked curve is there, and its return divides by the initial capital. -/
theorem markedOutcome_candles {events : List EventEnvelope} (initialCapital : ℚ)
    (hcandle : ∃ e ∈ events, e.eventType = .candleReceived) :
    (initialCapital = 0 ∧ markedOutcome events initialCapital = .error .zeroDivisionError) ∨
    initialCapital ≠ 0 ∧ ∃ mtm, markedOutcome events initialCapital = .ok mtm := by
  obtain ⟨e, he, htype⟩ := hcandle
  have hany : ((events.filter (·.eventType ∈ markedTypes)).insertionSort
      fun a b => a.eventTime ≤ b.eventTime).any (·.eventType = .candleReceived) := by
    refine List.any_eq_true.mpr ⟨e, ?_, decide_eq_true htype⟩
    rw [List.mem_insertionSort]
    exact List.mem_filter.mpr ⟨he, by simp [htype, markedTypes]⟩
  obtain ⟨rest, hcurve⟩ : ∃ rest, (computeMarkToMarketSeries events initialCapital).1 =
      initialCapital :: rest := by
    unfold computeMarkToMarketSeries
    simp only [hany, not_true, if_false]
    exact ⟨_, rfl⟩
  obtain ⟨last, hlast⟩ : ∃ last,
      (computeMarkToMarketSeries events initialCapital).1.getLast? = some last := by
    rw [hcurve]
    exact ⟨_, List.getLast?_cons⟩
  by_cases hcapital : initialCapital = 0
  · refine .inl ⟨hcapital, ?_⟩
    unfold markedOutcome
    simp only [hlast, if_pos hcapital]
  · refine .inr ⟨hcapital, ?_⟩
    unfold markedOutcome
    simp only [hlast, if_neg hcapital]
    exact ⟨_, rfl⟩

theorem outcomeEvents_logged (emitAll : Bool) (events : List EventEnvelope) :
    outcomeEvents (logged emitAll events) = outcomeEvents events := by
  cases emitAll with
  | true => rfl
  | false =>
    have hlogged : logged false events = events.filter (·.eventFamily = .execution) := rfl
    rw [hlogged, outcomeEvents, outcomeEvents, List.filter_filter]
    refine List.filter_congr fun e _ => ?_
    by_cases hout : e.eventType ∈ scoreOutcomeTypes
    · have hfamily : e.eventFamily = .execution := by
        simp only [scoreOutcomeTypes, List.mem_cons, List.not_mem_nil, or_false] at hout
        rcases hout with h | h | h <;> simp [EventEnvelope.eventFamily, h, EventType.family]
      simp [hout, hfamily]
    · simp [hout]

theorem computeOutcomeMetrics_of_marked {events : List EventEnvelope} {initialCapital : ℚ}
    {mtm : Option MarkedOutcome} (equity : ℚ)
    (h : markedOutcome events initialCapital = .ok mtm) :
    ∃ m, computeOutcomeMetrics events initialCapital (some equity) = .ok m := by
  unfold computeOutcomeMetrics
  rw [h]
  exact ⟨_, rfl⟩

theorem computeOutcomeMetrics_of_error {events : List EventEnvelope} {initialCapital equity : ℚ}
    {e : PyError} (h : markedOutcome events initialCapital = .error e) :
    computeOutcomeMetrics events initialCapital (some equity) = .error e := by
  unfold computeOutcomeMetrics
  rw [h]
  rfl

/-- The runs have had the same outcome: up to the ids of the positions the same outcome events and
the same books at the end, and the same results. -/
structure SameOutcome (x y : JobResult × PlatformRuntime) : Prop where
  books : ∃ ρ, SameEvents ρ x.1.events y.1.events ∧ SameStore ρ x.2.stateStore y.2.stateStore
  totalTrades : y.1.outcome.totalTrades = x.1.outcome.totalTrades
  totalPnl : y.1.outcome.totalPnl = x.1.outcome.totalPnl
  returnPct : y.1.outcome.returnPct = x.1.outcome.returnPct
  score : y.1.outcome.score = x.1.outcome.score
  optimizationScore : y.1.outcome.optimizationScore = x.1.outcome.optimizationScore

/-- Where both metrics can be computed the two reports agree. -/
theorem sameOutcome_report {cycles' : List CycleResult} {x y : JobResult × PlatformRuntime}
    (hrt : SameRuntime ρ rt rt') (hx : job.report env false cycles rt = .ok x)
    (hy : job.report env true cycles' rt' = .ok y) : SameOutcome x y := by
  obtain ⟨m, hm, hx⟩ := Except.bind_eq_ok.mp hx
  obtain ⟨m', hm', hy⟩ := Except.bind_eq_ok.mp hy
  cases hx
  cases hy
  have hevents : SameEvents ρ (logged false rt.published) (logged true rt'.published) := by
    unfold SameEvents
    rw [outcomeEvents_logged, outcomeEvents_logged]
    exact hrt.published
  rw [hrt.stateStore.equity_eq] at hm'
  have hsame := hevents.metrics_eq hm hm'
  have hscore := hevents.score_eq env.sqrt hsame
  have htrades : m'.totalTrades = m.totalTrades := congrArg (·.totalTrades) hsame
  exact {
    books := ⟨ρ, hevents, hrt.stateStore⟩
    totalTrades := htrades
    totalPnl := congrArg (·.totalPnl) hsame
    returnPct := congrArg (·.returnPct) hsame
    score := hscore
    optimizationScore := congrArg₂ TradingPlatform.optimizationScore hscore htrades }

variable (job env cycles rt) in
theorem report_quiet : ∃ x, job.report env false cycles rt = .ok x := by
  obtain ⟨m, hm⟩ := computeOutcomeMetrics_of_marked rt.stateStore.portfolio.equity
    (markedOutcome_quiet rt.published job.initialCapital)
  unfold report
  dsimp only
  rw [hm]
  exact ⟨_, rfl⟩

variable (env cycles) in
/-- The metrics of the full stream can be computed unless there is no initial capital. -/
theorem report_candles (hcandle : ValidationHarness.HasCandle rt) :
    (job.initialCapital = 0 ∧ job.report env true cycles rt = .error .zeroDivisionError) ∨
    job.initialCapital ≠ 0 ∧ ∃ y, job.report env true cycles rt = .ok y := by
  rcases markedOutcome_candles job.initialCapital hcandle with ⟨hcapital, hmarked⟩ |
    ⟨hcapital, mtm, hmarked⟩
  · refine .inl ⟨hcapital, ?_⟩
    unfold report
    dsimp only
    have hlogged : markedOutcome (logged true rt.published) job.initialCapital = _ := hmarked
    rw [computeOutcomeMetrics_of_error hlogged]
    rfl
  · obtain ⟨m, hm⟩ := computeOutcomeMetrics_of_marked rt.stateStore.portfolio.equity
      hmarked
    refine .inr ⟨hcapital, ?_⟩
    unfold report
    dsimp only
    rw [show logged true rt.published = rt.published from rfl, hm]
    exact ⟨_, rfl⟩

variable (job env) in
/-- The run with the full event stream and the one with the outcome events only end the same, with
the same outcome or the same error, exactly when there is initial capital or the run does not get to
its metrics. -/
theorem sameOutcome_iff :
    Except.Rel SameOutcome (job.runEmitting env false) (job.runEmitting env true) ↔
      job.initialCapital ≠ 0 ∨ ∃ e, job.upToMetrics env false = .error e := by
  have hlockstep := lockstep_upToMetrics job env
  rw [runEmitting_eq, runEmitting_eq]
  cases hquiet : job.upToMetrics env false with
  | error e =>
    cases hfull : job.upToMetrics env true with
    | error e' =>
      rw [hquiet, hfull] at hlockstep
      cases hlockstep
      exact iff_of_true (.error e) (.inr ⟨e, rfl⟩)
    | ok y =>
      rw [hquiet, hfull] at hlockstep
      cases hlockstep
  | ok x =>
    cases hfull : job.upToMetrics env true with
    | error e =>
      rw [hquiet, hfull] at hlockstep
      cases hlockstep
    | ok y =>
      rw [hquiet, hfull] at hlockstep
      obtain ⟨cycles, rt⟩ := x
      obtain ⟨cycles', rt'⟩ := y
      obtain ⟨ρ, _, hend⟩ : ValidationHarness.SameEnd .empty (cycles, rt) (cycles', rt') := by
        cases hlockstep with
        | ok hend => exact hend
      obtain ⟨x, hx⟩ := report_quiet job env cycles rt
      change Except.Rel _ (job.report env false cycles rt) (job.report env true cycles' rt') ↔ _
      rcases report_candles env cycles' (hasCandle_upToMetrics hfull) with
        ⟨hcapital, herror⟩ | ⟨hcapital, y, hy⟩
      · rw [hx, herror]
        refine iff_of_false (fun h => nomatch h) ?_
        rintro (hne | ⟨e, he⟩)
        · exact hne hcapital
        · cases he
      · rw [hx, hy]
        exact iff_of_true (.ok (sameOutcome_report hend hx hy)) (.inl hcapital)

/-! ## A job without initial capital -/

/-- A job on flat bars that is given no capital. -/
def penniless : ValidationJob where
  symbol := "BTC/USDT"
  timeframe := "1d"
  startDate := 0
  source := .csv
  initialCapital := 0
  persistDb := false
  retainEvents := some true
  engineConfig := .solo
  collaborators _ := .serving (.flat 0 100) .buy

/-- The optimiser's run returns; the run that keeps its events divides by zero. -/
theorem penniless_runs : (penniless.runEmitting (.flat .close 1) false).isOk = true ∧
    (penniless.runEmitting (.flat .close 1) true).isOk = false := by decide +kernel

theorem not_sameOutcome_penniless :
    ¬ Except.Rel SameOutcome (penniless.runEmitting (.flat .close 1) false)
      (penniless.runEmitting (.flat .close 1) true) := by
  obtain ⟨hquiet, hfull⟩ := penniless_runs
  generalize penniless.runEmitting (.flat .close 1) false = x at hquiet ⊢
  generalize penniless.runEmitting (.flat .close 1) true = y at hfull ⊢
  intro h
  cases h with
  | error e => cases hquiet
  | ok _ => cases hfull

end ValidationJob

end TradingPlatform
