import TradingPlatform.Runtime.Collecting
import TradingPlatform.Validation.Cash
import TradingPlatform.Validation.Job

/-!
# What a job leaves behind

A job that raises has published the events of the cycles it completed all the same. Here the run of
the harness and the job that drives it keep, besides their outcome, the completed cycles, the events
published and the identifiers drawn. Where they return they agree with `run`.
-/

namespace TradingPlatform

open PlatformRuntime

namespace ValidationHarness

variable (h : ValidationHarness)

/-- The loop of `run` over the bars, with the cycles it completes and the runtime it leaves, also
when a cycle raises. -/
def runBarsKept : List (ℤ × ℕ) → PlatformRuntime →
    Except PyError Unit × List CycleResult × PlatformRuntime
  | [], rt => (.ok (), [], rt)
  | (barTime, i) :: rest, rt =>
    match (setClock barTime rt).runCycle (h.cycleCall i barTime) with
    | (.error e, rt) => (.error e, [], rt)
    | (.ok result, rt) =>
      let (outcome, cycles, rt) := runBarsKept rest rt
      (outcome, result :: cycles, rt)

/-- The run up to its metrics, with what it leaves when it raises. -/
def driveKept (rt : PlatformRuntime) :
    Except PyError Unit × List CycleResult × PlatformRuntime :=
  let rt := { rt with published := [] }
  match h.barTimes with
  | .error e => (.error e, [], rt)
  | .ok barTimes =>
    match h.runBarsKept barTimes.zipIdx rt with
    | (.error e, cycles, rt) => (.error e, cycles, rt)
    | (.ok (), cycles, rt) =>
      match rt.liquidateOpenPositions (h.liquidationCall (barTimes.getLastD 0)) with
      | .error e => (.error e, cycles, rt)
      | .ok rt => (.ok (), cycles, rt)

/-- The bars of a run with their places in it. -/
def bars : List (ℤ × ℕ) :=
  match h.barTimes with
  | .error _ => []
  | .ok barTimes => barTimes.zipIdx

/-- Where it returns, the loop returns what it keeps. -/
theorem runBars_eq (bars : List (ℤ × ℕ)) (rt : PlatformRuntime) :
    h.runBars bars rt = (h.runBarsKept bars rt).1.map fun _ => (h.runBarsKept bars rt).2 := by
  induction bars generalizing rt with
  | nil => rfl
  | cons b rest ih =>
    obtain ⟨barTime, i⟩ := b
    cases hcycle : (setClock barTime rt).runCycle (h.cycleCall i barTime) with
    | mk outcome rt₁ =>
    cases outcome with
    | error e =>
      simp only [runBars, runBarsKept, hcycle]
      rfl
    | ok result =>
      simp only [runBars, runBarsKept, hcycle, ih rt₁]
      cases (h.runBarsKept rest rt₁).1 <;> rfl

theorem drive_eq (rt : PlatformRuntime) :
    ValidationJob.drive h rt = (h.driveKept rt).1.map fun _ => (h.driveKept rt).2 := by
  unfold ValidationJob.drive driveKept
  cases hbars : h.barTimes with
  | error e => rfl
  | ok barTimes =>
    simp only [bind, Except.bind, runBars_eq]
    cases hrun : h.runBarsKept barTimes.zipIdx { rt with published := [] } with
    | mk outcome kept =>
    obtain ⟨cycles, rt₁⟩ := kept
    cases outcome with
    | error e => rfl
    | ok _ =>
      simp only [Except.map]
      cases rt₁.liquidateOpenPositions (h.liquidationCall (barTimes.getLastD 0)) <;> rfl

end ValidationHarness

/-! ## Jobs -/

/-- A run of a job: its outcome, the cycles it has completed, the events its bus has published and
the next identifier of the supply. -/
structure JobRun where
  outcome : Except PyError JobResult
  cycles : List CycleResult := []
  published : List EventEnvelope := []
  uuid : ℕ

namespace ValidationJob

variable (job : ValidationJob) (env : JobEnvironment)

/-- The result of a job whose harness has left `rt`. -/
def result (cycles : List CycleResult) (rt : PlatformRuntime) : Except PyError JobResult := do
  let events := logged job.emitAll rt.published
  let metrics ←
    computeOutcomeMetrics events job.initialCapital (some rt.stateStore.portfolio.equity)
  return {
    events
    cycles := if job.persistDb then cycles else []
    outcome := metrics.scored env.sqrt events }

/-- `run_validation_job` in a process whose identifiers go on from `uuid`. -/
def execute (uuid : ℕ) : JobRun :=
  match job.loadData env with
  | .error e => { outcome := .error e, uuid }
  | .ok (provider, start, endTime) =>
    let (outcome, cycles, rt) := (job.harness env provider start endTime).driveKept
      { (job.setup env job.emitAll start).start with uuid }
    { cycles
      outcome := outcome.bind fun _ => job.result env cycles rt
      published := rt.published
      uuid := rt.uuid }

/-- A job returns what `run_validation_job` returns. -/
theorem run_eq_execute : (job.run env).map Prod.fst = (job.execute env 0).outcome := by
  unfold run runEmitting execute
  cases hdata : job.loadData env with
  | error e => rfl
  | ok data =>
    obtain ⟨provider, start, endTime⟩ := data
    have hstart : { (job.setup env job.emitAll start).start with uuid := 0 } =
        (job.setup env job.emitAll start).start := rfl
    simp only [bind, Except.bind, ValidationHarness.drive_eq, hstart]
    cases (job.harness env provider start endTime).driveKept
        (job.setup env job.emitAll start).start with
    | mk outcome kept =>
    obtain ⟨cycles, rt⟩ := kept
    cases outcome with
    | error e => rfl
    | ok _ =>
      simp only [Except.map, result, bind, Except.bind]
      cases computeOutcomeMetrics (logged job.emitAll rt.published) job.initialCapital
        (some rt.stateStore.portfolio.equity) <;> rfl

/-- The bars a job drives the runtime over, with their places in the run. -/
def bars : List (ℤ × ℕ) :=
  match job.loadData env with
  | .error _ => []
  | .ok (provider, start, endTime) => (job.harness env provider start endTime).bars

end ValidationJob

/-! ## What a cycle of the run publishes -/

/-- The correlation id of the cycle on a bar. -/
def ValidationHarness.correlationText (isoformat : ℤ → String) (bar : ℤ × ℕ) : String :=
  "val_" ++ toString bar.2 ++ "_" ++ isoformat bar.1

/-- A text that begins with a letter is not empty, so the runtime takes it for the cycle. -/
theorem PlatformRuntime.cycleId_of_text {rt : PlatformRuntime} {call : CycleCall} {x : Char}
    {s : String} (h : call.correlationId = some s) (hx : s.toList.head? = some x) :
    rt.cycleId call = (.given s, rt) := by
  have hne : s ≠ "" := by
    rintro rfl
    cases hx
  unfold cycleId
  rw [h, Option.filter_some_pos (by simpa using hne)]

/-- What is known of the cycles completed on the bars, between two states of the supply of
identifiers: they are on the bars in order, and all that one of them publishes has its own
correlation id, with one reference to its own snapshot, a new one. -/
structure Completed (bars : List (ℤ × ℕ)) (isoformat : ℤ → String) (emitEvents : Bool) (u u' : ℕ)
    (cycles : List CycleResult) : Prop where
  length : cycles.length ≤ bars.length
  correlationIds : ∀ p ∈ bars.zip cycles,
    p.2.correlationId = .given (ValidationHarness.correlationText isoformat p.1)
  stamped : ∀ c ∈ cycles, ∀ e ∈ c.events, e.correlationId = c.correlationId
  made : ∀ c ∈ cycles, madeSnapshots c.events =
    if emitEvents then [c.snapshot.snapshotId] else []
  fresh : ∀ c ∈ cycles, u ≤ c.snapshot.snapshotId ∧ c.snapshot.snapshotId < u'
  uuid : u ≤ u'

theorem Completed.nil {bars : List (ℤ × ℕ)} {isoformat : ℤ → String} {emitEvents : Bool}
    {u u' : ℕ} (h : u ≤ u') : Completed bars isoformat emitEvents u u' [] :=
  ⟨Nat.zero_le _, by simp, by simp, by simp, by simp, h⟩

theorem Completed.drawn {bars : List (ℤ × ℕ)} {isoformat : ℤ → String} {emitEvents : Bool}
    {u u' u'' : ℕ} {cycles : List CycleResult}
    (h : Completed bars isoformat emitEvents u u' cycles) (hle : u' ≤ u'') :
    Completed bars isoformat emitEvents u u'' cycles where
  length := h.length
  correlationIds := h.correlationIds
  stamped := h.stamped
  made := h.made
  fresh c hc := ⟨(h.fresh c hc).1, (h.fresh c hc).2.trans_le hle⟩
  uuid := h.uuid.trans hle

/-- The events are those of a liquidation: none of them notes a decision. -/
def Closing (isoformat : ℤ → String) (events : List EventEnvelope) : Prop :=
  (∃ t, ∀ e ∈ events, e.correlationId = .given ("val_liquidate_" ++ isoformat t)) ∧
    madeSnapshots events = []

theorem Closing.nil {isoformat : ℤ → String} : Closing isoformat [] :=
  ⟨⟨0, fun _ he => absurd he List.not_mem_nil⟩, rfl⟩

namespace ValidationHarness

variable (h : ValidationHarness)

theorem runBarsKept_spec (bars : List (ℤ × ℕ)) (rt : PlatformRuntime) :
    let kept := h.runBarsKept bars rt
    Completed bars h.isoformat rt.emitEvents rt.uuid kept.2.2.uuid kept.2.1 ∧
      kept.2.2.emitEvents = rt.emitEvents ∧
      kept.2.2.published = rt.published ++ kept.2.1.flatMap (·.events) := by
  induction bars generalizing rt with
  | nil => exact ⟨.nil le_rfl, rfl, (List.append_nil _).symm⟩
  | cons b rest ih =>
    obtain ⟨barTime, i⟩ := b
    cases hcycle : (setClock barTime rt).runCycle (h.cycleCall i barTime) with
    | mk outcome rt₁ =>
    cases outcome with
    | error e =>
      have hsince := runCycle_raised hcycle
      simp only [runBarsKept, hcycle]
      exact ⟨.nil hsince.uuid, hsince.emitEvents,
        hsince.published.trans (List.append_nil _).symm⟩
    | ok result =>
      have hpub := runCycle_publishes hcycle
      have hid : result.correlationId = .given (correlationText h.isoformat (barTime, i)) := by
        rw [hpub.correlationId, cycleId_of_text (x := 'v') rfl]
        · rfl
        · simp
      obtain ⟨hrest, hemits, hpublished⟩ := ih rt₁
      have hemits₁ : rt₁.emitEvents = rt.emitEvents := hpub.emitEvents
      rw [hemits₁] at hrest hemits
      simp only [runBarsKept, hcycle]
      refine ⟨⟨Nat.succ_le_succ hrest.length, ?_, ?_, ?_, ?_, ?_⟩, hemits, ?_⟩
      · rw [List.zip_cons_cons]
        exact List.forall_mem_cons.mpr ⟨hid, hrest.correlationIds⟩
      · exact List.forall_mem_cons.mpr ⟨hpub.stamped, hrest.stamped⟩
      · exact List.forall_mem_cons.mpr ⟨hpub.made, hrest.made⟩
      · refine List.forall_mem_cons.mpr
          ⟨⟨hpub.fresh, hpub.drawn.trans_le hrest.uuid⟩, fun c hc => ?_⟩
        obtain ⟨hfresh, hdrawn⟩ := hrest.fresh c hc
        exact ⟨(hpub.fresh.trans hpub.drawn.le).trans hfresh, hdrawn⟩
      · exact (hpub.fresh.trans hpub.drawn.le).trans hrest.uuid
      · rw [hpublished, hpub.published, List.flatMap_cons, List.append_assoc]
        rfl

/-- The liquidation publishes the events of a liquidation. -/
theorem liquidation_published {rt rt' : PlatformRuntime} {lastBarTime : ℤ}
    (hrun : rt.liquidateOpenPositions (h.liquidationCall lastBarTime) = .ok rt') :
    rt.uuid ≤ rt'.uuid ∧
      ∃ closing, Closing h.isoformat closing ∧ rt'.published = rt.published ++ closing := by
  rcases liquidateOpenPositions_ok hrun with ⟨rfl, _⟩ | ⟨engine, bar, c, _, _, _, hid, rfl⟩
  · exact ⟨le_rfl, [], .nil, (List.append_nil _).symm⟩
  · let pass := SimulatedExecutionEngine.closeAll bar.close c engine
      rt.stateStore.portfolio.openPositions (rt.uuid + 1)
    let drawn : PlatformRuntime := { rt with uuid := pass.2, executionEngine := some pass.1.engine }
    have hle : rt.uuid ≤ pass.2 :=
      (Nat.le_add_right _ 1).trans (SimulatedExecutionEngine.le_closeAll_uuid _)
    have hofCall : OfCall c pass.1.events := SimulatedExecutionEngine.ofCall_closeAll _
    refine ⟨hle.trans (applied_applyTransitions drawn pass.1.transitions).uuid, pass.1.events,
      ⟨⟨lastBarTime, fun e he => (hofCall e he).correlationId.trans hid⟩,
        madeSnapshots_ofCall hofCall⟩, ?_⟩
    exact congrArg (· ++ pass.1.events) (published_applyTransitions drawn pass.1.transitions).1

/-- A run leaves the events of the cycles it has completed and of its liquidation. -/
theorem driveKept_spec (rt : PlatformRuntime) :
    let kept := h.driveKept rt
    Completed h.bars h.isoformat rt.emitEvents rt.uuid kept.2.2.uuid kept.2.1 ∧
      ∃ closing, Closing h.isoformat closing ∧
        kept.2.2.published = kept.2.1.flatMap (·.events) ++ closing := by
  unfold driveKept bars
  cases hbars : h.barTimes with
  | error e => exact ⟨.nil le_rfl, [], .nil, rfl⟩
  | ok barTimes =>
  obtain ⟨hcompleted, _, hpublished⟩ :=
    h.runBarsKept_spec barTimes.zipIdx { rt with published := [] }
  dsimp only
  cases hrun : h.runBarsKept barTimes.zipIdx { rt with published := [] } with
  | mk outcome kept =>
  obtain ⟨cycles, rt₁⟩ := kept
  rw [hrun] at hcompleted hpublished
  have hopen : rt₁.published = cycles.flatMap (·.events) ++ [] :=
    hpublished.trans (List.append_nil _).symm
  cases outcome with
  | error e => exact ⟨hcompleted, [], .nil, hopen⟩
  | ok _ =>
    dsimp only
    cases hliquidate : rt₁.liquidateOpenPositions (h.liquidationCall (barTimes.getLastD 0)) with
    | error e => exact ⟨hcompleted, [], .nil, hopen⟩
    | ok rt₂ =>
      obtain ⟨hle, closing, hclosing, hclosed⟩ := h.liquidation_published hliquidate
      refine ⟨hcompleted.drawn hle, closing, hclosing, ?_⟩
      exact hclosed.trans (congrArg (· ++ closing) hpublished)

end ValidationHarness

namespace ValidationJob

variable (job : ValidationJob) (env : JobEnvironment)

theorem result_ok {cycles : List CycleResult} {rt : PlatformRuntime} {result : JobResult}
    (h : job.result env cycles rt = .ok result) :
    result.cycles = if job.persistDb then cycles else [] := by
  obtain ⟨metrics, _, h⟩ := Except.bind_eq_ok.mp h
  cases h
  rfl

/-- What a job leaves: its cycles are on its bars in order, it has published their events and those
of the liquidation, and it returns the cycles unless it runs without the database. -/
structure Leaves (uuid : ℕ) (run : JobRun) : Prop where
  completed : Completed (job.bars env) Calendar.isoformat job.emitAll uuid run.uuid run.cycles
  published : ∃ closing, Closing Calendar.isoformat closing ∧
    run.published = run.cycles.flatMap (·.events) ++ closing
  returned : ∀ result, run.outcome = .ok result →
    result.cycles = if job.persistDb then run.cycles else []

theorem leaves_execute (uuid : ℕ) : job.Leaves env uuid (job.execute env uuid) := by
  unfold execute
  cases hdata : job.loadData env with
  | error e => exact ⟨.nil le_rfl, ⟨[], .nil, rfl⟩, fun _ h => nomatch h⟩
  | ok data =>
  obtain ⟨provider, start, endTime⟩ := data
  let h := job.harness env provider start endTime
  let rt : PlatformRuntime := { (job.setup env job.emitAll start).start with uuid }
  have hbars : job.bars env = h.bars := by simp only [bars, hdata, h]
  obtain ⟨hcompleted, hpublished⟩ := h.driveKept_spec rt
  refine ⟨hbars ▸ hcompleted, hpublished, fun result hresult => ?_⟩
  obtain ⟨_, _, hresult⟩ := Except.bind_eq_ok.mp hresult
  exact job.result_ok env hresult

end ValidationJob

end TradingPlatform
