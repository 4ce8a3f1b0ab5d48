import TradingPlatform.Lib.Dict
import TradingPlatform.Runtime.LiveStack
import TradingPlatform.Validation.JobRun

/-!
# Histories of one database

Validation jobs and the cycles of live and paper stacks write to one event log. An event carries the
correlation id of its cycle, a decision the id of its snapshot; the snapshots are rows of their own,
which only the end of a validation job writes. A history is a list of operations, each of them a
job, a live stack that is built, or a cycle on one of the stacks built so far. All of them draw
their identifiers from one supply.

`recorded` is a history variable: the cycles whose events have been written. No function reads it.
-/

namespace TradingPlatform

/-! ## The database -/

/-- The tables that a replay reads. -/
structure Database where
  eventLog : List EventEnvelope := []
  stateSnapshots : Dict ℕ StateSnapshot := ∅

namespace Database

/-- `DatabaseEventHandler.handle`, for one event after another. -/
def handle (db : Database) (events : List EventEnvelope) : Database :=
  { db with eventLog := db.eventLog ++ events }

/-- The row of `persist_validation_result` for the snapshot of a cycle, unless there is one. -/
def persistSnapshot (db : Database) (cycle : CycleResult) : Database :=
  match db.stateSnapshots.get? cycle.snapshot.snapshotId with
  | some _ => db
  | none =>
    let row := { cycle.snapshot with correlationId := some cycle.correlationId }
    { db with stateSnapshots := db.stateSnapshots.set cycle.snapshot.snapshotId row }

/-- What `persist_validation_result` writes for the cycles of a run. -/
def persistCycles (db : Database) (cycles : List CycleResult) : Database :=
  cycles.foldl persistSnapshot db

/-- What a job that persists its stream leaves in the database. -/
def persistJob (db : Database) (run : JobRun) : Database :=
  match run.outcome with
  | .ok result => (db.handle run.published).persistCycles result.cycles
  | .error _ => db.handle run.published

/-- `fetch_events_by_correlation`. The query orders by the time of the event only, and rows of one
time come in the order in which the database scans them. -/
def fetchEventsByCorrelation (db : Database) (scan : EventEnvelope → ℕ)
    (correlationId : CorrelationId) : List EventEnvelope :=
  (db.eventLog.filter (·.correlationId = correlationId)).insertionSort
    fun a b => toLex (a.eventTime, scan a) ≤ toLex (b.eventTime, scan b)

end Database

/-! ## Live cycles -/

/-- Who runs a live cycle: `LiveRuntimeManager.run_cycle` or `run_live_cycle`. -/
inductive LiveEntry
  | manager
  | direct
  deriving DecidableEq

/-- `symbol.replace("/", "")` -/
def withoutSlashes (symbol : String) : String :=
  String.ofList (symbol.toList.filter (· ≠ '/'))

/-- The part of a live correlation id that names the market. -/
def marketLabel (symbol timeframe : String) : String := withoutSlashes symbol ++ "_" ++ timeframe

namespace LiveEntry

/-- The text of the time in a live correlation id. -/
def timeText : LiveEntry → ℤ → String
  | manager, now => Calendar.stamp now
  | direct, now => Calendar.isoformat now

/-- The correlation id of a live cycle that starts at `now`. -/
def correlationText (entry : LiveEntry) (label : String) (now : ℤ) : String :=
  "live_" ++ label ++ "_" ++ entry.timeText now

/-- The call of `run_cycle`: only the manager passes a revision and an experiment. -/
def call (entry : LiveEntry) (live : LiveCall) (now : ℤ) : CycleCall :=
  let correlationId := some (entry.correlationText (marketLabel live.symbol live.timeframe) now)
  match entry with
  | manager => { live.toCall with correlationId }
  | direct => { live.toCall with correlationId, revisionId := none, experimentId := none }

end LiveEntry

/-- A stack of `build_live_stack`; with `persist_db` a `DatabaseEventHandler` is on its bus. -/
structure LiveStack where
  runtime : PlatformRuntime
  persistDb : Bool

/-! ## Operations -/

/-- What tells a written cycle from others: of a validation cycle its place in the run and the time
of its bar, of a live cycle its market and the second, or the instant, at which it has started. -/
inductive CycleKey
  | bar (index : ℕ) (barTime : ℤ)
  | second (label : String) (second : ℤ)
  | instant (label : String) (instant : ℤ)
  deriving DecidableEq

def LiveEntry.key (label : String) (now : ℤ) : LiveEntry → CycleKey
  | manager => .second label (now / 1000000)
  | direct => .instant label now

structure RecordedCycle where
  key : CycleKey
  cycle : CycleResult

/-- The cycles of a job with their keys. -/
def ValidationJob.recordedCycles (job : ValidationJob) (env : JobEnvironment) (run : JobRun) :
    List RecordedCycle :=
  ((job.bars env).zip run.cycles).map fun (bar, cycle) => ⟨.bar bar.2 bar.1, cycle⟩

inductive Operation
  | validate (job : ValidationJob) (env : JobEnvironment)
  | build (mode : Mode) (persistDb : Bool) (decisionEngine : EngineConfig) (fillModel : FillModel)
      (config : ValidationExecutionConfig) (now : ℤ)
  | live (stack : ℕ) (entry : LiveEntry) (call : LiveCall) (now : ℤ)

/-- A database with the live stacks that have been built. -/
structure Deployment where
  database : Database := {}
  liveStacks : List LiveStack := []
  uuid : ℕ := 0
  recorded : List RecordedCycle := []

namespace Deployment

/-- `run_validation_job`: the handler and the snapshots are there for a persisted stream only. -/
def validate (d : Deployment) (job : ValidationJob) (env : JobEnvironment) : Deployment :=
  let run := job.execute env d.uuid
  if job.persistsStream then
    { d with
      uuid := run.uuid
      database := d.database.persistJob run
      recorded := d.recorded ++ job.recordedCycles env run }
  else { d with uuid := run.uuid }

/-- The cycle on a stack, and the runtime it leaves. -/
def runLive (d : Deployment) (stack : LiveStack) (entry : LiveEntry) (call : LiveCall) (now : ℤ) :
    Except PyError CycleResult × PlatformRuntime :=
  { stack.runtime with uuid := d.uuid }.runCycle (entry.call call now)

/-- A cycle on the stack `k`, if there is one. -/
def live (d : Deployment) (k : ℕ) (entry : LiveEntry) (call : LiveCall) (now : ℤ) : Deployment :=
  match d.liveStacks[k]? with
  | none => d
  | some stack =>
    let (outcome, rt) := d.runLive stack entry call now
    let d := { d with
      uuid := rt.uuid, liveStacks := d.liveStacks.set k { stack with runtime := rt } }
    match outcome, stack.persistDb with
    | .ok cycle, true =>
      { d with
        database := d.database.handle cycle.events
        recorded := d.recorded ++
          [⟨entry.key (marketLabel call.symbol call.timeframe) now, cycle⟩] }
    | _, _ => d

def step (d : Deployment) : Operation → Deployment
  | .validate job env => d.validate job env
  | .build mode persistDb decisionEngine fillModel config now =>
    let runtime := (buildLiveStack mode decisionEngine fillModel config now).start
    { d with liveStacks := d.liveStacks ++ [{ runtime, persistDb }] }
  | .live k entry call now => d.live k entry call now

/-- A job takes the supply on and leaves the live stacks alone. -/
theorem validate_supply (d : Deployment) (job : ValidationJob) (env : JobEnvironment) :
    (d.validate job env).uuid = (job.execute env d.uuid).uuid ∧
      (d.validate job env).liveStacks = d.liveStacks := by
  unfold validate
  dsimp only
  split
  · exact ⟨rfl, rfl⟩
  · exact ⟨rfl, rfl⟩

/-! ## What a live cycle can do -/

/-- The operation is a live or paper cycle that returns on a stack with the database. -/
def RecordsLive (d : Deployment) : Operation → Prop
  | .live k entry call now => ∃ stack cycle rt, d.liveStacks[k]? = some stack ∧
      stack.persistDb = true ∧ d.runLive stack entry call now = (.ok cycle, rt)
  | _ => False

variable {d : Deployment} {k : ℕ} {stack : LiveStack} {entry : LiveEntry} {call : LiveCall}
  {now : ℤ} {cycle : CycleResult} {rt : PlatformRuntime}

theorem live_of_none (h : d.liveStacks[k]? = none) : d.live k entry call now = d := by
  simp only [live, h]

/-- The cycle takes the supply on and leaves its runtime to the stack. -/
theorem live_of_some (entry : LiveEntry) (call : LiveCall) (now : ℤ)
    (h : d.liveStacks[k]? = some stack) :
    (d.live k entry call now).uuid = (d.runLive stack entry call now).2.uuid ∧
      (d.live k entry call now).liveStacks = d.liveStacks.set k
        { stack with runtime := (d.runLive stack entry call now).2 } := by
  cases hrun : d.runLive stack entry call now with
  | mk outcome rt =>
  simp only [live, h, hrun]
  split
  · exact ⟨rfl, rfl⟩
  · exact ⟨rfl, rfl⟩

/-- A live cycle that returns on a stack with the database is recorded. -/
theorem live_of_recorded (h : d.liveStacks[k]? = some stack) (hpersist : stack.persistDb = true)
    (hrun : d.runLive stack entry call now = (.ok cycle, rt)) :
    (d.live k entry call now).database = d.database.handle cycle.events ∧
      (d.live k entry call now).recorded = d.recorded ++
        [⟨entry.key (marketLabel call.symbol call.timeframe) now, cycle⟩] := by
  simp only [live, h, hrun, hpersist, and_self]

/-- A live cycle that raises, or that returns on a stack without the database, writes nothing. -/
theorem live_of_unrecorded (hrecord : ¬ d.RecordsLive (.live k entry call now)) :
    (d.live k entry call now).database = d.database ∧
      (d.live k entry call now).recorded = d.recorded := by
  cases hstack : d.liveStacks[k]? with
  | none =>
    rw [live_of_none hstack]
    exact ⟨rfl, rfl⟩
  | some stack =>
    cases hrun : d.runLive stack entry call now with
    | mk outcome rt =>
    simp only [live, hstack, hrun]
    split
    · next cycle hpersist => exact absurd ⟨stack, cycle, rt, hstack, hpersist, hrun⟩ hrecord
    · exact ⟨rfl, rfl⟩

/-- No live cycle writes a snapshot. -/
theorem stateSnapshots_live (d : Deployment) (k : ℕ) (entry : LiveEntry) (call : LiveCall)
    (now : ℤ) : (d.live k entry call now).database.stateSnapshots = d.database.stateSnapshots := by
  by_cases hrecord : d.RecordsLive (.live k entry call now)
  · obtain ⟨stack, cycle, rt, hstack, hpersist, hrun⟩ := hrecord
    rw [(live_of_recorded hstack hpersist hrun).1]
    rfl
  · rw [(live_of_unrecorded hrecord).1]

end Deployment

end TradingPlatform
