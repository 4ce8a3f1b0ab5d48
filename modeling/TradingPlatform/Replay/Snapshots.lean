import TradingPlatform.Replay.History
import TradingPlatform.Replay.Reexecutor

/-!
# The snapshots of the recorded decisions

A replay loads the snapshot that the `DECISION_MADE` event of a cycle refers to. A validation job
that returns has written the snapshot of every decision it has recorded. A live cycle writes none,
so the decision it records on a stack with the database can never be replayed.
-/

namespace TradingPlatform

/-! ## Rows of snapshots -/

namespace Database

variable {db : Database} {cycle : CycleResult} {cycles : List CycleResult} {k : ℕ}
  {row : StateSnapshot}

/-- Writing a snapshot keeps every row there is. -/
theorem get?_persistSnapshot (h : db.stateSnapshots.get? k = some row) :
    (db.persistSnapshot cycle).stateSnapshots.get? k = some row := by
  unfold persistSnapshot
  split
  · exact h
  · next hnone =>
    have hne : cycle.snapshot.snapshotId ≠ k := by
      rintro rfl
      rw [hnone] at h
      cases h
    exact (Dict.get?_set_of_ne hne).trans h

theorem get?_persistCycles (cycles : List CycleResult) (h : db.stateSnapshots.get? k = some row) :
    (db.persistCycles cycles).stateSnapshots.get? k = some row := by
  induction cycles generalizing db with
  | nil => exact h
  | cons cycle cycles ih => exact ih (get?_persistSnapshot h)

theorem exists_row_persistSnapshot (db : Database) (cycle : CycleResult) :
    ∃ row, (db.persistSnapshot cycle).stateSnapshots.get? cycle.snapshot.snapshotId = some row := by
  unfold persistSnapshot
  split
  · next row hrow => exact ⟨row, hrow⟩
  · exact ⟨_, Dict.get?_set_self⟩

/-- The snapshot of every cycle of the run has a row. -/
theorem exists_row_persistCycles (h : cycle ∈ cycles) :
    ∃ row, (db.persistCycles cycles).stateSnapshots.get? cycle.snapshot.snapshotId = some row := by
  induction cycles generalizing db with
  | nil => cases h
  | cons first cycles ih =>
    rcases List.mem_cons.mp h with rfl | h
    · obtain ⟨row, hrow⟩ := db.exists_row_persistSnapshot cycle
      have hkept := get?_persistCycles cycles hrow
      exact ⟨row, hkept⟩
    · exact ih h

/-- New rows are those of the cycles. -/
theorem mem_keys_persistCycles (h : k ∈ (db.persistCycles cycles).stateSnapshots.keys) :
    k ∈ db.stateSnapshots.keys ∨ ∃ cycle ∈ cycles, k = cycle.snapshot.snapshotId := by
  induction cycles generalizing db with
  | nil => exact .inl h
  | cons first cycles ih =>
    rcases ih h with h | ⟨cycle, hcycle, rfl⟩
    · unfold persistSnapshot at h
      split at h
      · exact .inl h
      · rcases Dict.mem_keys_set.mp h with rfl | h
        · exact .inr ⟨first, List.mem_cons_self, rfl⟩
        · exact .inl h
    · exact .inr ⟨cycle, List.mem_cons_of_mem _ hcycle, rfl⟩

theorem eventLog_persistCycles : (db.persistCycles cycles).eventLog = db.eventLog := by
  induction cycles generalizing db with
  | nil => rfl
  | cons cycle cycles ih =>
    refine ih.trans ?_
    unfold persistSnapshot
    split <;> rfl

end Database

namespace Deployment

variable {d : Deployment} {op : Operation}

/-! ## Decisions and their snapshots -/

/-- The operation returns. -/
def returns (d : Deployment) : Operation → Bool
  | .validate job env => (job.execute env d.uuid).outcome.isOk
  | .build .. => true
  | .live k entry call now =>
    match d.liveStacks[k]? with
    | none => true
    | some stack => (d.runLive stack entry call now).1.isOk

/-- The events that the operation adds to the log. -/
def newEvents (d : Deployment) (op : Operation) : List EventEnvelope :=
  (d.step op).database.eventLog.drop d.database.eventLog.length

/-- There is a row for the snapshot, so `_load_snapshot` loads it. -/
structure Loadable (d : Deployment) (snapshotId : ℕ) : Prop where
  stored : ∃ row, d.database.stateSnapshots.get? snapshotId = some row
  loads : ∀ {Drift : Type} (session : ReplaySession Drift),
    session.stateSnapshots = d.database.stateSnapshots →
      ∃ snapshot, session.loadSnapshot snapshotId = .ok snapshot

/-- Once the operation has returned, and whatever follows, the snapshot of every decision that it
has recorded can be loaded. -/
def Referenced (d : Deployment) (op : Operation) : Prop :=
  d.returns op = true → ∀ id ∈ madeSnapshots (d.newEvents op), ∀ later,
    (Run.exec step (d.step op) later).Loadable id

theorem loadable_iff {snapshotId : ℕ} : d.Loadable snapshotId ↔
    ∃ row, d.database.stateSnapshots.get? snapshotId = some row := by
  refine ⟨Loadable.stored, fun h => ⟨h, fun session hsession => ?_⟩⟩
  obtain ⟨row, hrow⟩ := h
  rw [← hsession] at hrow
  exact ⟨{ row with correlationId := none }, by simp only [ReplaySession.loadSnapshot, hrow]⟩

/-! ## What the operations write -/

/-- A job logs what it has published, whether it returns or not. -/
theorem eventLog_validate {job : ValidationJob} {env : JobEnvironment}
    (hpersist : job.persistsStream = true) :
    (d.validate job env).database.eventLog =
      d.database.eventLog ++ (job.execute env d.uuid).published := by
  simp only [validate, hpersist, if_true, Database.persistJob]
  cases (job.execute env d.uuid).outcome with
  | error e => rfl
  | ok result => exact Database.eventLog_persistCycles

theorem validate_of_not {job : ValidationJob} {env : JobEnvironment}
    (hpersist : job.persistsStream = false) :
    d.validate job env = { d with uuid := (job.execute env d.uuid).uuid } := by
  simp only [validate, hpersist, Bool.false_eq_true, if_false]

/-- A job that returns has written the snapshot of every cycle it has completed. -/
theorem exists_row_validate {job : ValidationJob} {env : JobEnvironment} {cycle : CycleResult}
    (hpersist : job.persistsStream = true)
    (hreturns : d.returns (.validate job env) = true)
    (hcycle : cycle ∈ (job.execute env d.uuid).cycles) :
    ∃ row, (d.validate job env).database.stateSnapshots.get? cycle.snapshot.snapshotId =
      some row := by
  have hleaves := job.leaves_execute env d.uuid
  simp only [returns] at hreturns
  cases houtcome : (job.execute env d.uuid).outcome with
  | error e =>
    rw [houtcome] at hreturns
    cases hreturns
  | ok result =>
    have hdb : job.persistDb = true := (Bool.and_eq_true_iff.mp hpersist).1
    have hcycles : result.cycles = (job.execute env d.uuid).cycles := by
      rw [hleaves.returned result houtcome, hdb, if_pos rfl]
    rw [← hcycles] at hcycle
    simp only [validate, hpersist, if_true, Database.persistJob, houtcome]
    exact Database.exists_row_persistCycles hcycle

/-- The new rows of a job are those of its cycles. -/
theorem mem_keys_validate {job : ValidationJob} {env : JobEnvironment} {k : ℕ}
    (h : k ∈ (d.validate job env).database.stateSnapshots.keys) :
    k ∈ d.database.stateSnapshots.keys ∨
      ∃ cycle ∈ (job.execute env d.uuid).cycles, k = cycle.snapshot.snapshotId := by
  cases hpersist : job.persistsStream with
  | false =>
    rw [validate_of_not hpersist] at h
    exact .inl h
  | true =>
    simp only [validate, hpersist, if_true, Database.persistJob] at h
    cases houtcome : (job.execute env d.uuid).outcome with
    | error e =>
      rw [houtcome] at h
      exact .inl h
    | ok result =>
      rw [houtcome] at h
      refine (Database.mem_keys_persistCycles h).imp_right ?_
      rintro ⟨cycle, hcycle, rfl⟩
      rw [(job.leaves_execute env d.uuid).returned result houtcome] at hcycle
      split at hcycle
      · exact ⟨cycle, hcycle, rfl⟩
      · cases hcycle

/-- The decisions a job notes are those of its cycles. -/
theorem mem_madeSnapshots_execute {job : ValidationJob} {env : JobEnvironment} {u id : ℕ}
    (h : id ∈ madeSnapshots (job.execute env u).published) :
    ∃ cycle ∈ (job.execute env u).cycles, id = cycle.snapshot.snapshotId := by
  obtain ⟨closing, ⟨_, hclosing⟩, hpublished⟩ := (job.leaves_execute env u).published
  rw [hpublished, madeSnapshots_append, hclosing, List.append_nil] at h
  obtain ⟨e, he, hid⟩ := List.mem_filterMap.mp h
  obtain ⟨cycle, hcycle, he⟩ := List.mem_flatMap.mp he
  have hmade : id ∈ madeSnapshots cycle.events := List.mem_filterMap.mpr ⟨e, he, hid⟩
  have hown := (job.leaves_execute env u).completed.made cycle hcycle
  exact ⟨cycle, hcycle, PlatformRuntime.eq_of_mem_madeSnapshots hown hmade⟩

/-! ## The invariant -/

/-- Every row has been drawn already, and every live stack emits its events. -/
structure Sound (d : Deployment) : Prop where
  rows : ∀ k ∈ d.database.stateSnapshots.keys, k < d.uuid
  emits : ∀ stack ∈ d.liveStacks, stack.runtime.emitEvents = true

/-- A live cycle draws from the common supply and leaves its stack emitting events. -/
theorem runLive_keeps (stack : LiveStack) (entry : LiveEntry) (call : LiveCall) (now : ℤ) :
    (d.runLive stack entry call now).2.emitEvents = stack.runtime.emitEvents ∧
      d.uuid ≤ (d.runLive stack entry call now).2.uuid := by
  cases hrun : d.runLive stack entry call now with
  | mk outcome rt =>
  cases outcome with
  | error e =>
    have hsince := PlatformRuntime.runCycle_raised hrun
    exact ⟨hsince.emitEvents, hsince.uuid⟩
  | ok cycle =>
    have hpub := PlatformRuntime.runCycle_publishes hrun
    exact ⟨hpub.emitEvents, hpub.fresh.trans hpub.drawn.le⟩

theorem sound_init : Sound {} := ⟨fun _ hk => absurd hk List.not_mem_nil, fun _ h => nomatch h⟩

/-- A live cycle draws from the supply, and its stack goes on emitting events. -/
theorem Sound.supply_live (h : Sound d) (k : ℕ) (entry : LiveEntry) (call : LiveCall) (now : ℤ) :
    d.uuid ≤ (d.live k entry call now).uuid ∧
      ∀ stack ∈ (d.live k entry call now).liveStacks, stack.runtime.emitEvents = true := by
  cases hstack : d.liveStacks[k]? with
  | none =>
    rw [live_of_none hstack]
    exact ⟨le_rfl, h.emits⟩
  | some stack =>
    obtain ⟨huuid, hstacks⟩ := live_of_some entry call now hstack
    obtain ⟨hemits, hle⟩ := d.runLive_keeps stack entry call now
    rw [huuid, hstacks]
    refine ⟨hle, fun s hs => ?_⟩
    rcases List.mem_or_eq_of_mem_set hs with hs | rfl
    · exact h.emits s hs
    · exact hemits.trans (h.emits stack (List.mem_of_getElem? hstack))

theorem Sound.step (h : Sound d) (op : Operation) : Sound (d.step op) := by
  cases op with
  | validate job env =>
    have hcompleted := (job.leaves_execute env d.uuid).completed
    obtain ⟨huuid, hstacks⟩ := d.validate_supply job env
    change Sound (d.validate job env)
    refine ⟨fun k hk => ?_, fun stack hstack => h.emits stack (hstacks ▸ hstack)⟩
    rw [huuid]
    rcases mem_keys_validate hk with hk | ⟨cycle, hcycle, rfl⟩
    · exact (h.rows k hk).trans_le hcompleted.uuid
    · exact (hcompleted.fresh cycle hcycle).2
  | build mode persistDb decisionEngine fillModel config now =>
    refine ⟨h.rows, fun stack hstack => ?_⟩
    rcases List.mem_append.mp hstack with hstack | hstack
    · exact h.emits stack hstack
    · rw [List.mem_singleton.mp hstack]
      rfl
  | live k entry call now =>
    have hrows := d.stateSnapshots_live k entry call now
    obtain ⟨hle, hstacks⟩ := h.supply_live k entry call now
    exact ⟨fun id hid => (h.rows id (hrows ▸ hid)).trans_le hle, hstacks⟩

/-! ## Rows are kept -/

theorem get?_step {k : ℕ} {row : StateSnapshot}
    (h : d.database.stateSnapshots.get? k = some row) (op : Operation) :
    (d.step op).database.stateSnapshots.get? k = some row := by
  cases op with
  | validate job env =>
    change (d.validate job env).database.stateSnapshots.get? k = some row
    cases hpersist : job.persistsStream with
    | false =>
      rw [validate_of_not hpersist]
      exact h
    | true =>
      simp only [validate, hpersist, if_true, Database.persistJob]
      cases (job.execute env d.uuid).outcome with
      | error e => exact h
      | ok result => exact Database.get?_persistCycles _ h
  | build => exact h
  | live k entry call now =>
    change (d.live k entry call now).database.stateSnapshots.get? _ = some row
    rw [stateSnapshots_live]
    exact h

/-- A row that has been written is there ever after. -/
theorem get?_exec {k : ℕ} {row : StateSnapshot} (later : List Operation)
    (h : d.database.stateSnapshots.get? k = some row) :
    (Run.exec step d later).database.stateSnapshots.get? k = some row := by
  induction later generalizing d with
  | nil => exact h
  | cons op later ih => exact ih (get?_step h op)

/-! ## Which operations keep the reference -/

theorem referenced_of_rows (h : d.returns op = true → ∀ id ∈ madeSnapshots (d.newEvents op),
    ∃ row, (d.step op).database.stateSnapshots.get? id = some row) : d.Referenced op := by
  intro hreturns id hid later
  obtain ⟨row, hrow⟩ := h hreturns id hid
  exact loadable_iff.mpr ⟨row, get?_exec later hrow⟩

theorem referenced_of_no_events (h : d.newEvents op = []) : d.Referenced op := by
  refine referenced_of_rows fun _ id hid => ?_
  rw [h] at hid
  cases hid

theorem referenced_validate (job : ValidationJob) (env : JobEnvironment) :
    d.Referenced (.validate job env) := by
  have hstep : d.step (.validate job env) = d.validate job env := rfl
  cases hpersist : job.persistsStream with
  | false =>
    refine referenced_of_no_events ?_
    rw [newEvents, hstep, validate_of_not hpersist]
    exact List.drop_length
  | true =>
    refine referenced_of_rows fun hreturns id hid => ?_
    rw [newEvents, hstep, eventLog_validate hpersist, List.drop_left] at hid
    obtain ⟨cycle, hcycle, rfl⟩ := mem_madeSnapshots_execute hid
    exact exists_row_validate hpersist hreturns hcycle

/-- A live cycle with the database notes a decision on a snapshot that no table has. -/
theorem Sound.not_referenced_live (h : Sound d) {k : ℕ} {entry : LiveEntry} {call : LiveCall}
    {now : ℤ} (hrecord : d.RecordsLive (.live k entry call now)) :
    ¬ d.Referenced (.live k entry call now) := by
  obtain ⟨stack, cycle, rt, hstack, hpersist, hrun⟩ := hrecord
  have hpub := PlatformRuntime.runCycle_publishes hrun
  have hemits : stack.runtime.emitEvents = true := h.emits stack (List.mem_of_getElem? hstack)
  have hstep : d.step (.live k entry call now) = d.live k entry call now := rfl
  have hreturns : d.returns (.live k entry call now) = true := by
    simp only [returns, hstack, hrun]
    rfl
  have hmade :
      cycle.snapshot.snapshotId ∈ madeSnapshots (d.newEvents (.live k entry call now)) := by
    rw [newEvents, hstep, (live_of_recorded hstack hpersist hrun).1]
    change _ ∈ madeSnapshots ((d.database.eventLog ++ cycle.events).drop d.database.eventLog.length)
    rw [List.drop_left, hpub.made]
    change _ ∈ if stack.runtime.emitEvents then _ else _
    rw [hemits, if_pos rfl]
    exact List.mem_singleton_self _
  intro href
  obtain ⟨row, hrow⟩ := (href hreturns _ hmade []).stored
  rw [Run.exec_nil, hstep, stateSnapshots_live] at hrow
  have hkey : cycle.snapshot.snapshotId ∈ d.database.stateSnapshots.keys := by
    refine Dict.mem_keys_iff.mpr fun hnone => ?_
    cases hnone.symm.trans hrow
  exact absurd (h.rows _ hkey) (not_lt.mpr hpub.fresh)

theorem Sound.referenced_iff (h : Sound d) : d.Referenced op ↔ ¬ d.RecordsLive op := by
  cases op with
  | validate job env => exact iff_of_true (referenced_validate job env) id
  | build =>
    exact iff_of_true (referenced_of_no_events (List.drop_length)) id
  | live k entry call now =>
    refine ⟨fun href hrecord => h.not_referenced_live hrecord href, fun hrecord => ?_⟩
    refine referenced_of_no_events ?_
    have hstep : d.step (.live k entry call now) = d.live k entry call now := rfl
    rw [newEvents, hstep, (live_of_unrecorded hrecord).1]
    exact List.drop_length

/-- In a history the decisions of every operation can be replayed exactly when no live or paper
cycle returns on a stack with the database. -/
theorem along_referenced_iff (ops : List Operation) :
    Run.Along step Referenced {} ops ↔ Run.Along step (fun d op => ¬ d.RecordsLive op) {} ops :=
  Run.along_iff (fun _ op h _ _ => h.step op) (fun _ _ h _ => h.referenced_iff) sound_init
    Run.along_true

end Deployment

/-! ## A paper cycle -/

/-- The collaborators with a feature store that keeps the context it is given. -/
def Collaborators.storing (collaborators : Collaborators) (symbol timeframe : String) (now : ℤ) :
    Collaborators :=
  { collaborators with
    storedContext := fun _ =>
      (collaborators.build [] symbol timeframe now).map fun built => some built.2 }

namespace Deployment

/-- A call at `now` for the hourly bars of BTC. -/
def storingCall (hours : List ℤ) (now : ℤ) : LiveCall :=
  let live := PlatformRuntime.hourlyCall hours now
  { live with collaborators := live.collaborators.storing live.symbol live.timeframe now }

/-- A paper stack with the database, built and left by no cycle yet. -/
def paperStack : Operation :=
  .build .paper true .solo { modelId := "no_cost", fillAt := .close } .default 0

/-- A cycle of the manager on the first stack, an hour after the first bar. -/
def paperCycle : Operation := .live 0 .manager (storingCall [0] 3600000000) 3600000000

theorem recordsLive_paperCycle : (({} : Deployment).step paperStack).RecordsLive paperCycle := by
  let d := ({} : Deployment).step paperStack
  let stack : LiveStack := {
    runtime :=
      (buildLiveStack .paper .solo { modelId := "no_cost", fillAt := .close } .default 0).start
    persistDb := true }
  have hok : (d.runLive stack .manager (storingCall [0] 3600000000) 3600000000).1.isOk = true := by
    decide +kernel
  cases hrun : d.runLive stack .manager (storingCall [0] 3600000000) 3600000000 with
  | mk outcome rt =>
  cases outcome with
  | error e =>
    rw [hrun] at hok
    cases hok
  | ok cycle => exact ⟨stack, cycle, rt, rfl, rfl, hrun⟩

/-- The error a replay fails with. -/
def failure {α : Type} : Except PyError α → Option PyError
  | .error e => some e
  | .ok _ => none

/-- A replay of a cycle from the database of a deployment, its rows scanned in the order of the
log. -/
def replay (d : Deployment) (correlationId : CorrelationId) :
    Except PyError (Decision × DecisionDiff × Unit) :=
  ReplaySession.reExecuteCycle {
    stateSnapshots := d.database.stateSnapshots
    engineForRevision := fun _ => .solo
    detectFeatureDrift := fun _ => .ok () }
    (d.database.fetchEventsByCorrelation (fun _ => 0) correlationId) none d.uuid

/-- The replay of the paper cycle does not find the snapshot. -/
theorem not_referenced_paperCycle :
    ¬ Run.Along step Referenced {} [paperStack, paperCycle] ∧
      failure ((Run.exec step {} [paperStack, paperCycle]).replay
        (.given "live_BTC_1h_19700101010000")) =
        some (.valueError "State snapshot not found: 4") := by
  refine ⟨fun h => ?_, by decide +kernel⟩
  exact (sound_init.step paperStack).not_referenced_live recordsLive_paperCycle h.2.1

end Deployment

end TradingPlatform
