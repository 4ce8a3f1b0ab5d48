import TradingPlatform.Governance.Revisions
import TradingPlatform.Validation.Presets

/-!
# Recording a validation run

`run_validation_job` reads the configuration it runs with, names a revision, starts a run under it,
and records the run when it completes. The revision is the one it is asked for, where that is
registered, and else the revision of the files. A revision stays registered with the first bundle
that comes with its identifier.
-/

namespace TradingPlatform

variable {Text : Type}

/-! ## Naming the revision -/

/-- The row of `save_revision`. -/
def ConfigRevision.row (revision : ConfigRevision) : ConfigRevisionRow where
  createdAt := revision.createdAt
  engineConfigHash := revision.engineConfigHash
  featuresConfigHash := revision.featuresConfigHash
  providersConfigHash := revision.providersConfigHash
  fillModelId := some revision.fillModelId
  riskLimitsHash := revision.riskLimitsHash
  label := revision.label
  parentRevisionId := revision.parentRevisionId
  configBundle := revision.configBundle

namespace GovernanceDatabase

variable (lib : ConfigLibrary Text) (digest : Digest Text) (db : GovernanceDatabase)

/-- `save_revision`; a revision that is registered is left as it is. -/
def saveRevision (revisionId : String) (row : ConfigRevisionRow) : GovernanceDatabase :=
  match db.revisions.get? revisionId with
  | some _ => db
  | none => { db with revisions := db.revisions.set revisionId row }

/-- `ensure_current_revision` -/
def ensureCurrentRevision (dir : ConfigDir Text) (label : String) (now : ℤ) :
    Except PyError (String × GovernanceDatabase) :=
  (lib.computeConfigRevision digest dir label none now).map fun revision =>
    (revision.revisionId, db.saveRevision revision.revisionId revision.row)

/-- The identifier a run is recorded under, registered. -/
def nameRevision (dir : ConfigDir Text) (revisionId : Option String) (now : ℤ) :
    Except PyError (String × GovernanceDatabase) :=
  match revisionId.filter (· ≠ "") with
  | none => db.ensureCurrentRevision lib digest dir "validation" now
  | some revisionId =>
    match db.revisions.get? revisionId with
    | some _ => .ok (revisionId, db)
    | none => db.ensureCurrentRevision lib digest dir "validation" now

end GovernanceDatabase

/-! ## The call -/

/-- A call of `run_validation_job` that persists its run: its arguments, the identifiers it draws,
and what it meets on its way. -/
structure ValidationCall (Text : Type) extends RunKwargs where
  symbol : String := "BTC/USDT"
  timeframe : String := "1h"
  revisionId : Option String := none
  experimentId : Option String := none
  newExperimentId : String
  experimentRunId : String
  runId : String
  /-- The outcome of what is set up before the configuration is read: the bars and the settings of
  the execution. -/
  setup : Except PyError Unit := .ok ()
  /-- The files, where another process writes them before the revision is computed. -/
  rewritten : Option (ConfigDir Text) := none
  now : ℤ := 0
  /-- The trades of a run with the configuration, in the metrics of its outcome. -/
  harness : RunConfig → Except PyError ℤ

/-- The call `execute_validation_job` makes of a request: any preset but the baseline brings its
timeframe. -/
def ValidationCall.ofPreset (call : ValidationCall Text) (preset : StrategyPreset)
    (coreLong : Except PyError FeaturesConfig) : Except PyError (ValidationCall Text) :=
  (preset.runKwargs coreLong).map fun kwargs => { call with
    toRunKwargs := kwargs
    timeframe := if preset.key = "baseline" then call.timeframe else preset.timeframe }

/-- A run that is completed, with the configuration it executed. -/
structure CompletedRun where
  revisionId : String
  config : RunConfig
  totalTrades : ℤ

namespace GovernanceDatabase

variable (db : GovernanceDatabase) (call : ValidationCall Text) (revisionId : String)

/-- The experiment of a call, which is created where the call has none. -/
def openExperiment : String × GovernanceDatabase :=
  match call.experimentId.filter (· ≠ "") with
  | some experimentId => (experimentId, db)
  | none =>
    (call.newExperimentId, { db with experiments := db.experiments.set call.newExperimentId {
      name := "validation_" ++ call.symbol ++ "_" ++ call.timeframe, revisionId } })

/-- `create_experiment_run` -/
def createExperimentRun (experimentId : String) : GovernanceDatabase :=
  { db with experimentRuns := db.experimentRuns.set call.experimentRunId {
    experimentId
    revisionId
    status := "running"
    totalTrades := none
    completedAt := none } }

/-- What the first session of a call writes beside the revision. -/
def startRun : GovernanceDatabase :=
  let (experimentId, db) := db.openExperiment call revisionId
  db.createExperimentRun call revisionId experimentId

/-- `persist_validation_result`, less the trades. -/
def persistValidationResult (totalTrades : ℤ) : GovernanceDatabase :=
  { db with backtestRuns := db.backtestRuns.set call.runId {
    revisionId := some revisionId
    totalTrades := some totalTrades
    completedAt := some call.now } }

/-- `complete_experiment_run` with the status `"completed"`. -/
def completeExperimentRun (totalTrades : ℤ) : GovernanceDatabase :=
  match db.experimentRuns.get? call.experimentRunId with
  | none => db
  | some run =>
    { db with
      experimentRuns := db.experimentRuns.set call.experimentRunId { run with
        status := "completed"
        totalTrades := some totalTrades
        completedAt := some call.now }
      experiments := match db.experiments.get? run.experimentId with
        | none => db.experiments
        | some experiment =>
          db.experiments.set run.experimentId { experiment with status := "completed" } }

/-- What the second session of a call writes. -/
def recordRun (totalTrades : ℤ) : GovernanceDatabase :=
  (db.persistValidationResult call revisionId totalTrades).completeExperimentRun call totalTrades

end GovernanceDatabase

/-- A process that runs validations: the files it reads, the database, and the runs it has
completed. -/
structure ValidationService (Text : Type) where
  reader : ConfigReader Text
  db : GovernanceDatabase
  completed : List CompletedRun := []

namespace ValidationService

variable (lib : ConfigLibrary Text) (digest : Digest Text) (s : ValidationService Text)

/-- `run_validation_job` with `persist_db` -/
def runValidationJob (call : ValidationCall Text) :
    ValidationService Text × Except PyError CompletedRun :=
  match call.setup with
  | .error e => (s, .error e)
  | .ok () =>
  match s.reader.loadFillModel lib with
  | (reader, .error e) => ({ s with reader }, .error e)
  | (reader, .ok _) =>
  match reader.runConfig lib call.toRunOverrides with
  | (reader, .error e) => ({ s with reader }, .error e)
  | (reader, .ok config) =>
  let reader := { reader with dir := call.rewritten.getD reader.dir }
  match s.db.nameRevision lib digest reader.hashed call.revisionId call.now with
  | .error e => ({ s with reader }, .error e)
  | .ok (revisionId, db) =>
  let db := db.startRun call revisionId
  match call.harness config with
  | .error e => ({ s with reader, db }, .error e)
  | .ok totalTrades =>
    let db := db.recordRun call revisionId totalTrades
    let run := { revisionId, config, totalTrades }
    ({ reader, db, completed := s.completed ++ [run] }, .ok run)

end ValidationService

/-- What happens at a process that runs validations. -/
inductive ValidationEvent (Text : Type)
  /-- A write of the files, by this process or by another. -/
  | write (dir : ConfigDir Text) (dropsEngine dropsFeatures : Bool)
  | load (load : ConfigLoad)
  /-- A revision is registered. -/
  | register (revisionId : String) (row : ConfigRevisionRow)
  | validate (call : ValidationCall Text)
  | delete (call : GovernanceDatabase.Deletion)

namespace ValidationService

section

variable (lib : ConfigLibrary Text) (digest : Digest Text)

def step (s : ValidationService Text) : ValidationEvent Text → ValidationService Text
  | .write dir dropsEngine dropsFeatures =>
    { s with reader := s.reader.write dir dropsEngine dropsFeatures }
  | .load load => { s with reader := s.reader.load lib load }
  | .register revisionId row => { s with db := s.db.saveRevision revisionId row }
  | .validate call => (s.runValidationJob lib digest call).1
  | .delete call => { s with db := s.db.delete call }

end

end ValidationService

/-! ## The database after a call -/

/-- The revision asked for, where it is registered. -/
def GovernanceDatabase.askedRevision (db : GovernanceDatabase) (revisionId : Option String) :
    Option ConfigRevisionRow :=
  (revisionId.filter (· ≠ "")).bind db.revisions.get?

namespace GovernanceDatabase

variable {lib : ConfigLibrary Text} {digest : Digest Text} {db db' : GovernanceDatabase}
  {call : ValidationCall Text} {revisionId id : String} {row row' : ConfigRevisionRow}

theorem get?_saveRevision_self : (db.saveRevision revisionId row).revisions.get? revisionId =
    some ((db.revisions.get? revisionId).getD row) := by
  unfold saveRevision
  cases hget : db.revisions.get? revisionId with
  | none => exact Dict.get?_set_self
  | some stored => exact hget

/-- The revisions stay registered as they are. -/
def KeepsRevisions (db db' : GovernanceDatabase) : Prop :=
  ∀ id row, db.revisions.get? id = some row → db'.revisions.get? id = some row

theorem keepsRevisions_saveRevision : KeepsRevisions db (db.saveRevision revisionId row) := by
  intro id stored hget
  by_cases hid : revisionId = id
  · subst hid
    rw [get?_saveRevision_self, hget]
    rfl
  · unfold saveRevision
    split
    · exact hget
    · exact (Dict.get?_set_of_ne hid).trans hget

/-- Only revisions are registered. -/
structure Registers (db db' : GovernanceDatabase) : Prop where
  revisions : KeepsRevisions db db'
  experimentRuns : db'.experimentRuns = db.experimentRuns
  backtestRuns : db'.backtestRuns = db.backtestRuns

theorem registers_saveRevision : Registers db (db.saveRevision revisionId row) where
  revisions := keepsRevisions_saveRevision
  experimentRuns := by unfold saveRevision; split <;> rfl
  backtestRuns := by unfold saveRevision; split <;> rfl

theorem nameRevision_of_asked {asked : Option String} (lib : ConfigLibrary Text)
    (digest : Digest Text) (dir : ConfigDir Text) (now : ℤ)
    (h : db.askedRevision asked = some row) :
    ∃ revisionId, db.nameRevision lib digest dir asked now = .ok (revisionId, db) ∧
      db.revisions.get? revisionId = some row := by
  obtain ⟨revisionId, hasked, hrow⟩ := Option.bind_eq_some_iff.mp h
  refine ⟨revisionId, ?_, hrow⟩
  simp only [nameRevision, hasked, hrow]

theorem nameRevision_of_not_asked {dir : ConfigDir Text} {asked : Option String} {now : ℤ}
    (h : db.askedRevision asked = none) :
    db.nameRevision lib digest dir asked now =
      db.ensureCurrentRevision lib digest dir "validation" now := by
  rw [askedRevision] at h
  cases hasked : asked.filter (· ≠ "") with
  | none => simp only [nameRevision, hasked]
  | some revisionId =>
    rw [hasked, Option.bind_some] at h
    simp only [nameRevision, hasked, h]

theorem registers_nameRevision {dir : ConfigDir Text} {asked : Option String} {now : ℤ}
    (h : db.nameRevision lib digest dir asked now = .ok (revisionId, db')) : Registers db db' := by
  cases hasked : db.askedRevision asked with
  | some row =>
    obtain ⟨revisionId', hname, -⟩ := nameRevision_of_asked lib digest dir now hasked
    cases hname.symm.trans h
    exact ⟨fun _ _ hget => hget, rfl, rfl⟩
  | none =>
    rw [nameRevision_of_not_asked hasked, ensureCurrentRevision] at h
    obtain ⟨revision, -, hrevision⟩ := Except.map_eq_ok.mp h
    cases hrevision
    exact registers_saveRevision

/-- The row of an experiment run that has started. -/
def startedRow (experimentId revisionId : String) : ExperimentRunRow where
  experimentId := experimentId
  revisionId := revisionId
  status := "running"
  totalTrades := none
  completedAt := none

section

variable (db : GovernanceDatabase) (call : ValidationCall Text) (revisionId : String)
  (totalTrades : ℤ)

/-- A new experiment leaves the runs and the revisions. -/
theorem openExperiment_eq : (db.openExperiment call revisionId).2.revisions = db.revisions ∧
    (db.openExperiment call revisionId).2.backtestRuns = db.backtestRuns ∧
    (db.openExperiment call revisionId).2.experimentRuns = db.experimentRuns := by
  unfold openExperiment
  split <;> exact ⟨rfl, rfl, rfl⟩

/-- A call starts its run. -/
theorem startRun_eq : (db.startRun call revisionId).revisions = db.revisions ∧
    (db.startRun call revisionId).backtestRuns = db.backtestRuns ∧
    ∃ experimentId, (db.startRun call revisionId).experimentRuns =
      db.experimentRuns.set call.experimentRunId (startedRow experimentId revisionId) := by
  obtain ⟨hrevisions, hbacktest, hexperiment⟩ := db.openExperiment_eq call revisionId
  refine ⟨hrevisions, hbacktest, (db.openExperiment call revisionId).1, ?_⟩
  rw [← hexperiment]
  rfl

/-- A call completes its run. -/
theorem recordRun_eq {run : ExperimentRunRow}
    (h : db.experimentRuns.get? call.experimentRunId = some run) :
    (db.recordRun call revisionId totalTrades).revisions = db.revisions ∧
      (db.recordRun call revisionId totalTrades).backtestRuns = db.backtestRuns.set call.runId {
        revisionId := some revisionId
        totalTrades := some totalTrades
        completedAt := some call.now } ∧
      (db.recordRun call revisionId totalTrades).experimentRuns =
        db.experimentRuns.set call.experimentRunId { run with
          status := "completed"
          totalTrades := some totalTrades
          completedAt := some call.now } := by
  have hget : (db.persistValidationResult call revisionId totalTrades).experimentRuns.get?
      call.experimentRunId = some run := h
  simp only [recordRun, completeExperimentRun, hget]
  exact ⟨rfl, rfl, rfl⟩

/-- The rows of a run that has started and completed. -/
theorem recordRun_startRun :
    let recorded := (db.startRun call revisionId).recordRun call revisionId totalTrades
    recorded.revisions = db.revisions ∧
      recorded.backtestRuns = db.backtestRuns.set call.runId {
        revisionId := some revisionId
        totalTrades := some totalTrades
        completedAt := some call.now } ∧
      ∃ experimentId, recorded.experimentRuns =
        (db.experimentRuns.set call.experimentRunId (startedRow experimentId revisionId)).set
          call.experimentRunId { startedRow experimentId revisionId with
            status := "completed"
            totalTrades := some totalTrades
            completedAt := some call.now } := by
  intro recorded
  obtain ⟨hrevisions, hbacktest, experimentId, hexperiment⟩ := db.startRun_eq call revisionId
  have hstarted : (db.startRun call revisionId).experimentRuns.get? call.experimentRunId =
      some (startedRow experimentId revisionId) := by rw [hexperiment, Dict.get?_set_self]
  obtain ⟨hrevisions', hbacktest', hexperiment'⟩ :=
    recordRun_eq _ call revisionId totalTrades hstarted
  exact ⟨hrevisions'.trans hrevisions, hbacktest'.trans (by rw [hbacktest]), experimentId,
    hexperiment'.trans (by rw [hexperiment])⟩

end

end GovernanceDatabase

/-! ## A call -/

namespace ValidationService

/-- The files the revision of a call is computed of. -/
def filesAtNaming (s : ValidationService Text) (call : ValidationCall Text) : ConfigDir Text :=
  { call.rewritten.getD s.reader.dir with settings := s.reader.hashed.settings }

/-- The files the revision is computed of, as the call finds them. -/
theorem hashed_runConfig (lib : ConfigLibrary Text) (s : ValidationService Text)
    (call : ValidationCall Text) :
    let reader := (s.reader.keepSettings.runConfig lib call.toRunOverrides).1
    ({ reader with dir := call.rewritten.getD reader.dir } : ConfigReader Text).hashed =
      s.filesAtNaming call := by
  obtain ⟨hdir, hsettings⟩ : s.reader.keepSettings.SameFiles
      (s.reader.keepSettings.runConfig lib call.toRunOverrides).1 :=
    ConfigReader.sameFiles_runConfig
  dsimp only
  rw [ConfigReader.hashed]
  dsimp only
  rw [hdir, hsettings]
  rfl

/-- A call reads its configuration and names its revision. -/
structure Starts (lib : ConfigLibrary Text) (digest : Digest Text) (s : ValidationService Text)
    (call : ValidationCall Text) (config : RunConfig) (revisionId : String)
    (named : GovernanceDatabase) : Prop where
  config : (s.reader.keepSettings.runConfig lib call.toRunOverrides).2 = .ok config
  named : s.db.nameRevision lib digest (s.filesAtNaming call) call.revisionId call.now =
    .ok (revisionId, named)

/-- A call fails before it starts a run, or starts one that fails or completes. -/
theorem runValidationJob_cases (lib : ConfigLibrary Text) (digest : Digest Text)
    (s : ValidationService Text) (call : ValidationCall Text) :
    (∃ e reader, s.runValidationJob lib digest call = ({ s with reader }, .error e)) ∨
      ∃ reader config revisionId named, s.Starts lib digest call config revisionId named ∧
        ((∃ e, s.runValidationJob lib digest call =
            (⟨reader, named.startRun call revisionId, s.completed⟩, .error e)) ∨
          ∃ totalTrades, s.runValidationJob lib digest call =
            (⟨reader, (named.startRun call revisionId).recordRun call revisionId totalTrades,
              s.completed ++ [⟨revisionId, config, totalTrades⟩]⟩,
              .ok ⟨revisionId, config, totalTrades⟩)) := by
  have hhashed : _ = s.filesAtNaming call := hashed_runConfig lib s call
  cases hsetup : call.setup with
  | error e => exact .inl ⟨e, s.reader, by simp only [runValidationJob, hsetup]⟩
  | ok u =>
  cases hfill : lib.loadDefaultFillModel s.reader.hashed with
  | error e =>
    exact .inl ⟨e, s.reader, by
      simp only [runValidationJob, hsetup, ConfigReader.loadFillModel, hfill]⟩
  | ok fillModel =>
  have hload : s.reader.loadFillModel lib = (s.reader.keepSettings, .ok fillModel) := by
    rw [ConfigReader.loadFillModel, hfill]
  cases hread : s.reader.keepSettings.runConfig lib call.toRunOverrides with
  | mk reader config =>
  rw [hread] at hhashed
  cases config with
  | error e => exact .inl ⟨e, reader, by simp only [runValidationJob, hsetup, hload, hread]⟩
  | ok config =>
  cases hname : s.db.nameRevision lib digest (s.filesAtNaming call) call.revisionId call.now with
  | error e =>
    exact .inl ⟨e, { reader with dir := call.rewritten.getD reader.dir }, by
      simp only [runValidationJob, hsetup, hload, hread, hhashed, hname]⟩
  | ok named =>
  obtain ⟨revisionId, named⟩ := named
  refine .inr ⟨{ reader with dir := call.rewritten.getD reader.dir }, config, revisionId, named,
    ⟨by rw [hread], hname⟩, ?_⟩
  cases hharness : call.harness config with
  | error e =>
    exact .inl ⟨e, by simp only [runValidationJob, hsetup, hload, hread, hhashed, hname, hharness]⟩
  | ok totalTrades =>
    exact .inr ⟨totalTrades, by
      simp only [runValidationJob, hsetup, hload, hread, hhashed, hname, hharness]⟩

end ValidationService

end TradingPlatform
