import TradingPlatform.Governance.Recording
import TradingPlatform.Runtime.LiveRevisions

/-!
# The revision a validation run is recorded under

The live gate lets a revision through for the runs recorded under it, so a run has to execute the
bundle of its revision. What it executes it takes from its arguments, the caches and the files, and
none of these is compared with the bundle. A run is of its revision where the bundle has the
sections the run takes from there.
-/

namespace TradingPlatform

variable {Text : Type}

namespace ConfigLibrary

variable (lib : ConfigLibrary Text)

/-- The enabled providers among the documents of a bundle. -/
def bundleProviders (bundle : ConfigBundle) : Except PyError (List ProviderConfig) := do
  let configs ← bundle.providers.values.mapM lib.providerConfig
  return (← configs.mapM instantiateProvider).filter (·.enabled)

/-- The configuration a bundle is of. -/
def bundleConfig (bundle : ConfigBundle) : Except PyError RunConfig := do
  let engine ← lib.engineConfig bundle.engine
  let features ← lib.featuresConfig bundle.features
  let providers ← lib.bundleProviders bundle
  return { engine := engine.values, features, providers }

theorem bundleConfig_eq_ok {lib : ConfigLibrary Text} {bundle : ConfigBundle} {config : RunConfig} :
    lib.bundleConfig bundle = .ok config ↔
      (lib.engineConfig bundle.engine).map EngineConfig.values = .ok config.engine ∧
        lib.featuresConfig bundle.features = .ok config.features ∧
        lib.bundleProviders bundle = .ok config.providers := by
  rw [bundleConfig]
  cases lib.engineConfig bundle.engine with
  | error e => simp [Except.map, bind, Except.bind]
  | ok engine =>
    cases lib.featuresConfig bundle.features with
    | error e => simp [Except.map, bind, Except.bind]
    | ok features =>
      cases lib.bundleProviders bundle with
      | error e => simp [Except.map, bind, Except.bind]
      | ok providers =>
        simp only [Except.map, bind, Except.bind, pure, Except.pure, Except.ok.injEq]
        constructor
        · rintro rfl
          exact ⟨rfl, rfl, rfl⟩
        · rintro ⟨hengine, rfl, rfl⟩
          rw [hengine]

end ConfigLibrary

/-! ## What is recorded -/

/-- The run executed the bundle of the revision it is recorded under. -/
def CompletedRun.OfRevision (lib : ConfigLibrary Text) (db : GovernanceDatabase)
    (run : CompletedRun) : Prop :=
  ∃ row, db.revisions.get? run.revisionId = some row ∧
    lib.bundleConfig row.configBundle = .ok run.config

theorem CompletedRun.OfRevision.mono {lib : ConfigLibrary Text} {db db' : GovernanceDatabase}
    {run : CompletedRun} (h : run.OfRevision lib db) (hkeeps : db.KeepsRevisions db') :
    run.OfRevision lib db' := by
  obtain ⟨row, hget, hbundle⟩ := h
  exact ⟨row, hkeeps _ row hget, hbundle⟩

namespace ValidationService

variable (lib : ConfigLibrary Text) (digest : Digest Text) (minTrades : ℤ)

/-- The rows of a completed call have the revision of its run. -/
def RecordedAs (db : GovernanceDatabase) (call : ValidationCall Text) (run : CompletedRun) : Prop :=
  (∃ row, db.backtestRuns.get? call.runId = some row ∧ row.revisionId = some run.revisionId) ∧
    ∃ row, db.experimentRuns.get? call.experimentRunId = some row ∧
      row.revisionId = run.revisionId

/-- A revision that counts as validated has completed a run of its own, with trades enough. -/
def Validated (s : ValidationService Text) : Prop :=
  ∀ revisionId, s.db.hasSuccessfulValidation minTrades revisionId = true →
    ∃ run ∈ s.completed, run.revisionId = revisionId ∧ minTrades ≤ run.totalTrades ∧
      run.OfRevision lib s.db

/-- A call that completes is recorded under the revision it executed, and the validated revisions
have run themselves. -/
def Recorded (s : ValidationService Text) (event : ValidationEvent Text) : Prop :=
  (∀ call, event = .validate call → ∀ run, (s.runValidationJob lib digest call).2 = .ok run →
    RecordedAs (s.step lib digest event).db call run ∧
      run.OfRevision lib (s.step lib digest event).db) ∧
  (s.step lib digest event).Validated lib minTrades

/-- The bundle has the sections a call runs with: each as the argument gives it, and without an
argument as the cache or the file does. -/
structure Matches (s : ValidationService Text) (call : ValidationCall Text)
    (bundle : ConfigBundle) : Prop where
  engine : (lib.engineConfig bundle.engine).map EngineConfig.values =
    (s.reader.engineConfig lib call.engineConfig).2
  features : lib.featuresConfig bundle.features =
    (s.reader.featuresConfig lib call.featuresConfig).2
  providers : lib.bundleProviders bundle = lib.runProviders s.reader.dir call.providerOverrides

/-- A call that is asked for a registered revision runs with the bundle of that revision. Any other
runs with the bundle that is stored under the identifier of the files, and where none is, with that
of the files. -/
def RunsOwn (s : ValidationService Text) (call : ValidationCall Text) : Prop :=
  match s.db.askedRevision call.revisionId with
  | some row => s.Matches lib call row.configBundle
  | none => ∀ revision,
    lib.computeConfigRevision digest (s.filesAtNaming call) "validation" none call.now =
      .ok revision →
    s.Matches lib call
      ((s.db.revisions.get? revision.revisionId).getD revision.row).configBundle

def MatchesOwn (s : ValidationService Text) : ValidationEvent Text → Prop
  | .validate call =>
    (∃ run, (s.runValidationJob lib digest call).2 = .ok run) → s.RunsOwn lib digest call
  | _ => True

end ValidationService

/-! ## A call -/

namespace ValidationService

variable {lib : ConfigLibrary Text} {digest : Digest Text} {s : ValidationService Text}
  {call : ValidationCall Text} {run : CompletedRun}

/-- A bundle has the sections of a call when it is of the configuration the call runs with. -/
theorem matches_iff {config : RunConfig} {bundle : ConfigBundle}
    (h : (s.reader.keepSettings.runConfig lib call.toRunOverrides).2 = .ok config) :
    s.Matches lib call bundle ↔ lib.bundleConfig bundle = .ok config := by
  obtain ⟨hengine, hfeatures, hproviders⟩ := ConfigReader.runConfig_eq_ok.mp h
  have hengine' : (s.reader.engineConfig lib call.engineConfig).2 = .ok config.engine := by
    rw [← hengine]
    cases call.engineConfig <;> rfl
  have hfeatures' : (s.reader.featuresConfig lib call.featuresConfig).2 = .ok config.features := by
    rw [← hfeatures]
    cases call.featuresConfig <;> rfl
  rw [ConfigLibrary.bundleConfig_eq_ok, ← hengine', ← hfeatures', ← hproviders]
  exact ⟨fun h => ⟨h.engine, h.features, h.providers⟩, fun h => ⟨h.1, h.2.1, h.2.2⟩⟩

/-- The revision a call is recorded under, and the bundle that is stored under it. -/
theorem named_iff {config : RunConfig} {revisionId : String} {named : GovernanceDatabase}
    (h : s.Starts lib digest call config revisionId named) :
    (∃ row, named.revisions.get? revisionId = some row ∧
        lib.bundleConfig row.configBundle = .ok config) ↔
      s.RunsOwn lib digest call := by
  have hname := h.named
  cases hasked : s.db.askedRevision call.revisionId with
  | some row =>
    obtain ⟨revisionId', hname', hrow⟩ := GovernanceDatabase.nameRevision_of_asked lib digest
      (s.filesAtNaming call) call.now hasked
    cases hname'.symm.trans hname
    simp only [RunsOwn, hasked, matches_iff h.config, hrow, Option.some.injEq, exists_eq_left']
  | none =>
    rw [GovernanceDatabase.nameRevision_of_not_asked hasked,
      GovernanceDatabase.ensureCurrentRevision] at hname
    obtain ⟨revision, hrevision, hnamed⟩ := Except.map_eq_ok.mp hname
    cases hnamed
    simp only [RunsOwn, hasked, matches_iff h.config, hrevision, Except.ok.injEq, forall_eq',
      GovernanceDatabase.get?_saveRevision_self, Option.some.injEq, exists_eq_left']

/-! ## Every run -/

/-- The rows that count for a validation are of runs completed, each with the bundle of its
revision. -/
structure Backed (lib : ConfigLibrary Text) (s : ValidationService Text) : Prop where
  backtestRuns : ∀ id row, s.db.backtestRuns.get? id = some row →
    ∃ run ∈ s.completed, row.revisionId = some run.revisionId ∧
      row.totalTrades = some run.totalTrades
  experimentRuns : ∀ id row, s.db.experimentRuns.get? id = some row → row.status = "completed" →
    ∃ run ∈ s.completed, row.revisionId = run.revisionId ∧ row.totalTrades = some ↑run.totalTrades
  own : ∀ run ∈ s.completed, run.OfRevision lib s.db

theorem intOfFloat_intCast (n : ℤ) : intOfFloat n = n := by
  rw [intOfFloat, Rat.num_intCast, Rat.den_intCast]
  exact Int.tdiv_one n

theorem Backed.validated {minTrades : ℤ} (h : s.Backed lib) : s.Validated lib minTrades := by
  intro revisionId hvalid
  rcases GovernanceDatabase.hasSuccessfulValidation_iff.mp hvalid with
    ⟨id, row, hget, hrow⟩ | ⟨id, row, hget, hrow⟩
  · obtain ⟨run, hmem, hrevision, htrades⟩ := h.backtestRuns id row hget
    obtain ⟨hof, -, henough⟩ := of_decide_eq_true hrow
    rw [htrades, Option.getD_some] at henough
    exact ⟨run, hmem, Option.some.inj (hrevision.symm.trans hof), henough, h.own run hmem⟩
  · obtain ⟨hof, hcompleted, henough⟩ := of_decide_eq_true hrow
    obtain ⟨run, hmem, hrevision, htrades⟩ := h.experimentRuns id row hget hcompleted
    rw [htrades, Option.getD_some, intOfFloat_intCast] at henough
    exact ⟨run, hmem, hrevision.symm.trans hof, henough, h.own run hmem⟩

/-- The rows that count stay, but for some that go, and the revisions stay. -/
structure Shrinks (db db' : GovernanceDatabase) : Prop where
  backtestRuns : ∀ id row, db'.backtestRuns.get? id = some row → db.backtestRuns.get? id = some row
  experimentRuns : ∀ id row, db'.experimentRuns.get? id = some row → row.status = "completed" →
    db.experimentRuns.get? id = some row
  revisions : db.KeepsRevisions db'

theorem Backed.of_shrinks {reader : ConfigReader Text} {db : GovernanceDatabase} (h : s.Backed lib)
    (hshrinks : Shrinks s.db db) : Backed lib ⟨reader, db, s.completed⟩ where
  backtestRuns id row hget := h.backtestRuns id row (hshrinks.backtestRuns id row hget)
  experimentRuns id row hget hcompleted :=
    h.experimentRuns id row (hshrinks.experimentRuns id row hget hcompleted) hcompleted
  own run hmem := (h.own run hmem).mono hshrinks.revisions

theorem Shrinks.of_registers {db db' : GovernanceDatabase} (h : db.Registers db') :
    Shrinks db db' where
  backtestRuns _ _ hget := h.backtestRuns ▸ hget
  experimentRuns _ _ hget _ := h.experimentRuns ▸ hget
  revisions := h.revisions

theorem shrinks_delete (db : GovernanceDatabase) (call : GovernanceDatabase.Deletion) :
    Shrinks db (db.delete call) := by
  have hdeleted : GovernanceDatabase.Deleted call db (db.delete call) :=
    GovernanceDatabase.deleted_delete call
  exact {
    backtestRuns := fun id row hget => ((hdeleted.backtestRuns id row).mp hget).1
    experimentRuns := fun id row hget _ => ((hdeleted.experimentRuns id row).mp hget).1
    revisions := fun id row hget => hdeleted.revisions ▸ hget }

/-- A run that has only started counts for nothing. -/
theorem shrinks_startRun (db : GovernanceDatabase) (call : ValidationCall Text)
    (revisionId : String) : Shrinks db (db.startRun call revisionId) := by
  obtain ⟨hrevisions, hbacktest, experimentId, hexperiment⟩ := db.startRun_eq call revisionId
  refine { backtestRuns := ?_, experimentRuns := ?_, revisions := ?_ }
  · exact fun id row hget => hbacktest ▸ hget
  · intro id row hget hcompleted
    rw [hexperiment, Dict.get?_set] at hget
    split at hget
    · cases hget
      have hrunning : "running" = "completed" := hcompleted
      exact absurd hrunning (by decide)
    · exact hget
  · exact fun id row hget => hrevisions ▸ hget

theorem Shrinks.trans {db db' db'' : GovernanceDatabase} (h : Shrinks db db')
    (h' : Shrinks db' db'') : Shrinks db db'' where
  backtestRuns id row hget := h.backtestRuns id row (h'.backtestRuns id row hget)
  experimentRuns id row hget hcompleted :=
    h.experimentRuns id row (h'.experimentRuns id row hget hcompleted) hcompleted
  revisions id row hget := h'.revisions id row (h.revisions id row hget)

section

variable {config : RunConfig} {revisionId : String} {totalTrades : ℤ} {named : GovernanceDatabase}

/-- A run that is completed with the bundle of its revision backs its own rows. -/
theorem Backed.recordRun (h : s.Backed lib) (call : ValidationCall Text)
    (reader : ConfigReader Text) (hregisters : s.db.Registers named)
    (hown : CompletedRun.OfRevision lib named ⟨revisionId, config, totalTrades⟩) :
    Backed lib ⟨reader, (named.startRun call revisionId).recordRun call revisionId totalTrades,
      s.completed ++ [⟨revisionId, config, totalTrades⟩]⟩ := by
  obtain ⟨hrevisions, hbacktest, experimentId, hexperiment⟩ :=
    named.recordRun_startRun call revisionId totalTrades
  have hnew : (⟨revisionId, config, totalTrades⟩ : CompletedRun) ∈
      s.completed ++ [⟨revisionId, config, totalTrades⟩] :=
    List.mem_append_right _ (List.mem_singleton_self _)
  refine { backtestRuns := ?_, experimentRuns := ?_, own := ?_ }
  · intro id row hget
    rw [hbacktest, Dict.get?_set] at hget
    split at hget
    · cases hget
      exact ⟨_, hnew, rfl, rfl⟩
    · obtain ⟨run, hmem, hrow⟩ := h.backtestRuns id row (hregisters.backtestRuns ▸ hget)
      exact ⟨run, List.mem_append_left _ hmem, hrow⟩
  · intro id row hget hcompleted
    rw [hexperiment, Dict.get?_set] at hget
    split at hget
    · cases hget
      exact ⟨_, hnew, rfl, rfl⟩
    · next hid =>
      rw [Dict.get?_set_of_ne hid] at hget
      obtain ⟨run, hmem, hrow⟩ :=
        h.experimentRuns id row (hregisters.experimentRuns ▸ hget) hcompleted
      exact ⟨run, List.mem_append_left _ hmem, hrow⟩
  · have hkeeps : named.KeepsRevisions
        ((named.startRun call revisionId).recordRun call revisionId totalTrades) :=
      fun id row hget => hrevisions ▸ hget
    intro run hmem
    rcases List.mem_append.mp hmem with hmem | hmem
    · exact ((h.own run hmem).mono hregisters.revisions).mono hkeeps
    · cases List.mem_singleton.mp hmem
      exact hown.mono hkeeps

theorem recordedAs_recordRun :
    RecordedAs ((named.startRun call revisionId).recordRun call revisionId totalTrades) call
      ⟨revisionId, config, totalTrades⟩ := by
  obtain ⟨-, hbacktest, experimentId, hexperiment⟩ :=
    named.recordRun_startRun call revisionId totalTrades
  constructor
  · exact ⟨_, (congrArg (Dict.get? · call.runId) hbacktest).trans Dict.get?_set_self, rfl⟩
  · exact ⟨_, (congrArg (Dict.get? · call.experimentRunId) hexperiment).trans Dict.get?_set_self,
      rfl⟩

end

/-- A call that fails is recorded nowhere. -/
theorem recorded_of_error (minTrades : ℤ) {e : PyError} {s' : ValidationService Text}
    (heq : s.runValidationJob lib digest call = (s', .error e)) (h : s'.Backed lib) :
    s.Recorded lib digest minTrades (.validate call) ∧
      s.MatchesOwn lib digest (.validate call) := by
  refine ⟨⟨?_, ?_⟩, ?_⟩
  · rintro call' ⟨⟩ run hrun
    rw [heq] at hrun
    cases hrun
  · rw [step, heq]
    exact h.validated
  · rintro ⟨run, hrun⟩
    rw [heq] at hrun
    cases hrun

theorem validate_spec (minTrades : ℤ) (h : s.Backed lib) :
    (s.MatchesOwn lib digest (.validate call) →
        (s.step lib digest (.validate call)).Backed lib) ∧
      (s.Recorded lib digest minTrades (.validate call) ↔
        s.MatchesOwn lib digest (.validate call)) := by
  rcases s.runValidationJob_cases lib digest call with ⟨e, reader, heq⟩ |
    ⟨reader, config, revisionId, named, hstarts, hrun⟩
  · have hbacked : Backed lib { s with reader } :=
      h.of_shrinks ⟨fun _ _ hget => hget, fun _ _ hget _ => hget, fun _ _ hget => hget⟩
    obtain ⟨hrecorded, hmatches⟩ := recorded_of_error minTrades heq hbacked
    refine ⟨fun _ => ?_, iff_of_true hrecorded hmatches⟩
    rw [step, heq]
    exact hbacked
  have hregisters := GovernanceDatabase.registers_nameRevision hstarts.named
  rcases hrun with ⟨e, heq⟩ | ⟨totalTrades, heq⟩
  · have hshrinks := (Shrinks.of_registers hregisters).trans
      (shrinks_startRun named call revisionId)
    have hbacked : Backed lib ⟨reader, named.startRun call revisionId, s.completed⟩ :=
      h.of_shrinks hshrinks
    obtain ⟨hrecorded, hmatches⟩ := recorded_of_error minTrades heq hbacked
    refine ⟨fun _ => ?_, iff_of_true hrecorded hmatches⟩
    rw [step, heq]
    exact hbacked
  have hcompletes : (s.runValidationJob lib digest call).2 =
    .ok ⟨revisionId, config, totalTrades⟩ := congrArg Prod.snd heq
  obtain ⟨hrevisions, -⟩ :=
    named.recordRun_startRun call revisionId totalTrades
  -- the bundle that is stored when the run starts is the one that is stored when it completes
  have hown : s.MatchesOwn lib digest (.validate call) →
      CompletedRun.OfRevision lib named ⟨revisionId, config, totalTrades⟩ :=
    fun hmatches => (named_iff hstarts).mpr (hmatches ⟨_, hcompletes⟩)
  have hbacked := fun hmatches => h.recordRun call reader hregisters (hown hmatches)
  refine ⟨fun hmatches => ?_, ?_, fun hmatches => ⟨?_, ?_⟩⟩
  · rw [step, heq]
    exact hbacked hmatches
  · rintro ⟨hcall, -⟩ -
    obtain ⟨-, row, hget, hbundle⟩ := hcall call rfl _ hcompletes
    rw [step, heq, hrevisions] at hget
    exact (named_iff hstarts).mp ⟨row, hget, hbundle⟩
  · rintro call' ⟨⟩ run hrun
    cases hcompletes.symm.trans hrun
    rw [step, heq]
    exact ⟨recordedAs_recordRun, (hown hmatches).mono fun id row hget => hrevisions ▸ hget⟩
  · rw [step, heq]
    exact (hbacked hmatches).validated

/-- Any other event records nothing. -/
theorem other_spec {minTrades : ℤ} {event : ValidationEvent Text}
    (hother : ∀ call, event ≠ .validate call) (h : (s.step lib digest event).Backed lib) :
    s.Recorded lib digest minTrades event :=
  ⟨fun call hcall => absurd hcall (hother call), h.validated⟩

theorem step_spec (minTrades : ℤ) (h : s.Backed lib) (event : ValidationEvent Text) :
    (s.MatchesOwn lib digest event → (s.step lib digest event).Backed lib) ∧
      (s.Recorded lib digest minTrades event ↔ s.MatchesOwn lib digest event) := by
  have hkept : ∀ reader, Backed lib { s with reader } := fun reader =>
    h.of_shrinks ⟨fun _ _ hget => hget, fun _ _ hget _ => hget, fun _ _ hget => hget⟩
  cases event with
  | write dir dropsEngine dropsFeatures =>
    exact ⟨fun _ => hkept _, iff_of_true (other_spec (by rintro _ ⟨⟩) (hkept _)) trivial⟩
  | load load =>
    exact ⟨fun _ => hkept _, iff_of_true (other_spec (by rintro _ ⟨⟩) (hkept _)) trivial⟩
  | register revisionId row =>
    have hbacked : (s.step lib digest (.register revisionId row)).Backed lib :=
      h.of_shrinks (.of_registers GovernanceDatabase.registers_saveRevision)
    exact ⟨fun _ => hbacked, iff_of_true (other_spec (by rintro _ ⟨⟩) hbacked) trivial⟩
  | validate call => exact validate_spec minTrades h
  | delete call =>
    have hbacked : (s.step lib digest (.delete call)).Backed lib :=
      h.of_shrinks (shrinks_delete s.db call)
    exact ⟨fun _ => hbacked, iff_of_true (other_spec (by rintro _ ⟨⟩) hbacked) trivial⟩

/-- A process at its start, in a database without runs. -/
def started (reader : ConfigReader Text) (db : GovernanceDatabase) : ValidationService Text where
  reader
  db := { db with experimentRuns := ∅, backtestRuns := ∅, simulatedTrades := ∅ }

theorem backed_started (reader : ConfigReader Text) (db : GovernanceDatabase) :
    (started reader db).Backed lib where
  backtestRuns id row hget := by cases hget
  experimentRuns id row hget := by cases hget
  own run hmem := by cases hmem

/-- Over every order of writes, loads, registrations, validations and deletions: each call that
completes is recorded under the revision whose bundle it executed, and a revision that counts as
validated has completed such a run, exactly when each call that completes runs with the bundle of
the revision it is asked for or, where that is not registered, of the files. -/
theorem along_recorded_iff (lib : ConfigLibrary Text) (digest : Digest Text) (minTrades : ℤ)
    (reader : ConfigReader Text) (db : GovernanceDatabase) (events : List (ValidationEvent Text)) :
    Run.Along (step lib digest) (Recorded lib digest minTrades) (started reader db) events ↔
      Run.Along (step lib digest) (MatchesOwn lib digest) (started reader db) events :=
  Run.along_iff (I := Backed lib) (D := fun _ _ => True)
    (fun _ event h _ => (step_spec minTrades h event).1)
    (fun _ event h _ => (step_spec minTrades h event).2) (backed_started reader db) Run.along_true

end ValidationService

/-! ## A preset on the files of another strategy -/

/-- The files with the provider of the long core only, which they switch off. -/
def coreDir : ConfigDir Yaml :=
  { dirOf 1 with
    providers := {
      entries := [("core_long", .map [("provider_id", .str "core_long"), ("enabled", .bool false)])]
      nodup := by decide }
    sorted := by decide }

def coreLongFeatures : FeaturesConfig where
  version := "v2"
  indicators := [
    ⟨"sma_150", "sma", [("period", .int 150)]⟩,
    ⟨"atr_14", "atr", [("period", .int 14)]⟩]
  flags := []
  context := { fast := "sma_150", slow := "sma_150", atr := "atr_14", low := 0, high := 1 }

/-- A request for thirty trades' worth of bars, without a revision. -/
def plainCall : ValidationCall Yaml where
  newExperimentId := "exp_1"
  experimentRunId := "erun_1"
  runId := "btrun_1"
  harness _ := .ok 30

def coreLongCall : ValidationCall Yaml :=
  { plainCall with toRunKwargs := managedLongCore coreLongFeatures, timeframe := "1d" }

example :
    plainCall.ofPreset (resolvePreset (some "managed_long_core")) (.ok coreLongFeatures) =
      .ok coreLongCall := rfl

namespace ValidationService

/-- The long core is recorded under the revision of files that ask for less confidence. -/
theorem not_along_recorded_coreLong :
    ¬ Run.Along (step orderedLibrary agreementDigest) (Recorded orderedLibrary agreementDigest 20)
      (started { dir := coreDir } {}) [.validate coreLongCall] := by
  rintro ⟨⟨hcall, -⟩, -⟩
  have hrun : ((started { dir := coreDir } {}).runValidationJob orderedLibrary agreementDigest
      coreLongCall).2.map (fun run => (run.revisionId, run.config.engine.minConfidence)) =
        .ok (soloRevision, 3 / 5) := by decide +kernel
  have hstored : (((started { dir := coreDir } {}).step orderedLibrary agreementDigest
      (.validate coreLongCall)).db.revisions.get? soloRevision).map (fun row =>
        (orderedLibrary.bundleConfig row.configBundle).map (·.engine.minConfidence)) =
          some (.ok (1 / 2)) := by decide +kernel
  obtain ⟨run, hok, hvalues⟩ := Except.map_eq_ok.mp hrun
  obtain ⟨hrevision, hconfidence⟩ : run.revisionId = soloRevision ∧
    run.config.engine.minConfidence = 3 / 5 := Prod.ext_iff.mp hvalues
  obtain ⟨-, row, hget, hbundle⟩ := hcall coreLongCall rfl run hok
  rw [← hrevision, hget, Option.map_some, hbundle] at hstored
  have hhalf : run.config.engine.minConfidence = 1 / 2 := Except.ok.inj (Option.some.inj hstored)
  exact absurd (hconfidence.symm.trans hhalf) (by decide +kernel)

end ValidationService

end TradingPlatform
