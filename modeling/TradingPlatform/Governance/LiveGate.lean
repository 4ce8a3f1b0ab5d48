import TradingPlatform.Governance.Records

/-!
# The gate of live mode

`LiveGovernanceGate.allow_start` asks for a registered revision with a successful validation run,
and where the champion requirement is on, for a champion among the candidates that trace back to the
revision. A candidate traces back through its experiment, so the requirement ends with the last such
experiment. A deletion unblocks a revision exactly when it takes these experiments away and leaves a
run that validates the revision.
-/

namespace TradingPlatform

/-- The settings the gate reads. -/
structure GateSettings where
  environment : String
  requireChampionCandidate : Bool
  /-- `validation.min_trades` of `settings.yaml` -/
  minTrades : ℤ

/-- `int` of a float, which rounds towards zero. -/
def intOfFloat (x : ℚ) : ℤ := x.num.tdiv x.den

/-- A validation run of the revision that is complete and has trades enough. -/
def BacktestRunRow.validates (minTrades : ℤ) (revisionId : String) (row : BacktestRunRow) : Bool :=
  row.revisionId = some revisionId ∧ row.completedAt.isSome ∧ minTrades ≤ row.totalTrades.getD 0

/-- An experiment run of the revision that is complete and has trades enough. -/
def ExperimentRunRow.validates (minTrades : ℤ) (revisionId : String) (run : ExperimentRunRow) :
    Bool :=
  run.revisionId = revisionId ∧ run.status = "completed" ∧
    minTrades ≤ intOfFloat (run.totalTrades.getD 0)

namespace GovernanceDatabase

variable (db : GovernanceDatabase)

/-- `has_successful_validation` -/
def hasSuccessfulValidation (minTrades : ℤ) (revisionId : String) : Bool :=
  db.backtestRuns.values.any (·.validates minTrades revisionId) ||
    db.experimentRuns.values.any (·.validates minTrades revisionId)

/-- The candidate's experiment is on record and of the revision. -/
def tracesTo (revisionId : String) (candidate : CandidateRow) : Bool :=
  (db.experiments.get? candidate.experimentId).any (·.revisionId = revisionId)

/-- `revision_has_candidate_lineage` -/
def revisionHasCandidateLineage (revisionId : String) : Bool :=
  db.candidates.values.any (db.tracesTo revisionId)

/-- `revision_has_champion` -/
def revisionHasChampion (revisionId : String) : Bool :=
  db.candidates.values.any fun candidate =>
    db.tracesTo revisionId candidate && candidate.state = .champion

end GovernanceDatabase

/-- `LiveGovernanceGate.allow_start` -/
def allowStart (settings : GateSettings) (db : GovernanceDatabase)
    (revisionId : Option String) : Bool :=
  if settings.environment ≠ "production" then true
  else match revisionId with
    | none => false
    | some revisionId =>
      if revisionId = "" then false
      else if (db.revisions.get? revisionId).isNone then false
      else if ¬ db.hasSuccessfulValidation settings.minTrades revisionId then false
      else if settings.requireChampionCandidate ∧ db.revisionHasCandidateLineage revisionId then
        db.revisionHasChampion revisionId
      else true

namespace GovernanceDatabase

variable {db db' : GovernanceDatabase} {call : Deletion} {minTrades : ℤ} {revisionId : String}
  {settings : GateSettings}

/-! ## The gate as a condition on the rows -/

theorem hasSuccessfulValidation_iff : db.hasSuccessfulValidation minTrades revisionId = true ↔
    (∃ id row, db.backtestRuns.get? id = some row ∧ row.validates minTrades revisionId = true) ∨
      ∃ id run, db.experimentRuns.get? id = some run ∧
        run.validates minTrades revisionId = true := by
  simp only [hasSuccessfulValidation, Bool.or_eq_true, List.any_eq_true, Dict.mem_values_iff]
  constructor
  · rintro (⟨row, ⟨id, hget⟩, h⟩ | ⟨run, ⟨id, hget⟩, h⟩)
    · exact .inl ⟨id, row, hget, h⟩
    · exact .inr ⟨id, run, hget, h⟩
  · rintro (⟨id, row, hget, h⟩ | ⟨id, run, hget, h⟩)
    · exact .inl ⟨row, ⟨id, hget⟩, h⟩
    · exact .inr ⟨run, ⟨id, hget⟩, h⟩

theorem tracesTo_iff {candidate : CandidateRow} : db.tracesTo revisionId candidate = true ↔
    ∃ row, db.experiments.get? candidate.experimentId = some row ∧ row.revisionId = revisionId := by
  simp [tracesTo, Option.any_eq_true]

theorem revisionHasCandidateLineage_iff : db.revisionHasCandidateLineage revisionId = true ↔
    ∃ candidate ∈ db.candidates.values, db.tracesTo revisionId candidate = true := by
  simp [revisionHasCandidateLineage]

theorem revisionHasChampion_iff : db.revisionHasChampion revisionId = true ↔
    ∃ candidate ∈ db.candidates.values, db.tracesTo revisionId candidate = true ∧
      candidate.state = .champion := by
  simp [revisionHasChampion]

/-- The gate in production with the champion requirement. -/
theorem allowStart_iff (hproduction : settings.environment = "production")
    (hrequire : settings.requireChampionCandidate = true) :
    allowStart settings db (some revisionId) = true ↔
      revisionId ≠ "" ∧ revisionId ∈ db.revisions.keys ∧
        db.hasSuccessfulValidation settings.minTrades revisionId = true ∧
        (db.revisionHasCandidateLineage revisionId = true →
          db.revisionHasChampion revisionId = true) := by
  rw [allowStart, if_neg (not_not.mpr hproduction), Dict.mem_keys_iff]
  by_cases hempty : revisionId = ""
  · simp [hempty]
  by_cases hrow : db.revisions.get? revisionId = none
  · simp [hrow]
  by_cases hvalid : db.hasSuccessfulValidation settings.minTrades revisionId = true
  · by_cases hlineage : db.revisionHasCandidateLineage revisionId = true <;>
      simp [hempty, hrow, hvalid, hrequire, hlineage]
  · simp [hvalid]

theorem allowStart_none (hproduction : settings.environment = "production") :
    allowStart settings db none = false := by
  rw [allowStart, if_neg (not_not.mpr hproduction)]

/-! ## Deletions and the gate -/

/-- A candidate traces back to a revision after a deletion when its experiment is left. -/
theorem Deleted.tracesTo (h : Deleted call db db') {candidate : CandidateRow} :
    db'.tracesTo revisionId candidate = true ↔
      db.tracesTo revisionId candidate = true ∧ ¬ call.Removes db candidate.experimentId := by
  rw [tracesTo_iff, tracesTo_iff]
  constructor
  · rintro ⟨row, hget, hrevision⟩
    obtain ⟨hbefore, hleft⟩ := (h.experiments _ row).mp hget
    exact ⟨⟨row, hbefore, hrevision⟩, hleft⟩
  · rintro ⟨⟨row, hget, hrevision⟩, hleft⟩
    exact ⟨row, (h.experiments _ row).mpr ⟨hget, hleft⟩, hrevision⟩

/-- A run the call leaves validates the revision. -/
def ValidatedBeside (minTrades : ℤ) (db : GovernanceDatabase) (call : Deletion)
    (revisionId : String) : Prop :=
  (∃ id row, db.backtestRuns.get? id = some row ∧ row.validates minTrades revisionId = true ∧
      ¬ call.RemovesRun id) ∨
    ∃ id run, db.experimentRuns.get? id = some run ∧ run.validates minTrades revisionId = true ∧
      ¬ call.Removes db run.experimentId

theorem Deleted.hasSuccessfulValidation (h : Deleted call db db') :
    db'.hasSuccessfulValidation minTrades revisionId = true ↔
      ValidatedBeside minTrades db call revisionId := by
  rw [hasSuccessfulValidation_iff, ValidatedBeside]
  simp only [h.backtestRuns, h.experimentRuns]
  refine or_congr ?_ ?_ <;>
    exact exists_congr fun _ => exists_congr fun _ => by rw [and_assoc, and_comm (a := ¬ _)]

theorem validated_of_validatedBeside (h : ValidatedBeside minTrades db call revisionId) :
    db.hasSuccessfulValidation minTrades revisionId = true := by
  rw [hasSuccessfulValidation_iff]
  rcases h with ⟨id, row, hget, hvalid, -⟩ | ⟨id, run, hget, hvalid, -⟩
  · exact .inl ⟨id, row, hget, hvalid⟩
  · exact .inr ⟨id, run, hget, hvalid⟩

/-- A revision that has candidates and no champion, and that a run the call leaves validates, keeps
a candidate whose experiment the call leaves. -/
def KeepsLineage (settings : GateSettings) (db : GovernanceDatabase) (call : Deletion) : Prop :=
  ∀ revisionId, revisionId ≠ "" → revisionId ∈ db.revisions.keys →
    ValidatedBeside settings.minTrades db call revisionId →
    db.revisionHasCandidateLineage revisionId = true →
    ¬ db.revisionHasChampion revisionId = true →
    ∃ candidate ∈ db.candidates.values, db.tracesTo revisionId candidate = true ∧
      ¬ call.Removes db candidate.experimentId

/-- No revision the gate blocks is let through after the call. -/
def StaysBlocked (settings : GateSettings) (db : GovernanceDatabase) (call : Deletion) : Prop :=
  ∀ revisionId, allowStart settings db revisionId = false →
    allowStart settings (db.delete call) revisionId = false

theorem staysBlocked_iff (hproduction : settings.environment = "production")
    (hrequire : settings.requireChampionCandidate = true) :
    StaysBlocked settings db call ↔ KeepsLineage settings db call := by
  have hdeleted : Deleted call db (db.delete call) := deleted_delete call
  constructor
  · intro hblocked revisionId hne hregistered hvalid hlineage hchampion
    have hbefore : allowStart settings db (some revisionId) = false := by
      rw [← Bool.not_eq_true, allowStart_iff hproduction hrequire]
      exact fun h => hchampion (h.2.2.2 hlineage)
    -- after the call every other requirement holds, so the lineage must be what blocks
    have hafter := hblocked _ hbefore
    rw [← Bool.not_eq_true, allowStart_iff hproduction hrequire] at hafter
    have hkept : (db.delete call).revisionHasCandidateLineage revisionId = true := by
      by_contra hgone
      exact hafter ⟨hne, hdeleted.revisions ▸ hregistered,
        hdeleted.hasSuccessfulValidation.mpr hvalid, fun h => absurd h hgone⟩
    obtain ⟨candidate, hmem, htraces⟩ := revisionHasCandidateLineage_iff.mp hkept
    exact ⟨candidate, hdeleted.candidates ▸ hmem, hdeleted.tracesTo.mp htraces⟩
  · intro hkeeps revisionId hbefore
    cases revisionId with
    | none => exact allowStart_none hproduction
    | some revisionId =>
      rw [← Bool.not_eq_true, allowStart_iff hproduction hrequire] at hbefore ⊢
      rintro ⟨hne, hregistered, hvalid, hlineage⟩
      rw [hdeleted.revisions] at hregistered
      rw [hdeleted.hasSuccessfulValidation] at hvalid
      refine hbefore
        ⟨hne, hregistered, validated_of_validatedBeside hvalid, fun hbeforeLineage => ?_⟩
      by_contra hchampion
      obtain ⟨candidate, hmem, htraces⟩ :=
        hkeeps revisionId hne hregistered hvalid hbeforeLineage hchampion
      have hcrowned := hlineage (revisionHasCandidateLineage_iff.mpr
        ⟨candidate, hdeleted.candidates ▸ hmem, hdeleted.tracesTo.mpr htraces⟩)
      obtain ⟨champion, hchampionMem, hchampionTraces, hstate⟩ :=
        revisionHasChampion_iff.mp hcrowned
      exact hchampion (revisionHasChampion_iff.mpr ⟨champion, hdeleted.candidates ▸ hchampionMem,
        (hdeleted.tracesTo.mp hchampionTraces).1, hstate⟩)

/-- Along a sequence of deletions no blocked revision is let through exactly when no call takes the
experiments of all candidates of a revision that has no champion and stays validated. -/
theorem along_staysBlocked_iff (hproduction : settings.environment = "production")
    (hrequire : settings.requireChampionCandidate = true) (db : GovernanceDatabase)
    (calls : List Deletion) :
    Run.Along delete (StaysBlocked settings) db calls ↔
      Run.Along delete (KeepsLineage settings) db calls :=
  Run.along_iff (I := fun _ => True) (D := fun _ _ => True) (fun _ _ _ _ _ => trivial)
    (fun _ _ _ _ => staysBlocked_iff hproduction hrequire) trivial Run.along_true

/-- The production gate with the champion requirement. -/
def strictGate : GateSettings where
  environment := "production"
  requireChampionCandidate := true
  minTrades := 50

/-- A validated revision whose only candidate is not champion. -/
def pendingChampion : GovernanceDatabase where
  revisions := Dict.empty.set "rev_1" {
    createdAt := 0
    engineConfigHash := "e"
    featuresConfigHash := "f"
    providersConfigHash := "p"
    fillModelId := some "default"
    riskLimitsHash := "r"
    label := "pending-champion"
    parentRevisionId := none
    configBundle := { engine := .map [], features := .map [], providers := ∅ } }
  experiments := Dict.empty.set "exp_1" { name := "exp", revisionId := "rev_1" }
  backtestRuns := Dict.empty.set "run_1" {
    revisionId := some "rev_1"
    totalTrades := some 100
    completedAt := some 1 }
  candidates := Dict.empty.set 1 {
    candidateId := 1
    experimentId := "exp_1"
    hypothesisId := none
    parentCandidateId := none
    state := .candidate
    createdAt := 0 }

theorem along_staysBlocked_iff_pendingChampion :
    Run.Along delete (StaysBlocked strictGate) pendingChampion [.validationRun "run_1"] ↔
      Run.Along delete (KeepsLineage strictGate) pendingChampion [.validationRun "run_1"] :=
  along_staysBlocked_iff rfl rfl pendingChampion _

/-- The gate blocks the revision until its experiment is deleted. -/
theorem not_staysBlocked_pendingChampion :
    ¬ Run.Along delete (StaysBlocked strictGate) pendingChampion [.experiment "exp_1"] := by
  rintro ⟨hblocked, -⟩
  have hbefore : allowStart strictGate pendingChampion (some "rev_1") = false := by decide +kernel
  have hafter : allowStart strictGate (pendingChampion.delete (.experiment "exp_1"))
      (some "rev_1") = true := by decide +kernel
  exact Bool.false_ne_true ((hblocked _ hbefore).symm.trans hafter)

end GovernanceDatabase

end TradingPlatform
