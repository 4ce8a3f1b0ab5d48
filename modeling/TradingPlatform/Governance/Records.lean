import TradingPlatform.Governance.Candidates
import TradingPlatform.Lib.Yaml

/-!
# The governance records and their deletion

The tables the live gate reads: configuration revisions, experiments and their runs, validation runs
and candidates. The key of a table is its primary key. No table has a foreign key, so a row is
deleted by the statement that names it only.
-/

namespace TradingPlatform

/-! ## Rows -/

structure ConfigBundle where
  engine : Yaml
  features : Yaml
  providers : Dict String Yaml

structure ConfigRevisionRow where
  createdAt : ℤ
  engineConfigHash : String
  featuresConfigHash : String
  providersConfigHash : String
  fillModelId : Option String
  riskLimitsHash : String
  label : String
  parentRevisionId : Option String
  configBundle : ConfigBundle

structure ExperimentRow where
  name : String
  revisionId : String
  status : String := "running"
  mode : String := "validation"

structure ExperimentRunRow where
  experimentId : String
  revisionId : String
  status : String
  /-- `metrics_summary["total_trades"]` -/
  totalTrades : Option ℚ
  completedAt : Option ℤ

structure BacktestRunRow where
  /-- `config["revision_id"]` -/
  revisionId : Option String
  /-- `metrics["outcome"]["total_trades"]` -/
  totalTrades : Option ℤ
  completedAt : Option ℤ

structure SimulatedTradeRow where
  runId : String
  pnl : ℚ

structure GovernanceDatabase where
  revisions : Dict String ConfigRevisionRow := ∅
  experiments : Dict String ExperimentRow := ∅
  experimentRuns : Dict String ExperimentRunRow := ∅
  backtestRuns : Dict String BacktestRunRow := ∅
  simulatedTrades : Dict String SimulatedTradeRow := ∅
  candidates : Dict ℕ CandidateRow := ∅

namespace GovernanceDatabase

variable (db : GovernanceDatabase)

/-! ## Deletion -/

/-- `delete_experiment` -/
def deleteExperiment (experimentId : String) : Bool × GovernanceDatabase :=
  match db.experiments.get? experimentId with
  | none => (false, db)
  | some _ => (true, { db with
      experimentRuns := db.experimentRuns.filter fun _ run => run.experimentId ≠ experimentId
      experiments := db.experiments.erase experimentId })

/-- The variables of the loop of `delete_experiments`. -/
structure DeletionLoop where
  db : GovernanceDatabase
  deleted : List String := []
  notFound : List String := []
  skipped : List String := []
  seen : List String := []

def DeletionLoop.step (skipIds : List String) (loop : DeletionLoop) (experimentId : String) :
    DeletionLoop :=
  if experimentId ∈ loop.seen then loop
  else
    let loop := { loop with seen := loop.seen ++ [experimentId] }
    if experimentId ∈ skipIds then { loop with skipped := loop.skipped ++ [experimentId] }
    else match loop.db.deleteExperiment experimentId with
      | (true, db) => { loop with db, deleted := loop.deleted ++ [experimentId] }
      | (false, db) => { loop with db, notFound := loop.notFound ++ [experimentId] }

/-- `delete_experiments`, with the identifiers deleted, not found and skipped. -/
def deleteExperiments (experimentIds skipIds : List String) : DeletionLoop :=
  experimentIds.foldl (DeletionLoop.step skipIds) { db }

/-- `delete_validation_run` -/
def deleteValidationRun (runId : String) : Bool × GovernanceDatabase :=
  match db.backtestRuns.get? runId with
  | none => (false, db)
  | some _ => (true, { db with
      simulatedTrades := db.simulatedTrades.filter fun _ trade => trade.runId ≠ runId
      backtestRuns := db.backtestRuns.erase runId })

/-- A call that deletes records. -/
inductive Deletion
  | experiment (experimentId : String)
  | experiments (experimentIds skipIds : List String)
  | validationRun (runId : String)

def delete : Deletion → GovernanceDatabase
  | .experiment experimentId => (db.deleteExperiment experimentId).2
  | .experiments experimentIds skipIds => (db.deleteExperiments experimentIds skipIds).db
  | .validationRun runId => (db.deleteValidationRun runId).2

/-- The experiments a call takes away. -/
def Deletion.Removes (db : GovernanceDatabase) : Deletion → String → Prop
  | .experiment experimentId, id => id = experimentId ∧ id ∈ db.experiments.keys
  | .experiments experimentIds skipIds, id =>
    id ∈ experimentIds ∧ id ∉ skipIds ∧ id ∈ db.experiments.keys
  | .validationRun _, _ => False

/-- The validation run a call takes away. -/
def Deletion.RemovesRun : Deletion → String → Prop
  | .validationRun runId, id => id = runId
  | _, _ => False

/-! ## What a deletion leaves -/

variable {db} {db' : GovernanceDatabase} {gone : String → Prop} {experimentId : String}

/-- The experiments in `gone` and their runs are away, all other records are left. -/
structure Leaves (gone : String → Prop) (db db' : GovernanceDatabase) : Prop where
  experiments : ∀ id row, db'.experiments.get? id = some row ↔
    db.experiments.get? id = some row ∧ ¬ gone id
  experimentRuns : ∀ id run, db'.experimentRuns.get? id = some run ↔
    db.experimentRuns.get? id = some run ∧ ¬ gone run.experimentId
  revisions : db'.revisions = db.revisions
  candidates : db'.candidates = db.candidates
  backtestRuns : db'.backtestRuns = db.backtestRuns

theorem Leaves.refl : Leaves (fun _ => False) db db where
  experiments := by simp
  experimentRuns := by simp
  revisions := rfl
  candidates := rfl
  backtestRuns := rfl

theorem Leaves.trans {db'' : GovernanceDatabase} {gone' : String → Prop} (h : Leaves gone db db')
    (h' : Leaves gone' db' db'') : Leaves (fun id => gone id ∨ gone' id) db db'' where
  experiments id row := by rw [h'.experiments, h.experiments, not_or, and_assoc]
  experimentRuns id run := by rw [h'.experimentRuns, h.experimentRuns, not_or, and_assoc]
  revisions := h'.revisions.trans h.revisions
  candidates := h'.candidates.trans h.candidates
  backtestRuns := h'.backtestRuns.trans h.backtestRuns

theorem Leaves.congr {gone' : String → Prop} (h : Leaves gone db db')
    (hgone : ∀ id, gone id ↔ gone' id) : Leaves gone' db db' where
  experiments id row := by rw [h.experiments, hgone]
  experimentRuns id run := by rw [h.experimentRuns, hgone]
  revisions := h.revisions
  candidates := h.candidates
  backtestRuns := h.backtestRuns

theorem leaves_deleteExperiment :
    Leaves (fun id => id = experimentId ∧ id ∈ db.experiments.keys) db
      (db.deleteExperiment experimentId).2 := by
  cases hrow : db.experiments.get? experimentId with
  | none =>
    rw [deleteExperiment, hrow]
    refine Leaves.refl.congr fun id => ⟨nofun, ?_⟩
    rintro ⟨rfl, hmem⟩
    exact Dict.mem_keys_iff.mp hmem hrow
  | some row =>
    have hmem : experimentId ∈ db.experiments.keys := Dict.mem_keys_iff.mpr (by simp [hrow])
    suffices h : Leaves (· = experimentId) db (db.deleteExperiment experimentId).2 from
      h.congr fun id => ⟨fun heq => ⟨heq, heq ▸ hmem⟩, And.left⟩
    rw [deleteExperiment, hrow]
    refine { revisions := rfl, candidates := rfl, backtestRuns := rfl, experimentRuns := ?_,
             experiments := ?_ }
    · intro id row
      by_cases hid : experimentId = id
      · subst hid
        simp [Dict.get?_erase_self]
      · simp [Dict.get?_erase_of_ne hid, Ne.symm hid]
    · intro id run
      simp [Dict.get?_filter]

/-- After some of the identifiers the loop has deleted those it found and was not told to skip. -/
structure DeletionLoop.Inv (db : GovernanceDatabase) (skipIds : List String)
    (loop : DeletionLoop) : Prop where
  leaves : Leaves (· ∈ loop.deleted) db loop.db
  deleted : ∀ id, id ∈ loop.deleted ↔ id ∈ loop.seen ∧ id ∉ skipIds ∧ id ∈ db.experiments.keys

theorem DeletionLoop.Inv.step {skipIds : List String} {loop : DeletionLoop}
    (h : loop.Inv db skipIds) (experimentId : String) :
    (loop.step skipIds experimentId).Inv db skipIds ∧
      ∀ id, id ∈ (loop.step skipIds experimentId).seen ↔ id ∈ loop.seen ∨ id = experimentId := by
  by_cases hseen : experimentId ∈ loop.seen
  · rw [DeletionLoop.step, if_pos hseen]
    exact ⟨h, fun id => ⟨.inl, fun hid => hid.elim (fun hid => hid) fun hid => hid ▸ hseen⟩⟩
  rw [DeletionLoop.step, if_neg hseen]
  by_cases hskip : experimentId ∈ skipIds
  · rw [if_pos hskip]
    refine ⟨⟨h.leaves, fun id => ?_⟩, by simp⟩
    rw [h.deleted id]
    by_cases hid : id = experimentId <;> simp [hid, hseen, hskip]
  rw [if_neg hskip]
  have hkept : experimentId ∉ loop.deleted := fun hmem => hseen ((h.deleted _).mp hmem).1
  have hkeys : experimentId ∈ loop.db.experiments.keys ↔ experimentId ∈ db.experiments.keys := by
    rw [Dict.mem_keys_iff, Dict.mem_keys_iff, Option.ne_none_iff_exists',
      Option.ne_none_iff_exists']
    exact exists_congr fun row => by simp [h.leaves.experiments, hkept]
  have hleaves := h.leaves.trans
    (leaves_deleteExperiment : Leaves _ loop.db (loop.db.deleteExperiment experimentId).2)
  cases hrow : loop.db.experiments.get? experimentId with
  | none =>
    have hnone : experimentId ∉ db.experiments.keys := fun hmem =>
      Dict.mem_keys_iff.mp (hkeys.mpr hmem) hrow
    simp only [deleteExperiment, hrow]
    refine ⟨⟨h.leaves, fun id => ?_⟩, by simp⟩
    rw [h.deleted id]
    by_cases hid : id = experimentId <;> simp [hid, hseen, hnone]
  | some row =>
    have hsome : experimentId ∈ db.experiments.keys :=
      hkeys.mp (Dict.mem_keys_iff.mpr (by simp [hrow]))
    simp only [deleteExperiment, hrow] at hleaves ⊢
    refine ⟨⟨hleaves.congr fun id => ?_, fun id => ?_⟩, by simp⟩
    · rw [List.mem_append, List.mem_singleton]
      exact or_congr_right ⟨And.left, fun hid => ⟨hid, hid ▸ hkeys.mpr hsome⟩⟩
    · rw [List.mem_append, h.deleted id]
      by_cases hid : id = experimentId <;> simp [hid, hseen, hskip, hsome]

theorem leaves_deleteExperiments {experimentIds skipIds : List String} :
    Leaves (fun id => id ∈ experimentIds ∧ id ∉ skipIds ∧ id ∈ db.experiments.keys) db
      (db.deleteExperiments experimentIds skipIds).db := by
  have hloop : ∀ (loop : DeletionLoop), loop.Inv db skipIds →
      let final := experimentIds.foldl (DeletionLoop.step skipIds) loop
      final.Inv db skipIds ∧ ∀ id, id ∈ final.seen ↔ id ∈ loop.seen ∨ id ∈ experimentIds := by
    induction experimentIds with
    | nil => exact fun loop h => ⟨h, by simp⟩
    | cons experimentId rest ih =>
      intro loop h
      obtain ⟨hstep, hseen⟩ := h.step experimentId
      obtain ⟨hfinal, hall⟩ := ih _ hstep
      refine ⟨hfinal, fun id => ?_⟩
      rw [List.foldl_cons, hall, hseen, List.mem_cons, or_assoc]
  obtain ⟨hinv, hseen⟩ := hloop { db } ⟨Leaves.refl.congr (by simp), by simp⟩
  refine hinv.leaves.congr fun id => ?_
  rw [hinv.deleted, hseen]
  simp

/-- The records after a deletion. -/
structure Deleted (call : Deletion) (db db' : GovernanceDatabase) : Prop where
  experiments : ∀ id row, db'.experiments.get? id = some row ↔
    db.experiments.get? id = some row ∧ ¬ call.Removes db id
  experimentRuns : ∀ id run, db'.experimentRuns.get? id = some run ↔
    db.experimentRuns.get? id = some run ∧ ¬ call.Removes db run.experimentId
  backtestRuns : ∀ id row, db'.backtestRuns.get? id = some row ↔
    db.backtestRuns.get? id = some row ∧ ¬ call.RemovesRun id
  revisions : db'.revisions = db.revisions
  candidates : db'.candidates = db.candidates

theorem Leaves.toDeleted {call : Deletion} (h : Leaves (call.Removes db) db db')
    (hrun : ∀ id, ¬ call.RemovesRun id) : Deleted call db db' where
  experiments := h.experiments
  experimentRuns := h.experimentRuns
  backtestRuns id row := by simp [h.backtestRuns, hrun]
  revisions := h.revisions
  candidates := h.candidates

theorem deleted_delete (call : Deletion) : Deleted call db (db.delete call) := by
  cases call with
  | experiment experimentId =>
    have h : Leaves (Deletion.Removes db (.experiment experimentId)) db
      (db.delete (.experiment experimentId)) := leaves_deleteExperiment
    exact h.toDeleted fun _ hrun => hrun
  | experiments experimentIds skipIds =>
    have h : Leaves (Deletion.Removes db (.experiments experimentIds skipIds)) db
      (db.delete (.experiments experimentIds skipIds)) := leaves_deleteExperiments
    exact h.toDeleted fun _ hrun => hrun
  | validationRun runId =>
    cases hrow : db.backtestRuns.get? runId with
    | none =>
      rw [delete, deleteValidationRun, hrow]
      refine { revisions := rfl, candidates := rfl, experiments := ?_, experimentRuns := ?_,
               backtestRuns := ?_ }
      · simp [Deletion.Removes]
      · simp [Deletion.Removes]
      · rintro id row
        refine ⟨fun hget => ⟨hget, ?_⟩, And.left⟩
        rintro rfl
        cases hrow.symm.trans hget
    | some row =>
      rw [delete, deleteValidationRun, hrow]
      refine { revisions := rfl, candidates := rfl, experiments := ?_, experimentRuns := ?_,
               backtestRuns := ?_ }
      · simp [Deletion.Removes]
      · simp [Deletion.Removes]
      · intro id row
        by_cases hid : runId = id
        · subst hid
          simp [Deletion.RemovesRun, Dict.get?_erase_self]
        · simp [Deletion.RemovesRun, Dict.get?_erase_of_ne hid, Ne.symm hid]

end GovernanceDatabase

end TradingPlatform
