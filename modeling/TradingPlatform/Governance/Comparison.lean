import TradingPlatform.Engine.RejectionLog
import TradingPlatform.Lib.Matching

/-!
# The comparison of two experiments

`compare_experiments` reads the decision records of each experiment into a dictionary by their time
and counts the times at which the records it has kept differ. A record is of a market and a bar, and
an experiment may be of several markets: of the records of one bar time only the one that the
database returns last is compared.
-/

namespace TradingPlatform

/-! ## Decision records -/

/-- The columns of a decision record that a comparison is about. -/
structure ComparedRow extends DecisionRecordRow where
  decisionId : ℕ
  correlationId : CorrelationId
  stateSnapshotId : ℕ
  revisionId : Option String
  experimentId : Option String
  createdAt : ℤ

/-- A decision record with the market of the event it was made from. The table has no columns for
the market, and no function reads it. -/
structure DecisionRecord where
  symbol : String
  timeframe : String
  row : ComparedRow

/-- `persist_decision_from_event` -/
def persistDecisionFromEvent (table : List DecisionRecord) (event : EventEnvelope) :
    List DecisionRecord :=
  match event.payload with
  | .decisionMade decisionId result stateSnapshotId decisionLog =>
    if table.any (·.row.decisionId = decisionId) then table
    else table ++ [{
      symbol := event.symbol
      timeframe := event.timeframe
      row := {
        decisionId, result, stateSnapshotId
        correlationId := event.correlationId
        decisionLog := decisionLog.dump
        mode := event.mode
        revisionId := event.revisionId
        experimentId := event.experimentId
        createdAt := event.eventTime } }]
  | _ => table

/-- The records of an experiment. -/
def recordsOf (table : List DecisionRecord) (experimentId : String) : List DecisionRecord :=
  table.filter (·.row.experimentId = some experimentId)

/-- The rows that the database returns for an experiment: its records, in some order. -/
def Selected (table : List DecisionRecord) (experimentId : String) (rows : List ComparedRow) :
    Prop :=
  rows.Perm ((recordsOf table experimentId).map (·.row))

/-! ## Metrics -/

structure ComparedRun where
  status : String
  startedAt : ℤ
  completedAt : Option ℤ
  metricsSummary : Option (Dict String ℚ)

/-- `r.completed_at or r.started_at` -/
def ComparedRun.time (r : ComparedRun) : ℤ := r.completedAt.getD r.startedAt

/-- `_latest_metrics_summary`: of several latest runs the first. -/
def latestMetricsSummary (runs : List ComparedRun) : Dict String ℚ :=
  let completed := runs.filter fun r =>
    r.status = "completed" ∧ (r.metricsSummary.getD ∅).keys ≠ []
  match completed with
  | [] => ∅
  | first :: rest =>
    (rest.foldl (fun latest r => if latest.time < r.time then r else latest)
      first).metricsSummary.getD ∅

/-- `_compute_metrics_delta` -/
def computeMetricsDelta (metricsA metricsB : Dict String ℚ) : Dict String ℚ :=
  let sharedKeys := (metricsA.keys.filter (· ∈ metricsB.keys)).insertionSort (· ≤ ·)
  sharedKeys.foldl (fun delta key =>
    delta.set key (roundDigits (metricsB.getD key 0 - metricsA.getD key 0) 6)) ∅

/-! ## Decisions -/

/-- `_decision_side` -/
def decisionSide (decisionLog : StoredLog) : SignalSide := decisionLog.aggregation.side.getD .hold

/-- The rows have a different result or side. -/
def Differ (a b : ComparedRow) : Prop :=
  a.result ≠ b.result ∨ decisionSide a.decisionLog ≠ decisionSide b.decisionLog

instance (a b : ComparedRow) : Decidable (Differ a b) := inferInstanceAs (Decidable (_ ∨ _))

/-- The loop of `_diff_decisions` at one shared time. -/
def diffStep (byTimeA byTimeB : Dict ℤ ComparedRow) (counted : ℕ × List CorrelationId) (ts : ℤ) :
    ℕ × List CorrelationId :=
  match byTimeA.get? ts, byTimeB.get? ts with
  | some rowA, some rowB =>
    if Differ rowA rowB then (counted.1 + 1, counted.2 ++ [rowA.correlationId]) else counted
  | _, _ => counted

/-- `_diff_decisions` -/
def diffDecisions (decisionsA decisionsB : List ComparedRow) : ℕ × List CorrelationId :=
  let byTimeA := Dict.indexed (·.createdAt) decisionsA
  let byTimeB := Dict.indexed (·.createdAt) decisionsB
  let sharedTimes := (byTimeA.keys.filter (· ∈ byTimeB.keys)).insertionSort (· ≤ ·)
  sharedTimes.foldl (diffStep byTimeA byTimeB) (0, [])

structure ExperimentComparison where
  experimentAId : String
  experimentBId : String
  metricsDelta : Dict String ℚ := ∅
  decisionDiffCount : ℕ := 0
  significantCycles : List CorrelationId := []
  aRunCount : ℕ := 0
  bRunCount : ℕ := 0

/-- `compare_experiments`, with the rows its four queries return. -/
def compareExperiments (experimentAId experimentBId : String) (runsA runsB : List ComparedRun)
    (decisionsA decisionsB : List ComparedRow) : ExperimentComparison :=
  let metricsDelta := computeMetricsDelta (latestMetricsSummary runsA) (latestMetricsSummary runsB)
  let diff := diffDecisions decisionsA decisionsB
  { experimentAId, experimentBId, metricsDelta
    decisionDiffCount := diff.1
    significantCycles := diff.2
    aRunCount := runsA.length
    bRunCount := runsB.length }

/-! ## What is counted -/

theorem Differ.symm {a b : ComparedRow} (h : Differ a b) : Differ b a :=
  h.imp Ne.symm Ne.symm

section

variable {decisionsA decisionsB : List ComparedRow}

/-- A shared time is counted if the rows that are kept differ. -/
theorem fst_diffStep (counted : ℕ × List CorrelationId) (ts : ℤ) :
    (diffStep (Dict.indexed (·.createdAt) decisionsA) (Dict.indexed (·.createdAt) decisionsB)
      counted ts).1 = counted.1 + if Matching.Splits ComparedRow.createdAt ComparedRow.createdAt
        Differ decisionsA decisionsB ts then 1 else 0 := by
  cases hA : (Dict.indexed ComparedRow.createdAt decisionsA).get? ts with
  | none => simp [diffStep, Matching.Splits, hA]
  | some rowA =>
    cases hB : (Dict.indexed ComparedRow.createdAt decisionsB).get? ts with
    | none => simp [diffStep, Matching.Splits, hA, hB]
    | some rowB =>
      rw [diffStep, hA, hB, if_congr (Matching.splits_iff hA hB) rfl rfl]
      dsimp only
      split <;> rfl

theorem fst_foldl_diffStep (times : List ℤ) (counted : ℕ × List CorrelationId) :
    (times.foldl (diffStep (Dict.indexed (·.createdAt) decisionsA)
      (Dict.indexed (·.createdAt) decisionsB)) counted).1 =
      counted.1 + times.countP fun ts => Matching.Splits ComparedRow.createdAt
        ComparedRow.createdAt Differ decisionsA decisionsB ts := by
  induction times generalizing counted with
  | nil => rfl
  | cons ts times ih =>
    rw [List.foldl_cons, ih, fst_diffStep, List.countP_cons]
    simp only [decide_eq_true_eq]
    omega

/-- The count is the number of times under which the rows that are kept differ. -/
theorem diffDecisions_eq_count : (diffDecisions decisionsA decisionsB).1 =
    Matching.count ComparedRow.createdAt ComparedRow.createdAt Differ decisionsA decisionsB := by
  let keys := (Dict.indexed ComparedRow.createdAt decisionsA).keys.filter
    (· ∈ (Dict.indexed ComparedRow.createdAt decisionsB).keys)
  have hnodup : (keys.insertionSort (· ≤ ·)).Nodup :=
    (List.perm_insertionSort _ _).nodup_iff.mpr ((Dict.nodup _).filter _)
  have hshared : (keys.insertionSort (· ≤ ·)).toFinset =
      Matching.shared ComparedRow.createdAt ComparedRow.createdAt decisionsA decisionsB := by
    ext ts
    simp only [keys, List.mem_toFinset, List.mem_insertionSort, List.mem_filter, decide_eq_true_eq,
      Dict.mem_keys_indexed, Matching.mem_shared]
  have hfilter : (keys.insertionSort (· ≤ ·)).toFinset.filter (Matching.Splits
      ComparedRow.createdAt ComparedRow.createdAt Differ decisionsA decisionsB) =
      ((keys.insertionSort (· ≤ ·)).filter fun ts => Matching.Splits ComparedRow.createdAt
        ComparedRow.createdAt Differ decisionsA decisionsB ts).toFinset := by
    ext ts
    simp only [Finset.mem_filter, List.mem_toFinset, List.mem_filter, decide_eq_true_eq]
  have hloop := @fst_foldl_diffStep decisionsA decisionsB (keys.insertionSort (· ≤ ·)) (0, [])
  rw [zero_add] at hloop
  rw [diffDecisions, hloop, Matching.count, ← hshared, List.countP_eq_length_filter, hfilter,
    List.toFinset_card_of_nodup (hnodup.filter _)]

end

/-! ## Records by market and bar -/

/-- The market and the bar of a record. -/
def DecisionRecord.key (r : DecisionRecord) : String × String × ℤ :=
  (r.symbol, r.timeframe, r.row.createdAt)

/-- The keys recorded on both sides under which result or side differ. -/
def differingKeys (a b : List DecisionRecord) : Finset (String × String × ℤ) :=
  Matching.differing DecisionRecord.key DecisionRecord.key (fun r s => Differ r.row s.row) a b

/-- The bar times at which some records differ, of whatever markets. -/
def differingTimes (a b : List DecisionRecord) : Finset ℤ :=
  Matching.differing (·.row.createdAt) (·.row.createdAt) (fun r s => Differ r.row s.row) a b

/-- The keys recorded on both sides at these times. -/
def keysAtDifferingTimes (a b : List DecisionRecord) : Finset (String × String × ℤ) :=
  (Matching.shared DecisionRecord.key DecisionRecord.key a b).filter fun key =>
    key.2.2 ∈ differingTimes a b

/-- The comparison of two experiments counts the keys that differ, in whatever order the database
returns the rows, and whichever experiment is named first. -/
structure CountsDifferingKeys (table : List DecisionRecord) (idA idB : String) : Prop where
  counts : ∀ runsA runsB rowsA rowsB, Selected table idA rowsA → Selected table idB rowsB →
    (compareExperiments idA idB runsA runsB rowsA rowsB).decisionDiffCount =
      (differingKeys (recordsOf table idA) (recordsOf table idB)).card
  order : ∀ runsA runsB rowsA rowsB rowsA' rowsB', Selected table idA rowsA →
    Selected table idB rowsB → Selected table idA rowsA' → Selected table idB rowsB' →
    (compareExperiments idA idB runsA runsB rowsA rowsB).decisionDiffCount =
      (compareExperiments idA idB runsA runsB rowsA' rowsB').decisionDiffCount
  exchange : ∀ runsA runsB rowsA rowsB, Selected table idA rowsA → Selected table idB rowsB →
    (compareExperiments idB idA runsB runsA rowsB rowsA).decisionDiffCount =
      (compareExperiments idA idB runsA runsB rowsA rowsB).decisionDiffCount

/-- At each bar time recorded on both sides all records differ or none, and at the times of the
first kind as many keys are recorded on both sides as there are such times. -/
structure DecidedByTime (a b : List DecisionRecord) : Prop where
  settled : ∀ r ∈ a, ∀ s ∈ b, ∀ r' ∈ a, ∀ s' ∈ b, r.row.createdAt = s.row.createdAt →
    r'.row.createdAt = r.row.createdAt → s'.row.createdAt = r.row.createdAt →
      (Differ r.row s.row ↔ Differ r'.row s'.row)
  keys : (keysAtDifferingTimes a b).card = (differingTimes a b).card

section

variable {a b : List DecisionRecord}

/-- Where the records of a time agree on whether they differ, so do those of a key. -/
theorem keysAtDifferingTimes_eq
    (h : Matching.Settled (·.row.createdAt) (·.row.createdAt) (fun r s => Differ r.row s.row) a b) :
    keysAtDifferingTimes a b = differingKeys a b := by
  ext key
  rw [keysAtDifferingTimes, Finset.mem_filter, differingTimes, differingKeys,
    Matching.mem_differing, Matching.mem_differing, Matching.mem_shared]
  constructor
  · rintro ⟨⟨⟨r, hr, rfl⟩, s, hs, hkey⟩, r', hr', s', hs', htime, htime', hdiffer⟩
    have hsame : s.row.createdAt = r.row.createdAt := congrArg (·.2.2) hkey
    exact ⟨r, hr, s, hs, rfl, hkey, (h r' hr' s' hs' r hr s hs (htime.trans htime'.symm)
      htime.symm (hsame.trans htime.symm)).mp hdiffer⟩
  · rintro ⟨r, hr, s, hs, rfl, hkey, hdiffer⟩
    exact ⟨⟨⟨r, hr, rfl⟩, s, hs, hkey⟩, r, hr, s, hs, rfl, congrArg (·.2.2) hkey, hdiffer⟩

/-- The count over the rows of the records. -/
theorem count_rows_iff {n : ℕ} :
    (∀ rowsA rowsB, rowsA.Perm (a.map (·.row)) → rowsB.Perm (b.map (·.row)) →
      (diffDecisions rowsA rowsB).1 = n) ↔
      Matching.Settled (·.row.createdAt) (·.row.createdAt) (fun r s => Differ r.row s.row) a b ∧
        (differingTimes a b).card = n := by
  have hsettled : Matching.Settled ComparedRow.createdAt ComparedRow.createdAt Differ
      (a.map (·.row)) (b.map (·.row)) ↔ Matching.Settled (·.row.createdAt) (·.row.createdAt)
        (fun r s : DecisionRecord => Differ r.row s.row) a b := by
    simp only [Matching.Settled, List.forall_mem_map]
  have hdiffering : Matching.differing ComparedRow.createdAt ComparedRow.createdAt Differ
      (a.map (·.row)) (b.map (·.row)) = differingTimes a b := by
    ext ts
    simp only [differingTimes, Matching.mem_differing, List.mem_map,
      exists_exists_and_eq_and]
  simp only [diffDecisions_eq_count]
  rw [Matching.count_eq_iff, hsettled, hdiffering]

end

theorem diffDecisions_comm (decisionsA decisionsB : List ComparedRow) :
    (diffDecisions decisionsB decisionsA).1 = (diffDecisions decisionsA decisionsB).1 := by
  rw [diffDecisions_eq_count, diffDecisions_eq_count]
  exact Matching.count_comm fun _ _ => ⟨Differ.symm, Differ.symm⟩

/-- The comparison of two experiments counts the keys that differ exactly if the bar times decide
for the markets: at each time recorded in both all records differ or none, and at the times of the
first kind the experiments have as many keys in common as there are such times. -/
theorem countsDifferingKeys_iff (table : List DecisionRecord) (idA idB : String) :
    CountsDifferingKeys table idA idB ↔
      DecidedByTime (recordsOf table idA) (recordsOf table idB) := by
  constructor
  · intro h
    obtain ⟨hsettled, hcard⟩ := count_rows_iff.mp fun rowsA rowsB hA hB =>
      h.counts [] [] rowsA rowsB hA hB
    exact ⟨hsettled, (congrArg Finset.card (keysAtDifferingTimes_eq hsettled)).trans hcard.symm⟩
  · rintro ⟨hsettled, hkeys⟩
    have hcount := count_rows_iff.mpr ⟨hsettled, rfl⟩
    rw [← hkeys, keysAtDifferingTimes_eq hsettled] at hcount
    exact {
      counts := fun _ _ rowsA rowsB hA hB => hcount rowsA rowsB hA hB
      order := fun _ _ rowsA rowsB rowsA' rowsB' hA hB hA' hB' =>
        (hcount rowsA rowsB hA hB).trans (hcount rowsA' rowsB' hA' hB').symm
      exchange := fun _ _ rowsA rowsB _ _ => diffDecisions_comm rowsA rowsB }

/-! ## Two markets at one time -/

/-- The `DECISION_MADE` event of an experiment for the bar of a market at time 0. -/
def madeEvent (experimentId symbol : String) (decisionId : ℕ) (result : ResultValue)
    (side : SignalSide) : EventEnvelope where
  eventId := decisionId
  eventTime := 0
  processingTime := 0
  correlationId := .given ("live_" ++ symbol)
  causationId := none
  symbol := symbol
  timeframe := "1h"
  mode := .live
  revisionId := none
  experimentId := some experimentId
  payload := .decisionMade decisionId result 0 {
    marketFilter := { passed := true, reason := none, details := [] }
    providerSignals := []
    aggregation := { method := "weighted_vote", side, confidence := 1, weights := ∅, dissent := [] }
    riskCheck := { passed := true, checks := [], stateSnapshotId := 0, riskStateVersion := 0 }
    stateSnapshotId := 0
    portfolioVersion := 0
    riskStateVersion := 0 }

/-- Two experiments on BTC and ETH, the second of which also buys ETH. -/
def twoMarkets : List DecisionRecord :=
  [madeEvent "a" "BTC/USDT" 0 .approved .buy, madeEvent "a" "ETH/USDT" 1 .rejected .hold,
    madeEvent "b" "BTC/USDT" 2 .approved .buy,
    madeEvent "b" "ETH/USDT" 3 .approved .buy].foldl persistDecisionFromEvent []

/-- Each experiment has one record for each market; one key differs, and with BTC returned last
none is counted. -/
theorem not_countsDifferingKeys :
    ((recordsOf twoMarkets "a").map DecisionRecord.key).Nodup ∧
      ((recordsOf twoMarkets "b").map DecisionRecord.key).Nodup ∧
      differingKeys (recordsOf twoMarkets "a") (recordsOf twoMarkets "b") =
        {("ETH/USDT", "1h", 0)} ∧
      (diffDecisions ((recordsOf twoMarkets "a").map (·.row)).reverse
        ((recordsOf twoMarkets "b").map (·.row)).reverse).1 = 0 ∧
      ¬ CountsDifferingKeys twoMarkets "a" "b" := by
  have hkeys : differingKeys (recordsOf twoMarkets "a") (recordsOf twoMarkets "b") =
      {("ETH/USDT", "1h", 0)} := by decide +kernel
  have hcount : (diffDecisions ((recordsOf twoMarkets "a").map (·.row)).reverse
      ((recordsOf twoMarkets "b").map (·.row)).reverse).1 = 0 := by decide +kernel
  refine ⟨by decide +kernel, by decide +kernel, hkeys, hcount, fun h => ?_⟩
  have hcounts := h.counts [] [] _ _ (List.reverse_perm _) (List.reverse_perm _)
  rw [hkeys] at hcounts
  exact absurd (hcount.symm.trans hcounts) (by decide)

end TradingPlatform
