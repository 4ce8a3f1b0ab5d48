import TradingPlatform.Governance.Candidates

/-!
# Candidates in office

A challenger or a champion is a candidate in office. Where every promotion asks for an accepted
evaluation and no two evaluations are of one time, whoever is in office was accepted by its most
recent evaluation: a promotion reads that evaluation, and an evaluation that supersedes it either
accepts again or removes the candidate from office.
-/

namespace TradingPlatform

/-- A state only an accepted evaluation leads to. -/
def CandidateState.InOffice (state : CandidateState) : Prop :=
  state = .challenger ∨ state = .champion

namespace CandidateOp

variable {Params : Type}

/-- A promotion keeps the default `require_accepted_evaluation=True`. -/
def RequiresAcceptance : CandidateOp Params → Prop
  | .promote _ _ required => required = true
  | _ => True

/-- The creation time an evaluation carries. -/
def evaluatedAt? : CandidateOp Params → Option ℤ
  | .evaluate _ _ _ now => some now
  | _ => none

end CandidateOp

namespace CandidateStore

variable {Params : Type} {store store' : CandidateStore} {op : CandidateOp Params}
  {candidateId uuid : ℕ}

/-! ## The most recent evaluation -/

/-- The candidate has been evaluated, and its most recent evaluation has accepted it. -/
def Endorsed (store : CandidateStore) (candidateId : ℕ) : Prop :=
  ∃ evaluation ∈ store.evaluations.values, evaluation.candidateId = candidateId ∧
    evaluation.decision = .accepted ∧
    ∀ other ∈ store.evaluations.values, other.candidateId = candidateId → other ≠ evaluation →
      other.createdAt < evaluation.createdAt

/-- No two evaluations are of one time. -/
def Dated (store : CandidateStore) : Prop :=
  ∀ evaluation ∈ store.evaluations.values, ∀ other ∈ store.evaluations.values,
    evaluation.createdAt = other.createdAt → evaluation = other

/-- Every evaluation on record is older than the one an operation carries out. -/
def Later (store : CandidateStore) (op : CandidateOp Params) : Prop :=
  ∀ now, op.evaluatedAt? = some now → ∀ evaluation ∈ store.evaluations.values,
    evaluation.createdAt < now

/-- Every candidate in office is endorsed. -/
def OfficeEndorsed (store : CandidateStore) : Prop :=
  ∀ id row, store.candidates.get? id = some row → row.state.InOffice → store.Endorsed id

theorem mem_listCandidateEvaluations {evaluation : CandidateEvaluationRow} :
    evaluation ∈ store.listCandidateEvaluations candidateId ↔
      evaluation ∈ store.evaluations.values ∧ evaluation.candidateId = candidateId := by
  simp [listCandidateEvaluations]

/-- The first of the listed evaluations is the most recent one. -/
theorem endorsed_of_lastAccepted (hdated : store.Dated)
    (h : store.lastAccepted candidateId = true) : store.Endorsed candidateId := by
  rw [lastAccepted, Option.any_eq_true_iff_get] at h
  obtain ⟨hsome, haccepted⟩ := h
  obtain ⟨evaluation, hhead⟩ := Option.isSome_iff_exists.mp hsome
  have hmem := mem_listCandidateEvaluations.mp (List.mem_of_mem_head? hhead)
  refine ⟨evaluation, hmem.1, hmem.2, by simpa [hhead] using haccepted, ?_⟩
  intro other hother hid hne
  have hsorted : (store.listCandidateEvaluations candidateId).Pairwise
      fun a b => b.createdAt ≤ a.createdAt := by
    have : Std.Total fun a b : CandidateEvaluationRow => b.createdAt ≤ a.createdAt :=
      ⟨fun a b => le_total b.createdAt a.createdAt⟩
    have : IsTrans CandidateEvaluationRow fun a b => b.createdAt ≤ a.createdAt :=
      ⟨fun _ _ _ hab hbc => hbc.trans hab⟩
    exact List.pairwise_insertionSort _ _
  obtain ⟨rest, hlist⟩ := List.head?_eq_some_iff.mp hhead
  have hlisted := mem_listCandidateEvaluations.mpr ⟨hother, hid⟩
  rw [hlist] at hsorted hlisted
  have hle := List.rel_of_pairwise_cons hsorted ((List.mem_cons.mp hlisted).resolve_left hne)
  exact lt_of_le_of_ne hle fun heq => hne (hdated other hother evaluation hmem.1 heq)

theorem Endorsed.congr (h : store.Endorsed candidateId)
    (hsame : store'.evaluations = store.evaluations) : store'.Endorsed candidateId := by
  rw [Endorsed, hsame]
  exact h

/-! ## What an operation does to the evaluations -/

theorem step_create_evaluations {experimentId : String}
    {hypothesisId parentCandidateId : Option String} {now : ℤ} :
    (store.step (.create uuid experimentId hypothesisId parentCandidateId now :
      CandidateOp Params)).evaluations = store.evaluations := by
  simp only [step, createCandidate]
  by_cases hnew : uuid ∈ store.candidates.keys <;> simp [hnew]

theorem step_promote_evaluations {toState : String} {required : Bool} :
    (store.step (.promote candidateId toState required : CandidateOp Params)).evaluations =
      store.evaluations := by
  cases hrow : store.candidates.get? candidateId with
  | none => simp only [step, promoteCandidate, hrow]
  | some row =>
  cases hfind : (validTransitions row.state).find? (·.literal = toState) with
  | none => simp only [step, promoteCandidate, hrow, hfind]
  | some state =>
    by_cases hguarded : required = true ∧ (state = .challenger ∨ state = .champion)
    · by_cases hlast : store.lastAccepted candidateId = true
      · simp only [step, promoteCandidate, hrow, hfind, hguarded, hlast]
        by_cases hcrown : state = .champion <;> simp [hcrown, setState, archiveChampions]
      · simp [step, promoteCandidate, hrow, hfind, hguarded, hlast]
    · simp only [step, promoteCandidate, hrow, hfind, hguarded, if_false, setState]

/-- A new evaluation is on record beside the earlier ones, and a rejected candidate is marked. -/
structure Records (store store' : CandidateStore) (uuid candidateId : ℕ)
    (decision : EvaluationDecision) (now : ℤ) : Prop where
  new : uuid ∉ store.evaluations.keys
  evaluations : ∃ row : CandidateEvaluationRow, row.candidateId = candidateId ∧
    row.decision = decision ∧ row.createdAt = now ∧
    store'.evaluations = store.evaluations.set uuid row
  accepted : decision = .accepted → store'.candidates = store.candidates
  rejected : decision = .rejected → ∃ row, store.candidates.get? candidateId = some row ∧
    store'.candidates = store.candidates.set candidateId { row with state := .rejected }

/-- An evaluation is recorded, or the call has raised or found no candidate. -/
theorem step_evaluate_cases {result : OptimizationResult Params} {now : ℤ} :
    store.step (.evaluate uuid candidateId result now) = store ∨
      Records store (store.step (.evaluate uuid candidateId result now)) uuid candidateId
        (evaluateCandidate result).2.1 now := by
  cases hrow : store.candidates.get? candidateId with
  | none => exact .inl (by simp only [step, runCandidateEvaluation, hrow])
  | some row =>
    by_cases hnew : uuid ∈ store.evaluations.keys
    · exact .inl (by simp only [step, runCandidateEvaluation, hrow, hnew, if_true])
    · have hset : (store.step (.evaluate uuid candidateId result now)).evaluations =
          store.evaluations.set uuid {
            candidateId
            checks := (evaluateCandidate result).1
            decision := (evaluateCandidate result).2.1
            decisionReason := (evaluateCandidate result).2.2
            evaluationId := uuid
            createdAt := now } := by
        simp only [step, runCandidateEvaluation, hrow, hnew, if_false]
        split <;> rfl
      refine .inr {
        new := hnew
        evaluations := ⟨_, rfl, rfl, rfl, hset⟩
        accepted := ?_
        rejected := ?_ }
      · intro hdecision
        simp only [step, runCandidateEvaluation, hrow, hnew, if_false, hdecision, reduceCtorEq]
      · exact fun hdecision => ⟨row, hrow, step_evaluate_rejected hrow hnew hdecision⟩

/-- The evaluations on record are the earlier ones and the new one. -/
theorem Records.mem_values {decision : EvaluationDecision} {now : ℤ}
    (h : Records store store' uuid candidateId decision now) :
    ∃ row : CandidateEvaluationRow, row.candidateId = candidateId ∧ row.decision = decision ∧
      row.createdAt = now ∧ ∀ evaluation, evaluation ∈ store'.evaluations.values ↔
        evaluation = row ∨ evaluation ∈ store.evaluations.values := by
  obtain ⟨row, hid, hdecision, hnow, hset⟩ := h.evaluations
  refine ⟨row, hid, hdecision, hnow, fun evaluation => ?_⟩
  rw [hset, Dict.mem_values_iff, Dict.mem_values_iff]
  constructor
  · rintro ⟨k, hk⟩
    rw [Dict.get?_set] at hk
    split at hk
    · exact .inl (Option.some.inj hk).symm
    · exact .inr ⟨k, hk⟩
  · rintro (rfl | ⟨k, hk⟩)
    · exact ⟨uuid, Dict.get?_set_self⟩
    · have hne : uuid ≠ k := by
        rintro rfl
        exact h.new (Dict.mem_keys_iff.mpr (by simp [hk]))
      exact ⟨k, by rw [Dict.get?_set_of_ne hne, hk]⟩

/-- Every evaluation on record after an operation was there before, or is its own. -/
theorem of_mem_step_evaluations {evaluation : CandidateEvaluationRow}
    (h : evaluation ∈ (store.step op).evaluations.values) :
    evaluation ∈ store.evaluations.values ∨ op.evaluatedAt? = some evaluation.createdAt := by
  cases op with
  | create => exact .inl (by rwa [step_create_evaluations] at h)
  | promote => exact .inl (by rwa [step_promote_evaluations] at h)
  | evaluate uuid candidateId result now =>
    obtain hsame | hrecords : store.step (.evaluate uuid candidateId result now) = store ∨ _ :=
      step_evaluate_cases
    · exact .inl (hsame ▸ h)
    · obtain ⟨row, -, -, hnow, hmem⟩ := hrecords.mem_values
      rcases (hmem evaluation).mp h with rfl | hold
      · exact .inr (by rw [hnow]; rfl)
      · exact .inl hold

/-! ## The invariant -/

theorem Records.dated {decision : EvaluationDecision} {now : ℤ}
    (h : Records store store' uuid candidateId decision now) (hdated : store.Dated)
    (hlater : ∀ evaluation ∈ store.evaluations.values, evaluation.createdAt < now) :
    store'.Dated := by
  obtain ⟨row, -, -, rfl, hmem⟩ := h.mem_values
  intro a ha b hb htime
  rcases (hmem a).mp ha with rfl | ha <;> rcases (hmem b).mp hb with rfl | hb
  · rfl
  · exact absurd htime (hlater b hb).ne'
  · exact absurd htime (hlater a ha).ne
  · exact hdated a ha b hb htime

/-- The new evaluation of a candidate is its most recent one. -/
theorem Records.endorsed {now : ℤ}
    (h : Records store store' uuid candidateId .accepted now)
    (hlater : ∀ evaluation ∈ store.evaluations.values, evaluation.createdAt < now) :
    store'.Endorsed candidateId := by
  obtain ⟨row, hid, hdecision, rfl, hmem⟩ := h.mem_values
  refine ⟨row, (hmem row).mpr (.inl rfl), hid, hdecision, fun other hother _ hne => ?_⟩
  exact hlater other (((hmem other).mp hother).resolve_left hne)

/-- The evaluation of one candidate leaves the others endorsed. -/
theorem Records.endorsed_of_ne {decision : EvaluationDecision} {now : ℤ} {id : ℕ}
    (h : Records store store' uuid candidateId decision now) (hne : candidateId ≠ id)
    (hendorsed : store.Endorsed id) : store'.Endorsed id := by
  obtain ⟨row, hid, -, -, hmem⟩ := h.mem_values
  obtain ⟨evaluation, hevaluation, hof, haccepted, hlast⟩ := hendorsed
  refine ⟨evaluation, (hmem evaluation).mpr (.inr hevaluation), hof, haccepted, ?_⟩
  intro other hother hotherId
  rcases (hmem other).mp hother with rfl | hold
  · exact absurd (hid.symm.trans hotherId) hne
  · exact hlast other hold hotherId

theorem Records.officeEndorsed {decision : EvaluationDecision} {now : ℤ}
    (h : Records store store' uuid candidateId decision now) (hoffice : store.OfficeEndorsed)
    (hlater : ∀ evaluation ∈ store.evaluations.values, evaluation.createdAt < now) :
    store'.OfficeEndorsed := by
  intro id row hrow hin
  by_cases hid : candidateId = id
  · subst hid
    cases decision with
    | accepted => exact h.endorsed hlater
    | rejected =>
      -- a rejected candidate has left its office
      obtain ⟨before, -, hset⟩ := h.rejected rfl
      rw [hset, Dict.get?_set_self] at hrow
      cases hrow
      rcases hin with hin | hin <;> cases hin
  · refine h.endorsed_of_ne hid (hoffice id row ?_ hin)
    cases decision with
    | accepted => rw [← h.accepted rfl, hrow]
    | rejected =>
      obtain ⟨before, -, hset⟩ := h.rejected rfl
      rwa [hset, Dict.get?_set_of_ne hid] at hrow

/-- Archiving the champions brings nobody into office. -/
theorem get?_of_archiveChampions {id : ℕ} {row : CandidateRow}
    (hrow : store.archiveChampions.candidates.get? id = some row) (hin : row.state.InOffice) :
    store.candidates.get? id = some row := by
  rw [archiveChampions, Dict.get?_map] at hrow
  obtain ⟨before, hbefore, rfl⟩ := Option.map_eq_some_iff.mp hrow
  split at hin
  · rcases hin with hin | hin <;> cases hin
  · next hne => rw [if_neg hne, hbefore]

/-- Whoever a promotion finds or brings into office was there before, or is accepted. -/
theorem of_step_promote {toState : String} {id : ℕ} {row : CandidateRow}
    (hrow : (store.step (.promote candidateId toState true :
      CandidateOp Params)).candidates.get? id = some row) (hin : row.state.InOffice) :
    store.candidates.get? id = some row ∨ store.lastAccepted id = true := by
  have hset : ∀ {before : CandidateRow} {state : CandidateState} {inner : CandidateStore},
      (state.InOffice → store.lastAccepted candidateId = true) →
      (inner.candidates.get? id = some row → store.candidates.get? id = some row) →
      (inner.setState candidateId before state).candidates.get? id = some row →
      store.candidates.get? id = some row ∨ store.lastAccepted id = true := by
    intro before state inner haccepted hinner hget
    rw [setState, Dict.get?_set] at hget
    split at hget
    · next hid =>
      cases hget
      exact .inr (hid ▸ haccepted hin)
    · exact .inl (hinner hget)
  cases hbefore : store.candidates.get? candidateId with
  | none => exact .inl (by simpa only [step, promoteCandidate, hbefore] using hrow)
  | some before =>
  cases hfind : (validTransitions before.state).find? (·.literal = toState) with
  | none => exact .inl (by simpa only [step, promoteCandidate, hbefore, hfind] using hrow)
  | some state =>
    by_cases hguarded : state = .challenger ∨ state = .champion
    · by_cases hlast : store.lastAccepted candidateId = true
      · simp only [step, promoteCandidate, hbefore, hfind, hguarded, hlast] at hrow
        refine hset (fun _ => hlast) ?_ hrow
        split
        · exact fun hget => get?_of_archiveChampions hget hin
        · exact fun hget => hget
      · exact .inl (by simpa [step, promoteCandidate, hbefore, hfind, hguarded, hlast] using hrow)
    · simp only [step, promoteCandidate, hbefore, hfind, hguarded, and_false, if_false] at hrow
      exact hset (fun h => absurd h hguarded) (fun h => h) hrow

theorem dated_step (hdated : store.Dated) (hlater : store.Later op) : (store.step op).Dated := by
  cases op with
  | create => rwa [Dated, step_create_evaluations]
  | promote => rwa [Dated, step_promote_evaluations]
  | evaluate uuid candidateId result now =>
    obtain hsame | hrecords : store.step (.evaluate uuid candidateId result now) = store ∨ _ :=
      step_evaluate_cases
    · rwa [hsame]
    · exact hrecords.dated hdated (hlater now rfl)

theorem officeEndorsed_step (hdated : store.Dated) (hoffice : store.OfficeEndorsed)
    (hrequired : op.RequiresAcceptance) (hlater : store.Later op) :
    (store.step op).OfficeEndorsed := by
  cases op with
  | create uuid experimentId hypothesisId parentCandidateId now =>
    intro id row hrow hin
    refine (hoffice id row ?_ hin).congr step_create_evaluations
    by_cases hnew : uuid ∈ store.candidates.keys
    · simpa only [step, createCandidate, if_pos hnew] using hrow
    · simp only [step, createCandidate, if_neg hnew, Dict.get?_set] at hrow
      split at hrow
      · cases hrow
        rcases hin with hin | hin <;> cases hin
      · exact hrow
  | evaluate uuid candidateId result now =>
    obtain hsame | hrecords : store.step (.evaluate uuid candidateId result now) = store ∨ _ :=
      step_evaluate_cases
    · rwa [hsame]
    · exact hrecords.officeEndorsed hoffice (hlater now rfl)
  | promote candidateId toState required =>
    cases (hrequired : required = true)
    intro id row hrow hin
    refine Endorsed.congr ?_ step_promote_evaluations
    rcases of_step_promote hrow hin with hbefore | hlast
    · exact hoffice id row hbefore hin
    · exact endorsed_of_lastAccepted hdated hlast

/-- Evaluations with strictly increasing times are each later than those on record. -/
theorem along_later {ops : List (CandidateOp Params)}
    (htimes : (ops.filterMap CandidateOp.evaluatedAt?).Pairwise (· < ·))
    (hbefore : ∀ evaluation ∈ store.evaluations.values,
      ∀ time ∈ ops.filterMap CandidateOp.evaluatedAt?, evaluation.createdAt < time) :
    Run.Along step Later store ops := by
  induction ops generalizing store with
  | nil => trivial
  | cons op ops ih =>
    refine ⟨fun now hnow evaluation hevaluation => ?_, ih ?_ ?_⟩
    · exact hbefore evaluation hevaluation now (List.mem_filterMap.mpr ⟨op, by simp, hnow⟩)
    · exact htimes.sublist ((List.sublist_cons_self op ops).filterMap _)
    · intro evaluation hevaluation time htime
      rcases of_mem_step_evaluations hevaluation with hold | hown
      · obtain ⟨later, hlater, hof⟩ := List.mem_filterMap.mp htime
        exact hbefore evaluation hold time
          (List.mem_filterMap.mpr ⟨later, List.mem_cons_of_mem op hlater, hof⟩)
      · rw [List.filterMap_cons_some hown] at htimes
        exact List.rel_of_pairwise_cons htimes htime

/-- In every state that disciplined calls lead to, a challenger or champion has an evaluation, and
its most recent one is accepted. -/
theorem endorsed_of_inOffice {ops : List (CandidateOp Params)}
    (hrequired : ∀ op ∈ ops, op.RequiresAcceptance)
    (htimes : (ops.filterMap CandidateOp.evaluatedAt?).Pairwise (· < ·)) :
    (Run.exec step {} ops).OfficeEndorsed := by
  have hasked : Run.Along step (fun _ op => op.RequiresAcceptance) {} ops :=
    Run.along_of_forall fun op hop _ => hrequired op hop
  have hinv : (Run.exec step {} ops).Dated ∧ (Run.exec step {} ops).OfficeEndorsed :=
    (hasked.and (along_later htimes nofun)).exec_inv
      (I := fun store => store.Dated ∧ store.OfficeEndorsed)
      (fun _ _ hinv hop => ⟨dated_step hinv.1 hop.2,
        officeEndorsed_step hinv.1 hinv.2 hop.1 hop.2⟩) ⟨nofun, nofun⟩
  exact hinv.2

/-- The outcome of a holdout period with twenty winning trades in two regimes. -/
def twoRegimes : ScoredOutcome where
  totalTrades := 20
  winRate := 1
  profitFactor := none
  maxDrawdown := 0
  maxDrawdownPct := 0
  grossProfit := 200
  grossLoss := 0
  totalPnl := 200
  initialCapital := 1000
  endingEquity := 1200
  returnPct := 20
  equityCurve := [1000, 1200]
  ordersRejected := 0
  positionsOpened := 20
  positionsClosed := 20
  mtm := none
  regimeAnalysis := {
    byRegime := (Dict.empty.set "trending" { trades := 10 }).set "ranging" { trades := 10 } }

/-- A result that passes the four checks. -/
def steadyResult : OptimizationResult Unit where
  symbol := "BTC/USDT"
  timeframe := "1h"
  trainStart := 0
  trainEnd := 1
  testStart := 1
  testEnd := 2
  best := some {
    trialId := 0
    params := ()
    trainScore := 1
    trainOutcome := twoRegimes
    foldScores := [1, 1]
    foldStd := some 0 }
  holdoutOutcome := some twoRegimes
  holdoutValid := true

/-- A candidate made champion, and another made challenger and rejected afterwards. -/
def twoCareers : List (CandidateOp Unit) :=
  [.create 1 "exp" none none 0, .evaluate 1 1 steadyResult 1, .promote 1 "challenger" true,
    .promote 1 "champion" true, .create 2 "exp" none (some "1") 2, .evaluate 2 2 steadyResult 3,
    .promote 2 "challenger" true, .evaluate 3 2 { steadyResult with holdoutValid := false } 4]

theorem endorsed_twoCareers :
    ((Run.exec step {} twoCareers).candidates.values.map (·.state)) = [.champion, .rejected] ∧
      (Run.exec step {} twoCareers).OfficeEndorsed := by
  refine ⟨by decide +kernel, endorsed_of_inOffice ?_ (by decide)⟩
  intro op hop
  simp only [twoCareers, List.mem_cons, List.not_mem_nil, or_false] at hop
  rcases hop with rfl | rfl | rfl | rfl | rfl | rfl | rfl | rfl <;> trivial

end CandidateStore

end TradingPlatform
