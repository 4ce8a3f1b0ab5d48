import TradingPlatform.Governance.Evaluator
import TradingPlatform.Lib.Run

/-!
# Candidates and their states

The rows of the candidates and of their evaluations, and the three functions that write them:
`create_candidate`, `run_candidate_evaluation` and `promote_candidate`. An operation that raises is
rolled back.
-/

namespace TradingPlatform

/-! ## Rows -/

/-- The values of the `state` column. -/
inductive CandidateState
  | candidate
  | challenger
  | champion
  | rejected
  | archived
  deriving DecidableEq

def CandidateState.literal : CandidateState → String
  | .candidate => "candidate"
  | .challenger => "challenger"
  | .champion => "champion"
  | .rejected => "rejected"
  | .archived => "archived"

/-- `_VALID_TRANSITIONS` -/
def validTransitions : CandidateState → List CandidateState
  | .candidate => [.challenger, .rejected, .archived]
  | .challenger => [.champion, .rejected, .archived]
  | .champion => [.archived]
  | .rejected => [.archived]
  | .archived => []

structure CandidateRow where
  candidateId : ℕ
  experimentId : String
  hypothesisId : Option String
  parentCandidateId : Option String
  state : CandidateState
  createdAt : ℤ
  deriving DecidableEq

structure CandidateEvaluationRow where
  evaluationId : ℕ
  candidateId : ℕ
  checks : List CandidateCheck
  decision : EvaluationDecision
  decisionReason : String
  createdAt : ℤ
  deriving DecidableEq

structure CandidateStore where
  candidates : Dict ℕ CandidateRow := ∅
  evaluations : Dict ℕ CandidateEvaluationRow := ∅

/-! ## Operations -/

/-- A call of one of the functions that write candidates. `uuid` is the identifier drawn for a new
row, `now` the time of the call. -/
inductive CandidateOp (Params : Type)
  | create (uuid : ℕ) (experimentId : String) (hypothesisId parentCandidateId : Option String)
      (now : ℤ)
  | evaluate (uuid candidateId : ℕ) (result : OptimizationResult Params) (now : ℤ)
  | promote (candidateId : ℕ) (toState : String) (requireAcceptedEvaluation : Bool)

namespace CandidateStore

variable {Params : Type} (store : CandidateStore)

/-- Write the state of the row of a candidate. -/
def setState (candidateId : ℕ) (row : CandidateRow) (state : CandidateState) : CandidateStore :=
  { store with candidates := store.candidates.set candidateId { row with state } }

/-- `create_candidate`. A row under an identifier that is taken breaks the primary key. -/
def createCandidate (uuid : ℕ) (experimentId : String)
    (hypothesisId parentCandidateId : Option String) (now : ℤ) :
    Except PyError (CandidateRow × CandidateStore) :=
  if uuid ∈ store.candidates.keys then .error (.raised "IntegrityError")
  else
    let row : CandidateRow := {
      experimentId, hypothesisId, parentCandidateId
      candidateId := uuid
      state := .candidate
      createdAt := now }
    .ok (row, { store with candidates := store.candidates.set uuid row })

/-- `run_candidate_evaluation` -/
def runCandidateEvaluation (uuid candidateId : ℕ) (result : OptimizationResult Params) (now : ℤ) :
    Except PyError (Option CandidateEvaluationRow × CandidateStore) :=
  match store.candidates.get? candidateId with
  | none => .ok (none, store)
  | some candidateRow =>
    if uuid ∈ store.evaluations.keys then .error (.raised "IntegrityError")
    else
      let (checks, decision, decisionReason) := evaluateCandidate result
      let row : CandidateEvaluationRow := {
        candidateId, checks, decision, decisionReason
        evaluationId := uuid
        createdAt := now }
      let store := { store with evaluations := store.evaluations.set uuid row }
      .ok (some row,
        if decision = .rejected then store.setState candidateId candidateRow .rejected else store)

/-- `list_candidate_evaluations`: the latest first. -/
def listCandidateEvaluations (candidateId : ℕ) : List CandidateEvaluationRow :=
  (store.evaluations.values.filter (·.candidateId = candidateId)).insertionSort
    fun a b => b.createdAt ≤ a.createdAt

/-- The most recent evaluation of a candidate has accepted it. -/
def lastAccepted (candidateId : ℕ) : Bool :=
  (store.listCandidateEvaluations candidateId).head?.any (·.decision = .accepted)

/-- Archive every champion. -/
def archiveChampions : CandidateStore :=
  { store with candidates := store.candidates.map fun row =>
      if row.state = .champion then { row with state := .archived } else row }

/-- `promote_candidate` -/
def promoteCandidate (candidateId : ℕ) (toState : String) (requireAcceptedEvaluation : Bool) :
    Except PyError (Option CandidateRow × CandidateStore) :=
  match store.candidates.get? candidateId with
  | none => .ok (none, store)
  | some row =>
    match (validTransitions row.state).find? (·.literal = toState) with
    | none => .error (.valueError ("Cannot transition candidate from '" ++ row.state.literal ++
        "' to '" ++ toState ++ "'"))
    | some state =>
      if requireAcceptedEvaluation ∧ (state = .challenger ∨ state = .champion) then
        if ¬ store.lastAccepted candidateId then
          .error (.valueError
            "Cannot promote a candidate without a most-recent 'accepted' evaluation")
        else
          let store := if state = .champion then store.archiveChampions else store
          .ok (some { row with state }, store.setState candidateId row state)
      else .ok (some { row with state }, store.setState candidateId row state)

/-- The store after a call, whether it has returned or raised. -/
def step (store : CandidateStore) : CandidateOp Params → CandidateStore
  | .create uuid experimentId hypothesisId parentCandidateId now =>
    match store.createCandidate uuid experimentId hypothesisId parentCandidateId now with
    | .ok (_, store) => store
    | .error _ => store
  | .evaluate uuid candidateId result now =>
    match store.runCandidateEvaluation uuid candidateId result now with
    | .ok (_, store) => store
    | .error _ => store
  | .promote candidateId toState requireAcceptedEvaluation =>
    match store.promoteCandidate candidateId toState requireAcceptedEvaluation with
    | .ok (_, store) => store
    | .error _ => store

/-! ## What a call writes -/

/-- The rows of the candidates after a call. -/
inductive Writes (store : CandidateStore) : CandidateOp Params → Dict ℕ CandidateRow → Prop
  | unchanged (op) : Writes store op store.candidates
  | create {uuid experimentId hypothesisId parentCandidateId now row}
      (hnew : uuid ∉ store.candidates.keys) (hstate : row.state = .candidate) :
      Writes store (.create uuid experimentId hypothesisId parentCandidateId now)
        (store.candidates.set uuid row)
  | reject {uuid candidateId result now row} (hrow : store.candidates.get? candidateId = some row)
      (hnew : uuid ∉ store.evaluations.keys)
      (hdecision : (evaluateCandidate result).2.1 = .rejected) :
      Writes store (.evaluate uuid candidateId result now)
        (store.candidates.set candidateId { row with state := .rejected })
  | promote {candidateId row state required} (hrow : store.candidates.get? candidateId = some row)
      (hstate : state ∈ validTransitions row.state)
      (hcrown : required = true → state ≠ .champion) :
      Writes store (.promote candidateId state.literal required)
        (store.candidates.set candidateId { row with state })
  | crown {candidateId row} (hrow : store.candidates.get? candidateId = some row)
      (hstate : .champion ∈ validTransitions row.state) :
      Writes store (.promote candidateId CandidateState.champion.literal true)
        (store.archiveChampions.candidates.set candidateId { row with state := .champion })

variable {store} {op : CandidateOp Params} {candidateId uuid : ℕ} {row : CandidateRow}

theorem writes_create {experimentId : String} {hypothesisId parentCandidateId : Option String}
    {now : ℤ} :
    Writes store (.create uuid experimentId hypothesisId parentCandidateId now : CandidateOp Params)
      (store.step (.create uuid experimentId hypothesisId parentCandidateId now :
        CandidateOp Params)).candidates := by
  by_cases hnew : uuid ∈ store.candidates.keys
  · simp only [step, createCandidate, if_pos hnew]
    exact .unchanged _
  · simp only [step, createCandidate, if_neg hnew]
    exact .create hnew rfl

theorem step_evaluate_rejected {result : OptimizationResult Params} {now : ℤ}
    (hrow : store.candidates.get? candidateId = some row) (hnew : uuid ∉ store.evaluations.keys)
    (hdecision : (evaluateCandidate result).2.1 = .rejected) :
    (store.step (.evaluate uuid candidateId result now)).candidates =
      store.candidates.set candidateId { row with state := .rejected } := by
  simp only [step, runCandidateEvaluation, hrow, hnew, if_false, hdecision, if_true]
  rfl

theorem writes_evaluate {result : OptimizationResult Params} {now : ℤ} :
    Writes store (.evaluate uuid candidateId result now)
      (store.step (.evaluate uuid candidateId result now)).candidates := by
  cases hrow : store.candidates.get? candidateId with
  | none =>
    simp only [step, runCandidateEvaluation, hrow]
    exact .unchanged _
  | some row =>
    by_cases hnew : uuid ∈ store.evaluations.keys
    · simp only [step, runCandidateEvaluation, hrow, hnew, if_true]
      exact .unchanged _
    · cases hdecision : (evaluateCandidate result).2.1 with
      | rejected =>
        rw [step_evaluate_rejected hrow hnew hdecision]
        exact .reject hrow hnew hdecision
      | accepted =>
        simp only [step, runCandidateEvaluation, hrow, hnew, if_false, hdecision, reduceCtorEq]
        exact .unchanged _

theorem find?_literal {states : List CandidateState} {toState : String} {state : CandidateState}
    (h : states.find? (·.literal = toState) = some state) :
    state ∈ states ∧ state.literal = toState :=
  ⟨List.mem_of_find?_eq_some h, by simpa using List.find?_some h⟩

theorem literal_injective : Function.Injective CandidateState.literal := by
  intro a b h
  cases a <;> cases b <;> first | rfl | simp [CandidateState.literal] at h

theorem find?_literal_self {states : List CandidateState} {state : CandidateState}
    (h : state ∈ states) : states.find? (·.literal = state.literal) = some state := by
  induction states with
  | nil => cases h
  | cons first rest ih =>
    by_cases hfirst : first = state
    · simp [hfirst]
    · have hne : first.literal ≠ state.literal := fun heq => hfirst (literal_injective heq)
      rw [List.find?_cons_of_neg (by simpa using hne)]
      exact ih ((List.mem_cons.mp h).resolve_left (Ne.symm hfirst))

/-- Without the requirement a promotion only writes the candidate's own row. -/
theorem step_promote_unchecked {state : CandidateState}
    (hrow : store.candidates.get? candidateId = some row)
    (hstate : state ∈ validTransitions row.state) :
    (store.step (.promote candidateId state.literal false : CandidateOp Params)).candidates =
      store.candidates.set candidateId { row with state } := by
  simp only [step, promoteCandidate, hrow, find?_literal_self hstate, Bool.false_eq_true,
    false_and, if_false]
  rfl

theorem writes_promote {toState : String} {required : Bool} :
    Writes store (.promote candidateId toState required : CandidateOp Params)
      (store.step (.promote candidateId toState required : CandidateOp Params)).candidates := by
  cases hrow : store.candidates.get? candidateId with
  | none =>
    simp only [step, promoteCandidate, hrow]
    exact .unchanged _
  | some row =>
  cases hfind : (validTransitions row.state).find? (·.literal = toState) with
  | none =>
    simp only [step, promoteCandidate, hrow, hfind]
    exact .unchanged _
  | some state =>
  obtain ⟨hstate, rfl⟩ := find?_literal hfind
  cases required with
  | false =>
    rw [step_promote_unchecked hrow hstate]
    exact .promote hrow hstate (by simp)
  | true =>
    by_cases hguarded : state = .challenger ∨ state = .champion
    · by_cases hlast : store.lastAccepted candidateId = true
      · simp only [step, promoteCandidate, hrow, hfind, hguarded, hlast]
        by_cases hcrown : state = .champion
        · subst hcrown
          exact .crown hrow hstate
        · simp only [hcrown, if_false]
          exact .promote hrow hstate fun _ => hcrown
      · simp only [step, promoteCandidate, hrow, hfind, hguarded, hlast]
        exact .unchanged _
    · simp only [step, promoteCandidate, hrow, hfind, hguarded, and_false, if_false]
      exact .promote hrow hstate fun _ => not_or.mp hguarded |>.2

/-- Every call writes the candidates as one of the rules says. -/
theorem writes_step : Writes store op (store.step op).candidates := by
  cases op with
  | create => exact writes_create
  | evaluate => exact writes_evaluate
  | promote => exact writes_promote

end CandidateStore

end TradingPlatform
