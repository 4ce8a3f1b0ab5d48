import TradingPlatform.Governance.Candidates

/-!
# The life of a candidate

Two laws of the candidate workflow, over every history of calls. A run keeps a single champion
exactly when no promotion that skips the evaluation crowns a candidate beside a champion, and its
state changes are those of the table of transitions exactly when no evaluation rejects a champion or
an archived candidate.
-/

namespace TradingPlatform

namespace CandidateStore

variable {Params : Type} {store : CandidateStore} {op : CandidateOp Params}

/-! ## The champion -/

/-- No two candidates are champions. -/
def SoleChampion (store : CandidateStore) : Prop :=
  ∀ id id' row row', store.candidates.get? id = some row → store.candidates.get? id' = some row' →
    row.state = .champion → row'.state = .champion → id = id'

/-- No candidate is champion. -/
def NoChampion (store : CandidateStore) : Prop :=
  ∀ id row, store.candidates.get? id = some row → row.state ≠ .champion

/-- A promotion that skips the evaluation makes a challenger champion only where there is none. -/
def CrownsAlone (store : CandidateStore) : CandidateOp Params → Prop
  | .promote candidateId toState false => toState = CandidateState.champion.literal →
      ∀ row, store.candidates.get? candidateId = some row → row.state = .challenger →
        store.NoChampion
  | _ => True

theorem soleChampion_empty : SoleChampion {} := fun _ _ _ _ h => nomatch h

theorem noChampion_archiveChampions : store.archiveChampions.NoChampion := by
  intro id row hrow
  rw [archiveChampions, Dict.get?_map] at hrow
  obtain ⟨before, _, rfl⟩ := Option.map_eq_some_iff.mp hrow
  split
  · simp
  · assumption

/-- A row that is not champion leaves the champions as they were, or takes one away. -/
theorem SoleChampion.set (h : store.SoleChampion) {store' : CandidateStore} {id : ℕ}
    {row : CandidateRow} (hset : store'.candidates = store.candidates.set id row)
    (hrow : row.state ≠ .champion) : store'.SoleChampion := by
  have hkept : ∀ id' row', store'.candidates.get? id' = some row' → row'.state = .champion →
      store.candidates.get? id' = some row' := by
    intro id' row' hget hchampion
    rw [hset, Dict.get?_set] at hget
    split at hget
    · cases hget
      exact absurd hchampion hrow
    · exact hget
  intro a b rowa rowb ha hb hca hcb
  exact h a b rowa rowb (hkept a rowa ha hca) (hkept b rowb hb hcb) hca hcb

/-- Where there is no champion, one may be crowned. -/
theorem NoChampion.set (h : store.NoChampion) {store' : CandidateStore} {id : ℕ}
    {row : CandidateRow} (hset : store'.candidates = store.candidates.set id row) :
    store'.SoleChampion := by
  have hcrowned : ∀ id' row', store'.candidates.get? id' = some row' → row'.state = .champion →
      id = id' := by
    intro id' row' hget hchampion
    rw [hset, Dict.get?_set] at hget
    split at hget
    · assumption
    · exact absurd hchampion (h id' row' hget)
  intro a b rowa rowb ha hb hca hcb
  exact (hcrowned a rowa ha hca).symm.trans (hcrowned b rowb hb hcb)

theorem soleChampion_congr {store' : CandidateStore} (h : store.SoleChampion)
    (hsame : store'.candidates = store.candidates) : store'.SoleChampion := by
  unfold SoleChampion
  rw [hsame]
  exact h

theorem challenger_of_champion_mem {state : CandidateState}
    (h : .champion ∈ validTransitions state) : state = .challenger := by
  cases state <;> simp [validTransitions] at h ⊢

/-- A call that crowns alone keeps the champion single. -/
theorem soleChampion_step (h : store.SoleChampion) (hcrowns : store.CrownsAlone op) :
    (store.step op).SoleChampion := by
  have hwrites : Writes store op (store.step op).candidates := writes_step
  generalize hafter : (store.step op).candidates = after at hwrites
  cases hwrites with
  | unchanged => exact soleChampion_congr h hafter
  | create _ hstate => exact h.set hafter (by simp [hstate])
  | reject => exact h.set hafter (by simp)
  | @promote candidateId row state required hrow hstate hcrown =>
    by_cases hchampion : state = .champion
    · subst hchampion
      cases required with
      | true => exact absurd rfl (hcrown rfl)
      | false => exact (hcrowns rfl row hrow (challenger_of_champion_mem hstate)).set hafter
    · exact h.set hafter hchampion
  | crown => exact noChampion_archiveChampions.set hafter

/-- A call that crowns a second champion leaves two of them. -/
theorem crownsAlone_of_soleChampion_step (h : (store.step op).SoleChampion) :
    store.CrownsAlone op := by
  cases op with
  | create => trivial
  | evaluate => trivial
  | promote candidateId toState required =>
  cases required with
  | true => trivial
  | false =>
    rintro rfl row hrow hchallenger id champion hget hchampion
    have hstate : .champion ∈ validTransitions row.state := by simp [hchallenger, validTransitions]
    have hafter : (store.step (.promote candidateId CandidateState.champion.literal false :
        CandidateOp Params)).candidates = _ := step_promote_unchecked hrow hstate
    have hne : candidateId ≠ id := by
      rintro rfl
      rw [hrow] at hget
      cases hget
      simp [hchallenger] at hchampion
    refine hne (h candidateId id { row with state := .champion } champion ?_ ?_ rfl hchampion)
    · rw [hafter, Dict.get?_set_self]
    · rw [hafter, Dict.get?_set_of_ne hne, hget]

/-- A history of calls keeps at most one champion in every state it reaches exactly when no call of
it crowns a candidate beside a champion. -/
theorem along_soleChampion_iff (ops : List (CandidateOp Params)) :
    Run.Along step (fun store op => (store.step op).SoleChampion) {} ops ↔
      Run.Along step CrownsAlone {} ops :=
  Run.along_iff (D := fun _ _ => True) (fun _ _ h _ hcrowns => soleChampion_step h hcrowns)
    (fun _ _ h _ => ⟨crownsAlone_of_soleChampion_step, soleChampion_step h⟩) soleChampion_empty
    Run.along_true

/-- Two candidates promoted one after the other with no evaluation asked for. -/
def twoPromotions : List (CandidateOp Unit) :=
  [.create 1 "exp" none none 0, .create 2 "exp" none none 0,
    .promote 1 "challenger" false, .promote 1 "champion" false,
    .promote 2 "challenger" false, .promote 2 "champion" false]

theorem not_soleChampion_twoPromotions : ¬ (Run.exec step {} twoPromotions).SoleChampion :=
  fun h => absurd (h 1 2 _ _ rfl rfl rfl rfl) (by decide)

/-! ## The table of transitions -/

/-- Every candidate keeps its state or takes an edge of the table. -/
def LawfulChanges (before after : CandidateStore) : Prop :=
  ∀ id row, before.candidates.get? id = some row → ∃ row', after.candidates.get? id = some row' ∧
    (row'.state = row.state ∨ row'.state ∈ validTransitions row.state)

/-- An evaluation that is recorded rejects neither a champion nor an archived candidate. -/
def RejectsAlive (store : CandidateStore) : CandidateOp Params → Prop
  | .evaluate uuid candidateId result _ => uuid ∉ store.evaluations.keys →
      (evaluateCandidate result).2.1 = .rejected →
      ∀ row, store.candidates.get? candidateId = some row →
        row.state ≠ .champion ∧ row.state ≠ .archived
  | _ => True

theorem lawfulChanges_congr {store' : CandidateStore}
    (hsame : store'.candidates = store.candidates) : LawfulChanges store store' :=
  fun _ row hrow => ⟨row, hsame ▸ hrow, .inl rfl⟩

/-- Writing one row is lawful when that row takes an edge of the table. -/
theorem lawfulChanges_set {store' : CandidateStore} {id : ℕ} {row : CandidateRow}
    {state : CandidateState} (hrow : store.candidates.get? id = some row)
    (hset : store'.candidates = store.candidates.set id { row with state })
    (hstate : state = row.state ∨ state ∈ validTransitions row.state) :
    LawfulChanges store store' := by
  intro id' row' hget
  by_cases hid : id = id'
  · subst hid
    cases hrow.symm.trans hget
    exact ⟨{ row with state }, by rw [hset, Dict.get?_set_self], hstate⟩
  · exact ⟨row', by rw [hset, Dict.get?_set_of_ne hid, hget], .inl rfl⟩

theorem lawfulChanges_archiveChampions : LawfulChanges store store.archiveChampions := by
  intro id row hrow
  refine ⟨_, by rw [archiveChampions, Dict.get?_map, hrow, Option.map_some], ?_⟩
  split
  · next hchampion => simp [hchampion, validTransitions]
  · exact .inl rfl

theorem lawfulChanges_step (halive : store.RejectsAlive op) :
    LawfulChanges store (store.step op) := by
  have hwrites : Writes store op (store.step op).candidates := writes_step
  generalize hafter : (store.step op).candidates = after at hwrites
  cases hwrites with
  | unchanged => exact lawfulChanges_congr hafter
  | @create uuid _ _ _ _ row hnew _ =>
    intro id row' hget
    have hne : uuid ≠ id := by
      rintro rfl
      exact hnew (Dict.mem_keys_iff.mpr (by simp [hget]))
    exact ⟨row', by rw [hafter, Dict.get?_set_of_ne hne, hget], .inl rfl⟩
  | @reject uuid candidateId result now row hrow hnew hdecision =>
    refine lawfulChanges_set hrow hafter ?_
    obtain ⟨hchampion, harchived⟩ := halive hnew hdecision row hrow
    cases hstate : row.state <;> simp_all [validTransitions]
  | promote hrow hstate => exact lawfulChanges_set hrow hafter (.inr hstate)
  | @crown candidateId row hrow hstate =>
    have hchallenger := challenger_of_champion_mem hstate
    intro id row' hget
    by_cases hid : candidateId = id
    · subst hid
      cases hrow.symm.trans hget
      exact ⟨{ row with state := .champion }, by rw [hafter, Dict.get?_set_self], .inr hstate⟩
    · obtain ⟨row'', hget', hlawful⟩ := lawfulChanges_archiveChampions id row' hget
      exact ⟨row'', by rw [hafter, Dict.get?_set_of_ne hid, hget'], hlawful⟩

theorem rejectsAlive_of_lawfulChanges (h : LawfulChanges store (store.step op)) :
    store.RejectsAlive op := by
  cases op with
  | create => trivial
  | promote => trivial
  | evaluate uuid candidateId result now =>
    intro hnew hdecision row hrow
    obtain ⟨row', hget, hlawful⟩ := h candidateId row hrow
    rw [step_evaluate_rejected hrow hnew hdecision, Dict.get?_set_self] at hget
    cases hget
    cases hstate : row.state <;> simp_all [validTransitions]

/-- Every state change of a history is an edge of the table exactly when no evaluation of it rejects
a champion or an archived candidate. -/
theorem along_lawfulChanges_iff (ops : List (CandidateOp Params)) :
    Run.Along step (fun store op => LawfulChanges store (store.step op)) {} ops ↔
      Run.Along step RejectsAlive {} ops :=
  Run.along_iff (I := fun _ => True) (D := fun _ _ => True) (fun _ _ _ _ _ => trivial)
    (fun _ _ _ _ => ⟨rejectsAlive_of_lawfulChanges, lawfulChanges_step⟩) trivial Run.along_true

/-- The result of an optimization without a holdout period. -/
def noHoldout : OptimizationResult Unit where
  symbol := "BTC/USDT"
  timeframe := "1h"
  trainStart := 0
  trainEnd := 1
  testStart := 1
  testEnd := 2

/-- An archived candidate that is evaluated again. -/
def lateEvaluation : List (CandidateOp Unit) :=
  [.create 1 "exp" none none 0, .promote 1 "archived" true, .evaluate 1 1 noHoldout 0]

theorem not_lawful_lateEvaluation :
    ¬ Run.Along step (fun store op => LawfulChanges store (store.step op)) {} lateEvaluation := by
  rintro ⟨-, -, hlast, -⟩
  obtain ⟨row, hget, hlawful⟩ := hlast 1 _ rfl
  cases hget
  revert hlawful
  decide

end CandidateStore

end TradingPlatform
