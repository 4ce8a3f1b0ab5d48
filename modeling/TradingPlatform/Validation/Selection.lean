import TradingPlatform.Validation.Scoring

/-!
# The best of the finalists

`select_best` chooses among the eligible finalists that no finalist dominates, or among all eligible
ones when each of them is dominated, the first with the greatest key. The finalists that dominate
need not be eligible themselves.
-/

namespace TradingPlatform

variable {Params : Type}

namespace TrialResult

/-- The composite score is finite. -/
def Eligible (minTrades : ℤ) (minReturnPct : ℚ) (t : TrialResult Params) : Prop :=
  TradingPlatform.compositeScore t minTrades minReturnPct ≠ ⊥

/-- Both have been tested, and one dominates the other in return, drawdown and profit factor. -/
def Dominates (other t : TrialResult Params) : Prop :=
  ∃ o ∈ other.testOutcome, ∃ v ∈ t.testOutcome, dominates (paretoValues o) (paretoValues v) = true

/-- No trial of the list dominates it. -/
def Undominated (among : List (TrialResult Params)) (t : TrialResult Params) : Prop :=
  ∀ other ∈ among, ¬ other.Dominates t

theorem testOutcome_of_eligible {minTrades : ℤ} {minReturnPct : ℚ} {t : TrialResult Params}
    (h : t.Eligible minTrades minReturnPct) : ∃ outcome, t.testOutcome = some outcome := by
  cases houtcome : t.testOutcome with
  | none =>
    refine absurd ?_ h
    simp only [TradingPlatform.compositeScore, houtcome]
  | some outcome => exact ⟨outcome, rfl⟩

end TrialResult

section

variable (finalists : List (TrialResult Params)) (minTrades : ℤ) (minReturnPct : ℚ)

/-- The finalist with its score and its rank. -/
def judged (t : TrialResult Params) : TrialResult Params :=
  let scored := { t with compositeScore := some (compositeScore t minTrades minReturnPct) }
  match t.testOutcome with
  | none => scored
  | some outcome =>
    let metrics := finalists.filterMap fun trial => trial.testOutcome.map paretoValues
    let dominated := metrics.any fun other => dominates other (paretoValues outcome)
    { scored with paretoRank := some (if dominated then 1 else 0) }

/-- The finalist is eligible, and undominated if an eligible finalist is. -/
def Selectable (t : TrialResult Params) : Prop :=
  t.Eligible minTrades minReturnPct ∧
    ((∃ e ∈ finalists, e.Eligible minTrades minReturnPct ∧ e.Undominated finalists) →
      t.Undominated finalists)

end

section

variable {finalists : List (TrialResult Params)} {minTrades : ℤ} {minReturnPct : ℚ}
  {t x : TrialResult Params}

theorem fst_selectBest : (selectBest finalists minTrades minReturnPct).1 =
    finalists.map (judged finalists minTrades minReturnPct) := by
  simp only [selectBest, assignParetoRanks, List.map_map, List.filterMap_map]
  rfl

@[simp] theorem compositeScore_judged :
    (judged finalists minTrades minReturnPct t).compositeScore =
      some (compositeScore t minTrades minReturnPct) := by
  unfold judged
  cases t.testOutcome <;> rfl

theorem paretoRank_judged (h : t.Eligible minTrades minReturnPct) :
    (judged finalists minTrades minReturnPct t).paretoRank = some 0 ↔ t.Undominated finalists := by
  obtain ⟨outcome, houtcome⟩ := t.testOutcome_of_eligible h
  have hdominated : (finalists.filterMap fun trial => trial.testOutcome.map paretoValues).any
      (fun other => dominates other (paretoValues outcome)) = true ↔
      ∃ other ∈ finalists, other.Dominates t := by
    simp only [List.any_eq_true, List.mem_filterMap, Option.map_eq_some_iff,
      TrialResult.Dominates, houtcome, Option.mem_def, Option.some.injEq]
    constructor
    · rintro ⟨_, ⟨other, hother, o, ho, rfl⟩, hdom⟩
      exact ⟨other, hother, o, ho, outcome, rfl, hdom⟩
    · rintro ⟨other, hother, o, ho, _, rfl, hdom⟩
      exact ⟨_, ⟨other, hother, o, ho, rfl⟩, hdom⟩
  simp only [judged, houtcome, TrialResult.Undominated]
  split_ifs with hany
  · obtain ⟨other, hother, hdom⟩ := hdominated.mp hany
    exact iff_of_false (by simp) fun hno => hno other hother hdom
  · exact iff_of_true rfl fun other hother hdom => hany (hdominated.mpr ⟨other, hother, hdom⟩)

theorem mem_eligible :
    x ∈ (selectBest finalists minTrades minReturnPct).1.filter
      (fun trial => trial.compositeScore.any (⊥ < ·)) ↔
    ∃ t ∈ finalists, t.Eligible minTrades minReturnPct ∧
      judged finalists minTrades minReturnPct t = x := by
  rw [fst_selectBest, List.mem_filter, List.mem_map]
  constructor
  · rintro ⟨⟨t, ht, rfl⟩, hany⟩
    refine ⟨t, ht, ?_, rfl⟩
    simpa [TrialResult.Eligible, bot_lt_iff_ne_bot] using hany
  · rintro ⟨t, ht, heligible, rfl⟩
    exact ⟨⟨t, ht, rfl⟩, by simpa [TrialResult.Eligible, bot_lt_iff_ne_bot] using heligible⟩

/-- The best is chosen by its key among the selectable finalists. -/
theorem snd_selectBest : ∃ pool : List (TrialResult Params),
    (∀ x, x ∈ pool ↔ ∃ t ∈ finalists, Selectable finalists minTrades minReturnPct t ∧
      judged finalists minTrades minReturnPct t = x) ∧
    (selectBest finalists minTrades minReturnPct).2 = pool.argmax selectionKey := by
  refine ⟨_, fun x => ?_, rfl⟩
  have hmem := @mem_eligible Params finalists minTrades minReturnPct
  rw [show (selectBest finalists minTrades minReturnPct).1 = assignParetoRanks _ from rfl] at hmem
  generalize (assignParetoRanks _).filter _ = eligible at hmem ⊢
  have hpareto : ∀ x, x ∈ eligible.filter (·.paretoRank = some 0) ↔
      ∃ t ∈ finalists, t.Eligible minTrades minReturnPct ∧ t.Undominated finalists ∧
        judged finalists minTrades minReturnPct t = x := by
    intro x
    rw [List.mem_filter, hmem, decide_eq_true_eq]
    constructor
    · rintro ⟨⟨t, ht, heligible, rfl⟩, hrank⟩
      exact ⟨t, ht, heligible, (paretoRank_judged heligible).mp hrank, rfl⟩
    · rintro ⟨t, ht, heligible, hundominated, rfl⟩
      exact ⟨⟨t, ht, heligible, rfl⟩, (paretoRank_judged heligible).mpr hundominated⟩
  split
  · -- every eligible finalist is dominated
    next hnil =>
    have hnone : ¬ ∃ e ∈ finalists, e.Eligible minTrades minReturnPct ∧
        e.Undominated finalists := by
      rintro ⟨e, he, heligible, hundominated⟩
      exact List.not_mem_nil (hnil ▸ (hpareto _).mpr ⟨e, he, heligible, hundominated, rfl⟩)
    simp only [hmem, Selectable, hnone, IsEmpty.forall_iff, and_true]
  · next hne =>
    obtain ⟨y, hy⟩ := List.exists_mem_of_ne_nil _ hne
    obtain ⟨e, he, heligible, hundominated, _⟩ := (hpareto y).mp hy
    have hsome : ∃ e ∈ finalists, e.Eligible minTrades minReturnPct ∧
        e.Undominated finalists := ⟨e, he, heligible, hundominated⟩
    simp only [hpareto, Selectable, hsome, true_imp_iff, and_assoc]

/-- The choice among the selectable finalists. -/
theorem selectable_of_selectBest {best : TrialResult Params}
    (h : (selectBest finalists minTrades minReturnPct).2 = some best) :
    ∃ t ∈ finalists, Selectable finalists minTrades minReturnPct t ∧
      judged finalists minTrades minReturnPct t = best ∧
      ∀ e ∈ finalists, Selectable finalists minTrades minReturnPct e →
        selectionKey (judged finalists minTrades minReturnPct e) ≤
          selectionKey (judged finalists minTrades minReturnPct t) := by
  obtain ⟨pool, hpool, hchoice⟩ := @snd_selectBest Params finalists minTrades minReturnPct
  rw [hchoice] at h
  obtain ⟨t, ht, hselectable, rfl⟩ := (hpool best).mp (List.argmax_mem h)
  exact ⟨t, ht, hselectable, rfl, fun e he hes =>
    List.le_of_mem_argmax ((hpool _).mpr ⟨e, he, hes, rfl⟩) h⟩

theorem selectBest_eq_none_iff : (selectBest finalists minTrades minReturnPct).2 = none ↔
    ∀ t ∈ finalists, ¬ t.Eligible minTrades minReturnPct := by
  obtain ⟨pool, hpool, hchoice⟩ := @snd_selectBest Params finalists minTrades minReturnPct
  rw [hchoice, List.argmax_eq_none]
  constructor
  · rintro rfl t ht heligible
    -- were no eligible finalist selectable, each would have to be undominated
    by_cases hsome : ∃ e ∈ finalists, e.Eligible minTrades minReturnPct ∧ e.Undominated finalists
    · obtain ⟨e, he, hee, hundominated⟩ := hsome
      exact List.not_mem_nil ((hpool _).mpr ⟨e, he, ⟨hee, fun _ => hundominated⟩, rfl⟩)
    · exact List.not_mem_nil
        ((hpool _).mpr ⟨t, ht, ⟨heligible, fun h => absurd h hsome⟩, rfl⟩)
  · intro hnone
    refine List.eq_nil_iff_forall_not_mem.mpr fun x hx => ?_
    obtain ⟨t, ht, hselectable, _⟩ := (hpool x).mp hx
    exact hnone t ht hselectable.1

/-- The key of a finalist is its score, but for a score of zero. -/
theorem selectionKey_judged (h : compositeScore t minTrades minReturnPct ≠ 0) :
    selectionKey (judged finalists minTrades minReturnPct t) =
      compositeScore t minTrades minReturnPct := by
  simp only [selectionKey, compositeScore_judged]
  cases hscore : compositeScore t minTrades minReturnPct with
  | bot => rfl
  | coe score =>
    have hne : score ≠ 0 := by
      rintro rfl
      exact h hscore
    exact if_neg hne

theorem selectionKey_judged_le : selectionKey (judged finalists minTrades minReturnPct t) ≤
    compositeScore t minTrades minReturnPct := by
  by_cases hzero : compositeScore t minTrades minReturnPct = 0
  · simp only [selectionKey, compositeScore_judged, hzero]
    exact bot_le
  · exact (selectionKey_judged hzero).le

/-- `select_best` finds nothing exactly when no finalist is eligible. Otherwise it returns an
eligible finalist, one that no finalist dominates if there is an eligible one, and with the greatest
score among those it chooses from as long as this score is not zero. -/
theorem selectBest_spec (finalists : List (TrialResult Params)) (minTrades : ℤ)
    (minReturnPct : ℚ) :
    ((selectBest finalists minTrades minReturnPct).2 = none ↔
      ∀ t ∈ finalists, ¬ t.Eligible minTrades minReturnPct) ∧
    ∀ best, (selectBest finalists minTrades minReturnPct).2 = some best →
      ∃ t ∈ finalists, judged finalists minTrades minReturnPct t = best ∧
        Selectable finalists minTrades minReturnPct t ∧
        ∀ greatest ∈ finalists, Selectable finalists minTrades minReturnPct greatest →
          (∀ e ∈ finalists, Selectable finalists minTrades minReturnPct e →
            compositeScore e minTrades minReturnPct ≤
              compositeScore greatest minTrades minReturnPct) →
          compositeScore greatest minTrades minReturnPct ≠ 0 →
          compositeScore t minTrades minReturnPct =
            compositeScore greatest minTrades minReturnPct := by
  refine ⟨selectBest_eq_none_iff, fun best h => ?_⟩
  obtain ⟨t, ht, hselectable, hjudged, hmax⟩ := selectable_of_selectBest h
  refine ⟨t, ht, hjudged, hselectable, fun greatest hgreatest hgs hupper hzero => ?_⟩
  refine le_antisymm (hupper t ht hselectable) ?_
  calc compositeScore greatest minTrades minReturnPct
      = selectionKey (judged finalists minTrades minReturnPct greatest) :=
        (selectionKey_judged hzero).symm
    _ ≤ selectionKey (judged finalists minTrades minReturnPct t) := hmax greatest hgreatest hgs
    _ ≤ compositeScore t minTrades minReturnPct := selectionKey_judged_le

end

/-! ## Domination by a finalist that is not eligible -/

/-- The outcome of a run with these results. -/
def testedOutcome (totalTrades : ℕ) (returnPct maxDrawdownPct profitFactor : ℚ) :
    ScoredOutcome where
  totalTrades := totalTrades
  winRate := 1 / 2
  profitFactor := some profitFactor
  maxDrawdown := maxDrawdownPct * 100
  maxDrawdownPct := maxDrawdownPct
  grossProfit := 0
  grossLoss := 0
  totalPnl := returnPct * 100
  initialCapital := 10000
  endingEquity := 10000 + returnPct * 100
  returnPct := returnPct
  equityCurve := []
  ordersRejected := 0
  positionsOpened := totalTrades
  positionsClosed := totalTrades
  mtm := none

/-- A finalist tested with that outcome and a score. -/
def testedTrial (trialId : ℕ) (testScore : ℚ) (outcome : ScoredOutcome) : TrialResult Unit where
  trialId := trialId
  params := ()
  trainScore := testScore
  trainOutcome := outcome
  testScore := testScore
  testOutcome := outcome

/-- The first finalist dominates the second, and the third, with too few trades, both. -/
def overshadowed : List (TrialResult Unit) :=
  [testedTrial 0 10 (testedOutcome 30 5 1 2), testedTrial 1 50 (testedOutcome 30 4 2 (3 / 2)),
    testedTrial 2 90 (testedOutcome 5 9 0 5)]

instance {minTrades : ℤ} {minReturnPct : ℚ} (t : TrialResult Params) :
    Decidable (t.Eligible minTrades minReturnPct) :=
  inferInstanceAs (Decidable (_ ≠ _))

instance (other t : TrialResult Params) : Decidable (other.Dominates t) :=
  inferInstanceAs (Decidable (∃ o ∈ other.testOutcome, ∃ v ∈ t.testOutcome, _ = _))

/-- The chosen finalist is dominated by an eligible one. -/
theorem not_selectBest_undominated : ¬ ∀ (finalists : List (TrialResult Unit)) (minTrades : ℤ)
    (minReturnPct : ℚ) (best : TrialResult Unit),
    (selectBest finalists minTrades minReturnPct).2 = some best →
    ∃ t ∈ finalists, judged finalists minTrades minReturnPct t = best ∧
      t.Eligible minTrades minReturnPct ∧
      (∀ other ∈ finalists, other.Eligible minTrades minReturnPct → ¬ other.Dominates t) ∧
      ∀ e ∈ finalists, e.Eligible minTrades minReturnPct →
        (∀ other ∈ finalists, other.Eligible minTrades minReturnPct → ¬ other.Dominates e) →
        compositeScore e minTrades minReturnPct ≤ compositeScore t minTrades minReturnPct := by
  intro h
  have hchosen : (selectBest overshadowed 20 0).2.map (·.trialId) = some 1 := by decide +kernel
  obtain ⟨best, hbest, hid⟩ := Option.map_eq_some_iff.mp hchosen
  obtain ⟨t, ht, rfl, _, hundominated, _⟩ := h overshadowed 20 0 best hbest
  have hfirst : (testedTrial 0 10 (testedOutcome 30 5 1 2)).Eligible 20 0 := by decide +kernel
  have hdominates : ∀ t ∈ overshadowed, (judged overshadowed 20 0 t).trialId = 1 →
      (testedTrial 0 10 (testedOutcome 30 5 1 2)).Dominates t := by decide +kernel
  exact hundominated _ List.mem_cons_self hfirst (hdominates t ht hid)

end TradingPlatform
