import TradingPlatform.Config.Trial
import TradingPlatform.Lib.Fresh
import TradingPlatform.Validation.Optimization

/-!
# The refinement of the finalists

`refine_trials_around` offers the trials one step away from the top ones, key by key, and takes
those it has not seen. A top trial counts as seen from its turn on, so a later one can be offered,
and taken, as a neighbour of an earlier one.
-/

namespace TradingPlatform

/-- The value lists of `OptimizationSpace` that the refinement reads. -/
structure RefineSpace where
  slAtrMult : List ℚ
  tpAtrMult : List ℚ
  oversold : List ℚ
  overbought : List ℚ
  minAtrPct : List ℚ

inductive RefineKey | slAtrMult | tpAtrMult | oversold | overbought | minAtrPct
  deriving DecidableEq

def refineKeys : List RefineKey := [.slAtrMult, .tpAtrMult, .oversold, .overbought, .minAtrPct]

def RefineSpace.values (space : RefineSpace) : RefineKey → List ℚ
  | .slAtrMult => space.slAtrMult
  | .tpAtrMult => space.tpAtrMult
  | .oversold => space.oversold
  | .overbought => space.overbought
  | .minAtrPct => space.minAtrPct

namespace TrialParams

/-- `params[key]` -/
def get (params : TrialParams) : RefineKey → ℚ
  | .slAtrMult => params.slAtrMult
  | .tpAtrMult => params.tpAtrMult
  | .oversold => params.oversold
  | .overbought => params.overbought
  | .minAtrPct => params.minAtrPct

/-- A copy with `params[key] = value`. -/
def set (params : TrialParams) (key : RefineKey) (value : ℚ) : TrialParams :=
  match key with
  | .slAtrMult => { params with slAtrMult := value }
  | .tpAtrMult => { params with tpAtrMult := value }
  | .oversold => { params with oversold := value }
  | .overbought => { params with overbought := value }
  | .minAtrPct => { params with minAtrPct := value }

variable {params candidate : TrialParams} {key : RefineKey} {v w : ℚ}

@[simp] theorem get_set : (params.set key v).get key = v := by cases key <;> rfl

@[simp] theorem set_set : (params.set key v).set key w = params.set key w := by cases key <;> rfl

@[simp] theorem set_get : params.set key (params.get key) = params := by cases key <;> rfl

/-- The trials one step before and after in the values of the key. -/
def neighbours (space : RefineSpace) (params : TrialParams) (key : RefineKey) :
    List TrialParams :=
  let values := space.values key
  if values.length < 2 then []
  else match values.idxOf? (params.get key) with
    | none => []
    | some idx =>
      ((if 0 < idx then values[idx - 1]? else none).toList ++ values[idx + 1]?.toList).map
        (params.set key)

end TrialParams

/-- The trials in the order in which the refinement sees and offers them. -/
def offers (topTrials : List TrialParams) (space : RefineSpace) : List (Offer TrialParams) :=
  topTrials.flatMap fun params =>
    .mark params :: (refineKeys.flatMap (params.neighbours space)).map .candidate

/-- `refine_trials_around` on trials that have all keys. -/
def refineTrialsAround (topTrials : List TrialParams) (space : RefineSpace)
    (maxRefine : ℤ := 9) : List TrialParams :=
  Offer.collect maxRefine [] [] (offers topTrials space)

/-! ## One step -/

/-- The two are next to each other in the list. -/
def AdjacentIn (values : List ℚ) (v w : ℚ) : Prop :=
  ∃ i, values[i]? = some v ∧ values[i + 1]? = some w ∨
    values[i]? = some w ∧ values[i + 1]? = some v

/-- The trials differ in exactly one refine key, by one step in its values. -/
def TrialParams.OneStep (space : RefineSpace) (params candidate : TrialParams) : Prop :=
  ∃ key ∈ refineKeys, candidate = params.set key (candidate.get key) ∧
    candidate.get key ≠ params.get key ∧
    AdjacentIn (space.values key) (params.get key) (candidate.get key)

theorem AdjacentIn.symm {values : List ℚ} {v w : ℚ} (h : AdjacentIn values v w) :
    AdjacentIn values w v := by
  obtain ⟨i, h⟩ := h
  exact ⟨i, h.symm⟩

theorem AdjacentIn.ne {values : List ℚ} {v w : ℚ} (hnodup : values.Nodup)
    (h : AdjacentIn values v w) : v ≠ w := by
  obtain ⟨i, h⟩ := h
  rintro rfl
  have hsame : values[i]? = values[i + 1]? := by
    rcases h with ⟨h₁, h₂⟩ | ⟨h₁, h₂⟩ <;> rw [h₁, h₂]
  have hlt : i < values.length := by
    rcases h with ⟨h₁, _⟩ | ⟨h₁, _⟩ <;> exact (List.getElem?_eq_some_iff.mp h₁).1
  exact absurd ((List.getElem?_inj hlt hnodup).mp hsame) (by omega)

/-- In a list without duplicates the index of a value is its only place. -/
theorem idxOf?_eq_some_iff_getElem? {values : List ℚ} (hnodup : values.Nodup) {v : ℚ} {i : ℕ} :
    values.idxOf? v = some i ↔ values[i]? = some v := by
  rw [List.idxOf?_eq_some_iff, List.getElem?_eq_some_iff]
  constructor
  · rintro ⟨hi, hv, _⟩
    exact ⟨hi, hv⟩
  · rintro ⟨hi, hv⟩
    refine ⟨hi, hv, fun j hj hjv => ?_⟩
    exact absurd ((hnodup.getElem_inj_iff).mp (hjv.trans hv.symm)) hj.ne

theorem TrialParams.mem_neighbours {space : RefineSpace} {params candidate : TrialParams}
    {key : RefineKey} (hnodup : (space.values key).Nodup) :
    candidate ∈ params.neighbours space key ↔
      candidate = params.set key (candidate.get key) ∧
        AdjacentIn (space.values key) (params.get key) (candidate.get key) := by
  unfold neighbours
  dsimp only
  constructor
  · intro h
    split_ifs at h with hshort
    · cases h
    · split at h
      · cases h
      · next idx hidx =>
        have hcurrent := (idxOf?_eq_some_iff_getElem? hnodup).mp hidx
        obtain ⟨v, hv, rfl⟩ := List.mem_map.mp h
        rw [List.mem_append, Option.mem_toList, Option.mem_toList] at hv
        refine ⟨by rw [get_set], ?_⟩
        rw [get_set]
        rcases hv with hbefore | hafter
        · split_ifs at hbefore with hpos
          · refine ⟨idx - 1, .inr ⟨hbefore, ?_⟩⟩
            rw [Nat.sub_add_cancel hpos]
            exact hcurrent
        · exact ⟨idx, .inl ⟨hcurrent, hafter⟩⟩
  · rintro ⟨hset, i, hadjacent⟩
    have hlength : ¬ (space.values key).length < 2 := by
      rcases hadjacent with ⟨_, h⟩ | ⟨_, h⟩ <;>
        have := (List.getElem?_eq_some_iff.mp h).1 <;> omega
    rw [if_neg hlength]
    rcases hadjacent with ⟨hcurrent, hnext⟩ | ⟨hnext, hcurrent⟩
    · rw [(idxOf?_eq_some_iff_getElem? hnodup).mpr hcurrent]
      refine List.mem_map.mpr ⟨candidate.get key, ?_, hset.symm⟩
      exact List.mem_append_right _ (Option.mem_toList.mpr hnext)
    · rw [(idxOf?_eq_some_iff_getElem? hnodup).mpr hcurrent]
      refine List.mem_map.mpr ⟨candidate.get key, ?_, hset.symm⟩
      refine List.mem_append_left _ (Option.mem_toList.mpr ?_)
      rw [if_pos (Nat.succ_pos i)]
      exact hnext

theorem TrialParams.oneStep_iff {space : RefineSpace} {params candidate : TrialParams}
    (hspace : ∀ key, (space.values key).Nodup) : params.OneStep space candidate ↔
      ∃ key ∈ refineKeys, candidate ∈ params.neighbours space key := by
  refine exists_congr fun key => and_congr_right fun _ => ?_
  rw [mem_neighbours (hspace key)]
  exact ⟨fun h => ⟨h.1, h.2.2⟩, fun h => ⟨h.1, (h.2.ne (hspace key)).symm, h.2⟩⟩

theorem TrialParams.OneStep.symm {space : RefineSpace} {params candidate : TrialParams}
    (h : params.OneStep space candidate) : candidate.OneStep space params := by
  obtain ⟨key, hkey, hset, hne, hadjacent⟩ := h
  refine ⟨key, hkey, ?_, hne.symm, hadjacent.symm⟩
  rw [hset, set_set, set_get]

theorem TrialParams.OneStep.ne {space : RefineSpace} {params candidate : TrialParams}
    (h : params.OneStep space candidate) : candidate ≠ params := by
  obtain ⟨key, _, _, hne, _⟩ := h
  rintro rfl
  exact hne rfl

/-! ## What is returned -/

section

variable {space : RefineSpace} {topTrials : List TrialParams} {candidate : TrialParams}
  {maxRefine : ℤ}

theorem marks_offers : Offer.marks (offers topTrials space) = topTrials := by
  induction topTrials with
  | nil => rfl
  | cons params rest ih =>
    rw [offers, List.flatMap_cons, Offer.marks_append, ← offers, ih]
    simp

theorem mem_candidates_offers : candidate ∈ Offer.candidates (offers topTrials space) ↔
    ∃ params ∈ topTrials, ∃ key ∈ refineKeys, candidate ∈ params.neighbours space key := by
  induction topTrials with
  | nil => simp [offers]
  | cons params rest ih =>
    rw [offers, List.flatMap_cons, Offer.candidates_append, ← offers, List.mem_append, ih]
    simp

theorem refineTrialsAround_eq : refineTrialsAround topTrials space maxRefine =
    (Offer.fresh [] (offers topTrials space)).take (max 1 maxRefine).toNat := by
  rw [refineTrialsAround, Offer.collect_eq, List.nil_append, List.length_nil, Nat.cast_zero,
    sub_zero]

theorem nodup_refineTrialsAround : (refineTrialsAround topTrials space maxRefine).Nodup := by
  rw [refineTrialsAround_eq]
  exact Offer.nodup_fresh.sublist (List.take_sublist _ _)

theorem oneStep_of_mem (hspace : ∀ key, (space.values key).Nodup)
    (h : candidate ∈ refineTrialsAround topTrials space maxRefine) :
    ∃ params ∈ topTrials, params.OneStep space candidate := by
  rw [refineTrialsAround_eq] at h
  obtain ⟨params, hparams, hkey⟩ :=
    mem_candidates_offers.mp (Offer.mem_candidates_of_mem_fresh (List.mem_of_mem_take h))
  exact ⟨params, hparams, (params.oneStep_iff hspace).mpr hkey⟩

/-- A refinement returns none of the top trials exactly when each of them that is offered before its
turn is offered too late to be taken. -/
theorem refineTrialsAround_disjoint_iff :
    (∀ candidate ∈ refineTrialsAround topTrials space maxRefine, candidate ∉ topTrials) ↔
      Offer.MarksLate (max 1 maxRefine).toNat (offers topTrials space) := by
  rw [refineTrialsAround_eq, ← Offer.take_fresh_disjoint_iff, marks_offers]

/-- Where nothing is taken, nothing is offered: the first trial offered would be an earlier top
trial, of which the offering one is a neighbour. -/
theorem neighbours_eq_nil_of_fresh_eq_nil (hspace : ∀ key, (space.values key).Nodup)
    (h : Offer.fresh [] (offers topTrials space) = []) :
    ∀ params ∈ topTrials, ∀ candidate, ¬ params.OneStep space candidate := by
  by_contra hsome
  push Not at hsome
  obtain ⟨front, params, back, rfl, ⟨candidate, hstep⟩, hfront⟩ :=
    Offer.exists_first (p := fun (params : TrialParams) =>
      ∃ candidate, params.OneStep space candidate) hsome
  have hnone : Offer.candidates (offers front space) = [] := by
    refine List.eq_nil_iff_forall_not_mem.mpr fun c hc => ?_
    obtain ⟨q, hq, hkey⟩ := mem_candidates_offers.mp hc
    exact hfront q hq ⟨c, (q.oneStep_iff hspace).mpr hkey⟩
  obtain ⟨key, hkey, hmem⟩ := (params.oneStep_iff hspace).mp hstep
  cases hoffered : refineKeys.flatMap (params.neighbours space) with
  | nil => exact List.not_mem_nil (hoffered ▸ List.mem_flatMap.mpr ⟨key, hkey, hmem⟩)
  | cons first more =>
    obtain ⟨key, hkey, hfirst⟩ := List.mem_flatMap.mp (hoffered ▸ List.mem_cons_self)
    have hfirst : params.OneStep space first :=
      (params.oneStep_iff hspace).mpr ⟨key, hkey, hfirst⟩
    have hsplit : offers (front ++ params :: back) space =
        (offers front space ++ [.mark params]) ++
          .candidate first :: (more.map .candidate ++ offers back space) := by
      simp [offers, hoffered]
    have hmarks : first ∉ Offer.marks (offers front space ++ [.mark params]) := by
      rw [Offer.marks_append, marks_offers, List.mem_append, not_or]
      refine ⟨fun hmem => hfront first hmem ⟨params, hfirst.symm⟩, ?_⟩
      simpa using hfirst.ne
    obtain ⟨later, htaken⟩ := Offer.fresh_of_offer hmarks (by simp [hnone])
    rw [hsplit, htaken] at h
    exact List.append_ne_nil_of_right_ne_nil _ (List.cons_ne_nil _ _) h

/-- The limit admits a trial, or is zero where no top trial has a neighbour; and every top trial
that is offered before its turn is offered only after as many other trials as the limit admits. -/
def RefinesApart (topTrials : List TrialParams) (space : RefineSpace) (maxRefine : ℤ) :
    Prop :=
  (0 < maxRefine ∨ maxRefine = 0 ∧ ∀ params ∈ topTrials, ∀ candidate,
    ¬ params.OneStep space candidate) ∧
  Offer.MarksLate (max 1 maxRefine).toNat (offers topTrials space)

/-- The trials of a refinement are distinct, at most `maxRefine`, one step away from a top trial
each and none of the top trials, exactly when the refinement stays apart from them. -/
theorem refineTrialsAround_spec_iff (topTrials : List TrialParams) (space : RefineSpace)
    (maxRefine : ℤ) (hspace : ∀ key, (space.values key).Nodup) :
    ((refineTrialsAround topTrials space maxRefine).Nodup ∧
      ((refineTrialsAround topTrials space maxRefine).length : ℤ) ≤ maxRefine ∧
      (∀ candidate ∈ refineTrialsAround topTrials space maxRefine,
        ∃ params ∈ topTrials, params.OneStep space candidate) ∧
      ∀ candidate ∈ refineTrialsAround topTrials space maxRefine, candidate ∉ topTrials) ↔
    RefinesApart topTrials space maxRefine := by
  constructor
  · rintro ⟨_, hlength, _, hdisjoint⟩
    refine ⟨?_, refineTrialsAround_disjoint_iff.mp hdisjoint⟩
    rcases lt_or_ge 0 maxRefine with hpos | hzero
    · exact .inl hpos
    · rw [refineTrialsAround_eq, List.length_take] at hlength
      refine .inr ⟨by omega, neighbours_eq_nil_of_fresh_eq_nil hspace ?_⟩
      exact List.length_eq_zero_iff.mp (by omega)
  · rintro ⟨hlimit, hlate⟩
    refine ⟨nodup_refineTrialsAround, ?_, fun c hc => oneStep_of_mem hspace hc,
      refineTrialsAround_disjoint_iff.mpr hlate⟩
    rcases hlimit with hpos | ⟨rfl, hnone⟩
    · rw [refineTrialsAround_eq, List.length_take]
      omega
    · have hnil : refineTrialsAround topTrials space 0 = [] :=
        List.eq_nil_iff_forall_not_mem.mpr fun c hc => by
          obtain ⟨params, hparams, hstep⟩ := oneStep_of_mem hspace hc
          exact hnone params hparams c hstep
      rw [hnil]
      exact le_rfl

end

/-- The first trial of the default space. -/
def firstTrial : TrialParams where
  minConfidence := 6 / 10
  minRiskReward := 1
  minAgreeingProviders := 1
  slAtrMult := 1
  tpAtrMult := 2
  maxBarsInTrade := 12
  oversold := 25
  overbought := 65
  riskPctPerTrade := 1 / 2
  minAtrPct := 1 / 10
  sessionPreset := "eu_us"
  maxSignalsPerDay := 5
  emaFast := 12
  emaSlow := 26
  rsiPeriod := 14
  emaWeight := 1
  rsiWeight := 1
  emaEnabled := 1
  rsiEnabled := 1
  macdFast := 12
  macdSlow := 26
  macdSignalPeriod := 9
  macdWeight := 1
  macdEnabled := 1
  requireSignalAlign := 1
  minHistogramSlope := 0
  adxPeriod := 14
  adxWeight := 1
  adxEnabled := 0
  minAdx := 25
  minDiSpread := 5
  adxRequireTrend := 0
  bbPeriod := 20
  bbStd := 2
  bbWeight := 1
  bbEnabled := 0
  bbAvoidHighVol := 1
  bbMaxAdx := 0
  stPeriod := 10
  stMultiplier := 3
  stWeight := 1
  stEnabled := 0
  stRequireTrend := 0
  volPeriod := 20
  volWeight := 1
  volEnabled := 0
  minCmf := 5 / 100
  minVolumeRatio := 12 / 10
  volRequirePriceAlign := 1
  msPivotBars := 5
  msWeight := 1
  msEnabled := 0
  msRequireBos := 1
  msRequireTrend := 0

/-- The default values of the refine keys. -/
def defaultSpace : RefineSpace where
  slAtrMult := [1, 3 / 2, 2]
  tpAtrMult := [2, 3, 4]
  oversold := [25, 30, 35]
  overbought := [65, 70, 75]
  minAtrPct := [1 / 10, 3 / 10, 5 / 10]

theorem nodup_defaultSpace (key : RefineKey) : (defaultSpace.values key).Nodup := by
  cases key <;> decide +kernel

theorem refineTrialsAround_spec_iff_first :
    ((refineTrialsAround [firstTrial] defaultSpace 9).Nodup ∧
      ((refineTrialsAround [firstTrial] defaultSpace 9).length : ℤ) ≤ 9 ∧
      (∀ candidate ∈ refineTrialsAround [firstTrial] defaultSpace 9,
        ∃ params ∈ [firstTrial], params.OneStep defaultSpace candidate) ∧
      ∀ candidate ∈ refineTrialsAround [firstTrial] defaultSpace 9,
        candidate ∉ [firstTrial]) ↔
    RefinesApart [firstTrial] defaultSpace 9 :=
  refineTrialsAround_spec_iff [firstTrial] defaultSpace 9 nodup_defaultSpace

/-- The second of two neighbouring trials is a refinement of the first. -/
theorem not_refineTrialsAround_apart : ¬ ∀ (topTrials : List TrialParams)
    (space : RefineSpace) (maxRefine : ℤ), (∀ key, (space.values key).Nodup) →
    (refineTrialsAround topTrials space maxRefine).Nodup ∧
      ((refineTrialsAround topTrials space maxRefine).length : ℤ) ≤ maxRefine ∧
      (∀ candidate ∈ refineTrialsAround topTrials space maxRefine,
        ∃ params ∈ topTrials, params.OneStep space candidate) ∧
      ∀ candidate ∈ refineTrialsAround topTrials space maxRefine, candidate ∉ topTrials := by
  intro h
  obtain ⟨_, _, _, hapart⟩ := h [firstTrial, firstTrial.set .slAtrMult (3 / 2)] defaultSpace 9
    nodup_defaultSpace
  exact hapart (firstTrial.set .slAtrMult (3 / 2)) (by decide +kernel) (by decide +kernel)

/-! ## In a run -/

namespace OptimizationCall

section

variable {Params : Type} {call : OptimizationCall Params} {env : OptimizationEnvironment}

theorem params_of_trained {p : Periods} {offered : List Params} {count : ℕ}
    {trained : List (TrialResult Params)}
    (h : (offered.zipIdx count).mapM (fun x => call.trainOne env p x.1 x.2) =
      .ok trained) : trained.map (·.params) = offered := by
  have hsame : List.Forall₂ (· = ·) ((offered.zipIdx count).map Prod.fst)
      (trained.map (·.params)) := by
    rw [List.forall₂_map_left_iff, List.forall₂_map_right_iff]
    refine (Except.mapM_eq_ok.mp h).imp fun offered trial htrained => ?_
    obtain ⟨score, _, htrial⟩ := Except.bind_eq_ok.mp htrained
    cases htrial
    rfl
  rw [List.forall₂_eq_eq_eq, List.zipIdx_map_fst] at hsame
  exact hsame.symm

theorem trials_withHoldout {result : OptimizationResult Params}
    {finalists : List (TrialResult Params)} {run : ℚ × ScoredOutcome} :
    (call.withHoldout env result finalists run).trials = result.trials := by
  unfold withHoldout
  dsimp only
  split <;> rfl

theorem trials_holdOut {before result : OptimizationResult Params}
    {finalists : List (TrialResult Params)} {holdout : Option (ℤ × ℤ)}
    (h : call.holdOut env before finalists holdout = .ok result) :
    result.trials = before.trials := by
  cases holdout with
  | none =>
    cases h
    rfl
  | some range =>
    unfold holdOut at h
    dsimp only at h
    split at h
    · cases h
      rfl
    · obtain ⟨run, _, h⟩ := Except.bind_eq_ok.mp h
      cases h
      exact trials_withHoldout

theorem trialIds_selection (call : OptimizationCall Params) (env : OptimizationEnvironment)
    (p : Periods) (trials finalists : List (TrialResult Params)) :
    (call.selection env p trials finalists).trials.map (·.trialId) = trials.map (·.trialId) := by
  unfold selection
  dsimp only
  rw [List.map_map]
  refine List.map_congr_left fun trial _ => ?_
  cases hfound : List.find? _ _ with
  | none => rw [Function.comp_apply, hfound, Option.getD_none]
  | some finalist =>
    rw [Function.comp_apply, hfound, Option.getD_some]
    simpa using List.find?_some hfound

end

variable {call : OptimizationCall TrialParams} {env : OptimizationEnvironment}
  {space : RefineSpace} {maxRefine : ℤ}

/-- The parameters of the trials that a run refines around: the three best of its finalists. -/
def refinedAround (call : OptimizationCall TrialParams) (trials : List (TrialResult TrialParams)) :
    List TrialParams :=
  (((ranked trials).take call.topK).take 3).map (·.params)

/-- The refinements a run trains are those of its three best finalists. -/
theorem refined_params {p : Periods} {trials trials' finalists' : List (TrialResult TrialParams)}
    (hrefine : call.refine = fun topTrials => refineTrialsAround topTrials space maxRefine)
    (h : call.refineFinalists env p trials = .ok (trials', finalists')) :
    ∃ refined, trials' = trials ++ refined ∧
      refined.map (·.params) = refineTrialsAround (call.refinedAround trials) space maxRefine := by
  unfold refineFinalists at h
  dsimp only at h
  split_ifs at h with hnone
  · cases h
    exact ⟨[], (List.append_nil _).symm, by rw [refinedAround, hnone]; rfl⟩
  · rw [hrefine] at h
    obtain ⟨refined, hrefined, h⟩ := Except.bind_eq_ok.mp h
    cases h
    exact ⟨refined, rfl, params_of_trained hrefined⟩

/-- The trials of a run are those of its search and their refinements, and a finalist that is refined
around is trained again exactly when it is offered before its turn and in time to be taken. -/
theorem run_refinements {result : OptimizationResult TrialParams}
    (hrefine : call.refine = fun topTrials => refineTrialsAround topTrials space maxRefine)
    (h : call.run env = .ok result) :
    ∃ searched refined,
      result.trials.map (·.trialId) = (searched ++ refined).map (·.trialId) ∧
      refined.map (·.params) = refineTrialsAround (call.refinedAround searched) space maxRefine ∧
      ((∀ trial ∈ refined, trial.params ∉ call.refinedAround searched) ↔
        Offer.MarksLate (max 1 maxRefine).toNat (offers (call.refinedAround searched) space)) := by
  obtain ⟨⟨⟨optStart, optEnd⟩, holdout⟩, _, h⟩ := Except.bind_eq_ok.mp h
  obtain ⟨call', hresolved, h⟩ := Except.bind_eq_ok.mp h
  obtain ⟨p, _, h⟩ := Except.bind_eq_ok.mp h
  obtain ⟨searched, _, h⟩ := Except.bind_eq_ok.mp h
  obtain ⟨⟨trials, finalists⟩, hrefined, h⟩ := Except.bind_eq_ok.mp h
  obtain ⟨tested, _, h⟩ := Except.bind_eq_ok.mp h
  obtain ⟨htopK, hrefine'⟩ : call'.topK = call.topK ∧ call'.refine = call.refine := by
    unfold resolved at hresolved
    split at hresolved
    · obtain ⟨path, _, hresolved⟩ := Except.bind_eq_ok.mp hresolved
      cases hresolved
      exact ⟨rfl, rfl⟩
    · cases hresolved
      exact ⟨rfl, rfl⟩
  obtain ⟨refined, rfl, hparams⟩ := refined_params (hrefine'.trans hrefine) hrefined
  refine ⟨searched, refined, ?_, ?_⟩
  · rw [trials_holdOut h]
    exact trialIds_selection call' env p _ tested
  · have haround : call'.refinedAround searched = call.refinedAround searched := by
      rw [refinedAround, refinedAround, htopK]
    rw [← haround, ← refineTrialsAround_disjoint_iff, ← hparams]
    exact ⟨rfl, by simp⟩

end OptimizationCall

end TradingPlatform
