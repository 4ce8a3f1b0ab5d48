import TradingPlatform.Lib.Choice
import TradingPlatform.Lib.Tasks
import TradingPlatform.Validation.Optimization

/-!
# Trials side by side

`run_optimization` trains the trials of a batch as tasks behind a semaphore with
`max_parallel_trials` places and puts the results back into the order of the trials; all that
follows is sequential. A trial gets its id when its training ends, so the ids depend on the order in
which the trainings end, and nothing else of the result does.
-/

namespace TradingPlatform

variable {Params : Type} {σ : ℕ → ℕ}

/-! ## Renamed trials -/

/-- A trial under another id. -/
def TrialResult.renamed (σ : ℕ → ℕ) (trial : TrialResult Params) : TrialResult Params :=
  { trial with trialId := σ trial.trialId }

def OptimizationResult.renamed (σ : ℕ → ℕ) (result : OptimizationResult Params) :
    OptimizationResult Params := { result with
  trials := result.trials.map (TrialResult.renamed σ)
  best := result.best.map (TrialResult.renamed σ)
  fallbackTrial := result.fallbackTrial.map (TrialResult.renamed σ) }

theorem argmax_testTrades_renamed (finalists : List (TrialResult Params)) :
    (finalists.map (TrialResult.renamed σ)).argmax trialTestTrades =
      (finalists.argmax trialTestTrades).map (TrialResult.renamed σ) :=
  List.argmax_map (TrialResult.renamed σ) trialTestTrades finalists

theorem assignParetoRanks_renamed (finalists : List (TrialResult Params)) :
    assignParetoRanks (finalists.map (TrialResult.renamed σ)) =
      (assignParetoRanks finalists).map (TrialResult.renamed σ) := by
  have hmetrics : (finalists.map (TrialResult.renamed σ)).filterMap
      (fun trial => trial.testOutcome.map paretoValues) =
        finalists.filterMap fun trial => trial.testOutcome.map paretoValues := by
    rw [List.filterMap_map]
    rfl
  unfold assignParetoRanks
  rw [hmetrics, List.map_map, List.map_map]
  refine List.map_congr_left fun trial _ => ?_
  obtain ⟨trialId, params, trainScore, trainOutcome, testScore, _ | outcome⟩ := trial <;> rfl

theorem selectBest_renamed (finalists : List (TrialResult Params)) (minTrades : ℤ)
    (minReturnPct : ℚ) :
    selectBest (finalists.map (TrialResult.renamed σ)) minTrades minReturnPct =
      ((selectBest finalists minTrades minReturnPct).1.map (TrialResult.renamed σ),
        (selectBest finalists minTrades minReturnPct).2.map (TrialResult.renamed σ)) := by
  have hscored : (finalists.map (TrialResult.renamed σ)).map (fun trial =>
      { trial with compositeScore := some (compositeScore trial minTrades minReturnPct) }) =
        (finalists.map fun trial => { trial with
          compositeScore := some (compositeScore trial minTrades minReturnPct) }).map
            (TrialResult.renamed σ) := by
    rw [List.map_map, List.map_map]
    rfl
  have hfilter : ∀ (p : TrialResult Params → Bool) (trials : List (TrialResult Params)),
      (∀ trial, p (trial.renamed σ) = p trial) →
        (trials.map (TrialResult.renamed σ)).filter p =
          (trials.filter p).map (TrialResult.renamed σ) := by
    intro p trials hp
    rw [List.filter_map]
    exact congrArg (List.map (TrialResult.renamed σ))
      (List.filter_congr fun trial _ => hp trial)
  simp only [selectBest]
  rw [hscored, assignParetoRanks_renamed, hfilter _ _ fun _ => rfl, hfilter _ _ fun _ => rfl]
  simp only [List.map_eq_nil_iff]
  split <;> exact Prod.ext rfl (List.argmax_map (TrialResult.renamed σ) selectionKey _)

theorem buildSelectionMessage_renamed (floatText : ℚ → String) (minAgreeingProviders : Params → ℤ)
    (finalists : List (TrialResult Params)) (minTrades : ℤ) (minReturnPct : ℚ) :
    buildSelectionMessage floatText minAgreeingProviders (finalists.map (TrialResult.renamed σ))
        minTrades minReturnPct =
      buildSelectionMessage floatText minAgreeingProviders finalists minTrades minReturnPct := by
  unfold buildSelectionMessage
  simp only [List.map_eq_nil_iff, List.map_map, List.countP_map]
  rfl

namespace OptimizationCall

variable (call : OptimizationCall Params) (env : OptimizationEnvironment) (p : Periods)

theorem ranked_renamed (trials : List (TrialResult Params)) :
    ranked (trials.map (TrialResult.renamed σ)) = (ranked trials).map (TrialResult.renamed σ) :=
  (List.map_insertionSort _ _ (TrialResult.renamed σ) trials fun _ _ _ _ => Iff.rfl).symm

theorem trainOne_renamed (params : Params) (i : ℕ) :
    call.trainOne env p params (σ i) =
      (call.trainOne env p params i).map (TrialResult.renamed σ) := by
  unfold trainOne
  cases call.scoreTrial env p.windows (fun w => (w.trainStart, w.trainEnd)) p.train params <;> rfl

theorem testOne_renamed (trial : TrialResult Params) :
    call.testOne env p (trial.renamed σ) =
      (call.testOne env p trial).map (TrialResult.renamed σ) := by
  unfold testOne
  change (call.scoreTrial env p.windows (fun w => (w.testStart, w.testEnd)) p.test
    trial.params).bind _ = _
  cases call.scoreTrial env p.windows (fun w => (w.testStart, w.testEnd)) p.test trial.params <;>
    rfl

/-- The refinements come after the trials of the search: their ids are the same. -/
theorem trainRefined_renamed (refineParams : List Params) {count : ℕ}
    (hσ : ∀ i, count ≤ i → σ i = i) :
    (refineParams.zipIdx count).mapM
        (fun (params, index) => call.trainOne env p params index) =
      ((refineParams.zipIdx count).mapM
        (fun (params, index) => call.trainOne env p params index)).map
          (List.map (TrialResult.renamed σ)) := by
  refine Except.mapM_eq_map fun a ha => ?_
  have hindex := hσ a.2 (List.le_snd_of_mem_zipIdx ha)
  exact (congrArg (call.trainOne env p a.1) hindex).symm.trans
    (call.trainOne_renamed env p a.1 a.2)

theorem refineFinalists_renamed (trials : List (TrialResult Params))
    (hσ : ∀ i, trials.length ≤ i → σ i = i) :
    call.refineFinalists env p (trials.map (TrialResult.renamed σ)) =
      (call.refineFinalists env p trials).map
        (Prod.map (List.map (TrialResult.renamed σ)) (List.map (TrialResult.renamed σ))) := by
  unfold refineFinalists
  rw [ranked_renamed, ← List.map_take, List.length_map]
  generalize (ranked trials).take call.topK = finalists
  dsimp only
  rw [← List.map_take, List.map_map]
  simp only [List.map_eq_nil_iff]
  split
  · rfl
  · have hparams : (finalists.take 3).map ((·.params) ∘ TrialResult.renamed σ) =
        (finalists.take 3).map (·.params) := rfl
    rw [hparams]
    generalize call.refine ((finalists.take 3).map (·.params)) = refineParams
    conv_lhs => rw [call.trainRefined_renamed env p refineParams hσ]
    generalize (List.mapM _ (refineParams.zipIdx trials.length) :
      Except PyError (List (TrialResult Params))) = outcome
    cases outcome with
    | error e => rfl
    | ok refined =>
      refine congrArg Except.ok (Prod.ext List.map_append.symm ?_)
      change (ranked (finalists.map (TrialResult.renamed σ) ++
        refined.map (TrialResult.renamed σ))).take call.topK = _
      rw [← List.map_append, ranked_renamed, ← List.map_take]
      rfl

theorem selection_renamed (hσ : σ.Injective) (trials finalists : List (TrialResult Params)) :
    call.selection env p (trials.map (TrialResult.renamed σ))
        (finalists.map (TrialResult.renamed σ)) =
      (call.selection env p trials finalists).renamed σ := by
  unfold selection
  rw [selectBest_renamed]
  generalize selectBest finalists call.minTrades call.minReturnPct = selected
  obtain ⟨scored, best⟩ := selected
  have hfind : ∀ trial : TrialResult Params,
      ((scored.map (TrialResult.renamed σ)).find? (·.trialId = (trial.renamed σ).trialId)) =
        (scored.find? (·.trialId = trial.trialId)).map (TrialResult.renamed σ) := by
    intro trial
    rw [List.find?_map]
    refine congrArg (Option.map _) (congrArg (List.find? · scored) (funext fun other => ?_))
    exact decide_eq_decide.mpr hσ.eq_iff
  have htrials : (trials.map (TrialResult.renamed σ)).map (fun trial =>
      ((scored.map (TrialResult.renamed σ)).find? (·.trialId = trial.trialId)).getD trial) =
        (trials.map fun trial =>
          (scored.find? (·.trialId = trial.trialId)).getD trial).map (TrialResult.renamed σ) := by
    rw [List.map_map, List.map_map]
    refine List.map_congr_left fun trial _ => ?_
    exact (congrArg (·.getD (trial.renamed σ)) (hfind trial)).trans (Option.getD_map _ _ _)
  dsimp only
  rw [htrials, argmax_testTrades_renamed, buildSelectionMessage_renamed, Option.isSome_map,
    Option.isNone_map]
  simp only [ne_eq, List.map_eq_nil_iff]
  cases best <;> rfl

theorem withHoldout_renamed (result : OptimizationResult Params)
    (finalists : List (TrialResult Params)) (run : ℚ × ScoredOutcome) :
    call.withHoldout env (result.renamed σ) (finalists.map (TrialResult.renamed σ)) run =
      (call.withHoldout env result finalists run).renamed σ := by
  unfold withHoldout
  rw [argmax_testTrades_renamed]
  dsimp only
  rw [apply_ite (OptimizationResult.renamed σ)]
  refine if_congr Iff.rfl ?_ rfl
  obtain ⟨symbol, timeframe, trainStart, trainEnd, testStart, testEnd, trials, best, bestValid,
    selectionMessage, _ | fallbackTrial⟩ := result <;> rfl

theorem holdOut_renamed (result : OptimizationResult Params)
    (finalists : List (TrialResult Params)) (holdout : Option (ℤ × ℤ)) :
    call.holdOut env (result.renamed σ) (finalists.map (TrialResult.renamed σ)) holdout =
      (call.holdOut env result finalists holdout).map (OptimizationResult.renamed σ) := by
  cases holdout with
  | none => rfl
  | some range =>
    cases hbest : result.best with
    | none =>
      have hbest' : (result.renamed σ).best = none := congrArg (Option.map _) hbest
      rw [holdOut, holdOut, hbest, hbest']
      rfl
    | some best =>
      have hbest' : (result.renamed σ).best = some (best.renamed σ) :=
        congrArg (Option.map _) hbest
      rw [holdOut, holdOut, hbest, hbest']
      change (call.runTrial env best.params range).bind _ =
        ((call.runTrial env best.params range).bind _).map _
      cases call.runTrial env best.params range with
      | error e => rfl
      | ok run => exact congrArg Except.ok (call.withHoldout_renamed env result finalists run)

/-! ## The run -/

/-- The parameters a run starts out with. An adaptive search asks for them later. -/
def trialParams : List Params :=
  match call.search with
  | .batch trials => trials
  | .adaptive _ _ => []

/-- What is known before the first trial. -/
structure Opening (Params : Type) where
  call : OptimizationCall Params
  trials : List Params
  periods : Periods
  optEnd : ℤ
  holdout : Option (ℤ × ℤ)

def opening : Except PyError (Opening Params) := do
  let ((optStart, optEnd), holdout) ← splitHoldout call.start call.endTime call.holdoutRatio
  let resolved ← call.resolved env
  let periods ← resolved.periods optStart optEnd
  return { call := resolved, trials := call.trialParams, periods, optEnd, holdout }

/-- The finalists of a run and its result. -/
structure Conclusion (Params : Type) where
  finalists : List (TrialResult Params)
  result : OptimizationResult Params

def Conclusion.renamed (σ : ℕ → ℕ) (conclusion : Conclusion Params) : Conclusion Params where
  finalists := conclusion.finalists.map (TrialResult.renamed σ)
  result := conclusion.result.renamed σ

theorem Conclusion.renamed_renamed (τ σ : ℕ → ℕ) (conclusion : Conclusion Params) :
    (conclusion.renamed σ).renamed τ = conclusion.renamed (τ ∘ σ) := by
  simp only [Conclusion.renamed, OptimizationResult.renamed, List.map_map, Option.map_map]
  rfl

namespace Opening

variable (o : Opening Params)

/-- The part of `run_optimization` after the tests. -/
def settle (trials tested : List (TrialResult Params)) : Except PyError (Conclusion Params) := do
  let result := { o.call.selection env o.periods trials tested with
    holdoutStart := o.holdout.map Prod.fst
    holdoutEnd := o.holdout.map Prod.snd
    optimizationEnd := some o.optEnd }
  let finalists := (selectBest tested o.call.minTrades o.call.minReturnPct).1
  let result ← o.call.holdOut env result finalists o.holdout
  return { finalists, result }

/-- The part of `run_optimization` after the training. -/
def conclude (trials : List (TrialResult Params)) : Except PyError (Conclusion Params) := do
  let (trials, finalists) ← o.call.refineFinalists env o.periods trials
  let tested ← finalists.mapM (o.call.testOne env o.periods)
  o.settle env trials tested

/-- The work of a task of the training. -/
def work (trialId : ℕ) (params : Params) : Except PyError (TrialResult Params) :=
  o.call.trainOne env o.periods params trialId

/-- The tasks of the training after some events, with `max(1, int(max_parallel_trials))` places. -/
def trainTasks (maxParallelTrials : ℤ) (schedule : List Tasks.Event) :
    Option (Tasks.Pool Params (TrialResult Params) PyError) :=
  (Tasks.Pool.start o.trials).after (o.work env) (max 1 maxParallelTrials).toNat schedule

end Opening

/-- A run of `run_optimization` on a batch of trials in which the events of the training come in the
order of the schedule, if they can and the training is over with them. -/
def runConcurrently (maxParallelTrials : ℤ) (schedule : List Tasks.Event) :
    Option (Except PyError (Conclusion Params)) :=
  match call.opening env with
  | .error e => if schedule = [] then some (.error e) else none
  | .ok o => do
    let tasks ← o.trainTasks env maxParallelTrials schedule
    let trained ← tasks.outcome
    return trained.bind (o.conclude env)

/-- The events of the training can come in this order. -/
def Possible (maxParallelTrials : ℤ) (schedule : List Tasks.Event) : Prop :=
  match call.opening env with
  | .error _ => schedule = []
  | .ok o => (o.trainTasks env maxParallelTrials schedule).isSome

/-- The events can come in this order, and no other can follow. -/
def Complete (maxParallelTrials : ℤ) (schedule : List Tasks.Event) : Prop :=
  call.Possible env maxParallelTrials schedule ∧
    ∀ event, ¬ call.Possible env maxParallelTrials (schedule ++ [event])

/-- The run with the trials trained in their order. -/
def runInOrder : Except PyError (Conclusion Params) := do
  let o ← call.opening env
  let trials ← o.trials.zipIdx.mapM fun (params, index) => o.work env index params
  o.conclude env trials

variable {call env}

theorem search_of_resolved {call' : OptimizationCall Params}
    (h : call.resolved env = .ok call') : call'.search = call.search := by
  unfold resolved at h
  split at h
  · obtain ⟨path, _, h⟩ := Except.bind_eq_ok.mp h
    cases h
    rfl
  · cases h
    rfl

theorem run_eq_bind : call.run env = call.opening env >>= fun o =>
    o.call.trainAll env o.periods >>= fun trials => (·.result) <$> o.conclude env trials := by
  simp only [run, opening, Opening.conclude, Opening.settle, map_eq_bind_pure_comp, bind_assoc,
    Function.comp_def, pure_bind, bind_pure]

theorem trainAll_of_opening {o : Opening Params} {trials : List Params}
    (hsearch : call.search = .batch trials) (h : call.opening env = .ok o) :
    o.call.trainAll env o.periods =
      o.trials.zipIdx.mapM fun (params, index) => o.work env index params := by
  obtain ⟨⟨⟨optStart, optEnd⟩, holdout⟩, _, h⟩ := Except.bind_eq_ok.mp h
  obtain ⟨call', hresolved, h⟩ := Except.bind_eq_ok.mp h
  obtain ⟨p, _, h⟩ := Except.bind_eq_ok.mp h
  cases h
  simp only [trainAll, search_of_resolved hresolved, hsearch, trialParams, Opening.work]

/-- `runInOrder` is `run`, with the finalists kept. -/
theorem run_eq_runInOrder {trials : List Params} (hsearch : call.search = .batch trials) :
    call.run env = (·.result) <$> call.runInOrder env := by
  rw [run_eq_bind]
  unfold runInOrder
  cases hopening : call.opening env with
  | error e => rfl
  | ok o =>
    change (o.call.trainAll env o.periods >>= fun trials => _) = _
    rw [trainAll_of_opening hsearch hopening]
    exact (map_bind _ _ _).symm

/-! ## Schedules -/

theorem settle_renamed (o : Opening Params) (hσ : σ.Injective)
    (trials tested : List (TrialResult Params)) :
    o.settle env (trials.map (TrialResult.renamed σ)) (tested.map (TrialResult.renamed σ)) =
      (o.settle env trials tested).map (Conclusion.renamed σ) := by
  have hscored : (selectBest (tested.map (TrialResult.renamed σ)) o.call.minTrades
      o.call.minReturnPct).1 =
        (selectBest tested o.call.minTrades o.call.minReturnPct).1.map (TrialResult.renamed σ) :=
    congrArg Prod.fst (selectBest_renamed tested o.call.minTrades o.call.minReturnPct)
  unfold Opening.settle
  rw [o.call.selection_renamed env o.periods hσ, hscored]
  refine (congrArg (Except.bind · _) (o.call.holdOut_renamed env
    { o.call.selection env o.periods trials tested with
      holdoutStart := o.holdout.map Prod.fst
      holdoutEnd := o.holdout.map Prod.snd
      optimizationEnd := some o.optEnd } _ o.holdout)).trans ?_
  change _ = ((o.call.holdOut env _ _ _).bind _).map _
  cases o.call.holdOut env _ _ o.holdout <;> rfl

/-- A conclusion from renamed trials is the renamed conclusion. -/
theorem conclude_renamed (o : Opening Params) (hσ : σ.Injective)
    (trials : List (TrialResult Params)) (hfix : ∀ i, trials.length ≤ i → σ i = i) :
    o.conclude env (trials.map (TrialResult.renamed σ)) =
      (o.conclude env trials).map (Conclusion.renamed σ) := by
  unfold Opening.conclude
  rw [refineFinalists_renamed _ _ _ _ hfix]
  cases o.call.refineFinalists env o.periods trials with
  | error e => rfl
  | ok refined =>
  obtain ⟨trials, finalists⟩ := refined
  have htested : (finalists.map (TrialResult.renamed σ)).mapM (o.call.testOne env o.periods) =
      (finalists.mapM (o.call.testOne env o.periods)).map (List.map (TrialResult.renamed σ)) := by
    rw [List.mapM_map]
    exact Except.mapM_eq_map fun trial _ => o.call.testOne_renamed env o.periods trial
  change ((finalists.map (TrialResult.renamed σ)).mapM (o.call.testOne env o.periods)).bind _ =
    ((finalists.mapM (o.call.testOne env o.periods)).bind _).map _
  rw [htested]
  cases finalists.mapM (o.call.testOne env o.periods) with
  | error e => rfl
  | ok tested => exact settle_renamed o hσ trials tested

variable {o : Opening Params} {maxParallelTrials : ℤ} {schedule : List Tasks.Event}

theorem places_pos : 0 < (max 1 maxParallelTrials).toNat := by omega

theorem trainTasks_concat (event : Tasks.Event) :
    o.trainTasks env maxParallelTrials (schedule ++ [event]) =
      (o.trainTasks env maxParallelTrials schedule).bind fun tasks =>
        tasks.step (o.work env) (max 1 maxParallelTrials).toNat event := by
  unfold Opening.trainTasks
  rw [Tasks.Pool.after_append]
  refine congrArg (Option.bind _) (funext fun tasks => ?_)
  rw [Tasks.Pool.after_cons]
  exact Option.bind_fun_some _

/-- A schedule that nothing can follow has ended the training. -/
theorem exists_outcome_of_complete (hopening : call.opening env = .ok o)
    (h : call.Complete env maxParallelTrials schedule) :
    ∃ tasks trained, o.trainTasks env maxParallelTrials schedule = some tasks ∧
      tasks.outcome = some trained := by
  have hpossible : (o.trainTasks env maxParallelTrials schedule).isSome := by
    simpa only [Possible, hopening] using h.1
  obtain ⟨tasks, htasks⟩ := Option.isSome_iff_exists.mp hpossible
  cases hout : tasks.outcome with
  | some trained => exact ⟨tasks, trained, htasks, hout⟩
  | none =>
    obtain ⟨event, hevent⟩ : ∃ event,
        (tasks.step (o.work env) (max 1 maxParallelTrials).toNat event).isSome :=
      Tasks.Pool.exists_step places_pos hout
    refine absurd ?_ (h.2 event)
    simp only [Possible, hopening]
    rw [trainTasks_concat, htasks]
    exact hevent

/-- Whatever the order of the events, the training comes to what it comes to in the order of the
trials. -/
theorem conclude_of_outcome {tasks : Tasks.Pool Params (TrialResult Params) PyError}
    {trained : Except PyError (List (TrialResult Params))}
    (htasks : o.trainTasks env maxParallelTrials schedule = some tasks)
    (hout : tasks.outcome = some trained) :
    ∃ σ : Equiv.Perm ℕ, (trained.bind (o.conclude env)).toOption =
      ((o.trials.zipIdx.mapM fun (params, index) => o.work env index params).bind
        (o.conclude env)).toOption.map (Conclusion.renamed σ) := by
  rcases Tasks.Pool.outcome_of_after htasks hout with
    ⟨σ, hfix, hmap⟩ | ⟨params, hin, n, e, hwork, rfl⟩
  · refine ⟨σ, ?_⟩
    have hrenamed : o.trials.zipIdx.mapM (fun (params, i) => o.work env (σ i) params) =
        (o.trials.zipIdx.mapM fun (params, index) => o.work env index params).map
          (List.map (TrialResult.renamed σ)) :=
      Except.mapM_eq_map fun (params, i) _ => o.call.trainOne_renamed env o.periods params i
    rw [← hmap, hrenamed]
    cases hin : o.trials.zipIdx.mapM fun (params, index) => o.work env index params with
    | error e => rfl
    | ok trials =>
      have hlength : o.trials.length = trials.length := by
        rw [← List.length_zipIdx]
        exact (Except.mapM_eq_ok.mp hin).length_eq
      change (o.conclude env (trials.map (TrialResult.renamed σ))).toOption = _
      rw [conclude_renamed o σ.injective trials fun i hi => hfix i (hlength ▸ hi)]
      change _ = (o.conclude env trials).toOption.map _
      cases o.conclude env trials <;> rfl
  · refine ⟨1, ?_⟩
    obtain ⟨i, hget⟩ := List.mem_iff_getElem?.mp hin
    have hindex : (params, i) ∈ o.trials.zipIdx := List.mem_zipIdx_iff_getElem?.mpr hget
    cases htrials : o.trials.zipIdx.mapM fun (params, index) => o.work env index params with
    | error e' => rfl
    | ok trials =>
      -- No trial fails under one number and returns under another.
      obtain ⟨trial, htrial⟩ := Except.ok_of_mapM_eq_ok htrials hindex
      have hok := o.call.trainOne_renamed (σ := fun _ => n) env o.periods params i
      change o.work env n params = (o.work env i params).map _ at hok
      have htrial : o.work env i params = .ok trial := htrial
      rw [hwork, htrial] at hok
      cases hok

theorem runConcurrently_of_complete (h : call.Complete env maxParallelTrials schedule) :
    ∃ (r : Except PyError (Conclusion Params)) (σ : Equiv.Perm ℕ),
      call.runConcurrently env maxParallelTrials schedule = some r ∧
      r.toOption = (call.runInOrder env).toOption.map (Conclusion.renamed σ) := by
  cases hopening : call.opening env with
  | error e =>
    have hempty : schedule = [] := by simpa only [Possible, hopening] using h.1
    refine ⟨.error e, 1, ?_, ?_⟩
    · rw [runConcurrently, hopening, hempty]
      rfl
    · rw [runInOrder, hopening]
      rfl
  | ok o =>
    obtain ⟨tasks, trained, htasks, hout⟩ := exists_outcome_of_complete hopening h
    obtain ⟨σ, hσ⟩ := conclude_of_outcome htasks hout
    refine ⟨trained.bind (o.conclude env), σ, ?_, ?_⟩
    · rw [runConcurrently, hopening]
      simp only [htasks, hout, Option.bind_eq_bind, Option.bind_some]
      rfl
    · rw [runInOrder, hopening]
      exact hσ

theorem trials_of_opening (h : call.opening env = .ok o) : o.trials = call.trialParams := by
  obtain ⟨⟨⟨optStart, optEnd⟩, holdout⟩, _, h⟩ := Except.bind_eq_ok.mp h
  obtain ⟨call', _, h⟩ := Except.bind_eq_ok.mp h
  obtain ⟨p, _, h⟩ := Except.bind_eq_ok.mp h
  cases h
  rfl

/-- A schedule after which the training has come to an outcome is complete. -/
theorem complete_of_outcome {tasks : Tasks.Pool Params (TrialResult Params) PyError}
    (hopening : call.opening env = .ok o)
    (htasks : o.trainTasks env maxParallelTrials schedule = some tasks)
    (hout : tasks.outcome.isSome) : call.Complete env maxParallelTrials schedule := by
  refine ⟨?_, fun event => ?_⟩
  · simp only [Possible, hopening, htasks, Option.isSome_some]
  · simp only [Possible, hopening]
    rw [trainTasks_concat, htasks, Option.bind_some, Tasks.Pool.step_of_outcome hout]
    exact Bool.false_ne_true

/-- The training ends, whatever the order of its events. -/
theorem exists_complete (h : call.Possible env maxParallelTrials schedule) :
    schedule.length ≤ 2 * call.trialParams.length ∧
      ∃ rest, call.Complete env maxParallelTrials (schedule ++ rest) := by
  cases hopening : call.opening env with
  | error e =>
    have hempty : schedule = [] := by simpa only [Possible, hopening] using h
    subst hempty
    refine ⟨Nat.zero_le _, [], h, fun event hevent => ?_⟩
    simp only [Possible, hopening] at hevent
    exact List.cons_ne_nil _ _ hevent
  | ok o =>
    have hsome : (o.trainTasks env maxParallelTrials schedule).isSome := by
      simpa only [Possible, hopening] using h
    obtain ⟨tasks, htasks⟩ := Option.isSome_iff_exists.mp hsome
    refine ⟨trials_of_opening hopening ▸ Tasks.Pool.length_le_of_after htasks, ?_⟩
    obtain ⟨rest, ended, hended, hout⟩ : ∃ rest ended,
        tasks.after (o.work env) (max 1 maxParallelTrials).toNat rest = some ended ∧
          ended.outcome.isSome :=
      Tasks.Pool.exists_outcome places_pos tasks
    refine ⟨rest, complete_of_outcome hopening ?_ hout⟩
    unfold Opening.trainTasks at htasks ⊢
    rw [Tasks.Pool.after_append, htasks]
    exact hended

/-- A run that returns has ended its training. -/
theorem complete_of_isSome (h : (call.runConcurrently env maxParallelTrials schedule).isSome) :
    call.Complete env maxParallelTrials schedule := by
  unfold runConcurrently at h
  cases hopening : call.opening env with
  | error e =>
    have hempty : schedule = [] := by
      by_contra hne
      simp [hopening, hne] at h
    subst hempty
    have hempty : call.Possible env maxParallelTrials [] := by simp only [Possible, hopening]
    obtain ⟨_, rest, hrest⟩ := exists_complete hempty
    have hnone : rest = [] := by simpa only [Possible, hopening, List.nil_append] using hrest.1
    exact hnone ▸ hrest
  | ok o =>
    rw [hopening] at h
    obtain ⟨r, hr⟩ := Option.isSome_iff_exists.mp h
    obtain ⟨tasks, htasks, hr⟩ := Option.bind_eq_some_iff.mp hr
    obtain ⟨trained, hout, _⟩ := Option.bind_eq_some_iff.mp hr
    exact complete_of_outcome hopening htasks (hout ▸ rfl)

/-- A run returns what `run` returns, up to the ids of the trials. -/
theorem result_of_complete {trials : List Params} (hsearch : call.search = .batch trials)
    (h : call.Complete env maxParallelTrials schedule) :
    ∃ (r : Except PyError (Conclusion Params)) (σ : Equiv.Perm ℕ),
      call.runConcurrently env maxParallelTrials schedule = some r ∧
      r.toOption.map (·.result) = (call.run env).toOption.map (OptimizationResult.renamed σ) := by
  obtain ⟨r, σ, hrun, hr⟩ := runConcurrently_of_complete h
  refine ⟨r, σ, hrun, ?_⟩
  rw [hr, run_eq_runInOrder hsearch]
  cases call.runInOrder env <;> rfl

/-- The training of a batch ends whatever the order of its events, and whatever that order and the
number of places, the run returns what it returns with one place, up to the ids of the trials: the
same finalists, trials, choice and verdict, or no result. That is what `run` returns. -/
theorem runConcurrently_agrees {trials : List Params} (hsearch : call.search = .batch trials)
    (maxParallelTrials : ℤ) :
    (∀ schedule, call.Possible env maxParallelTrials schedule →
      schedule.length ≤ 2 * trials.length ∧
        ∃ rest, call.Complete env maxParallelTrials (schedule ++ rest)) ∧
    ∀ schedule one, call.Complete env maxParallelTrials schedule → call.Complete env 1 one →
      ∃ (r r₁ : Except PyError (Conclusion Params)) (σ : Equiv.Perm ℕ),
        call.runConcurrently env maxParallelTrials schedule = some r ∧
        call.runConcurrently env 1 one = some r₁ ∧
        r.toOption = r₁.toOption.map (Conclusion.renamed σ) := by
  have htrials : call.trialParams = trials := by rw [trialParams, hsearch]
  refine ⟨fun schedule h => htrials ▸ exists_complete h, fun schedule one h h₁ => ?_⟩
  obtain ⟨r, σ, hrun, hr⟩ := runConcurrently_of_complete h
  obtain ⟨r₁, σ₁, hrun₁, hr₁⟩ := runConcurrently_of_complete h₁
  refine ⟨r, r₁, σ * σ₁⁻¹, hrun, hrun₁, ?_⟩
  rw [hr, hr₁, Option.map_map]
  refine congrArg (Option.map · _) (funext fun conclusion => ?_)
  rw [Function.comp_apply, Conclusion.renamed_renamed]
  refine congrArg (Conclusion.renamed · conclusion) (funext fun i => ?_)
  simp

/-! ## Two trials -/

/-- A sweep of two trials, of which one buys and one sells. -/
def sideBySide : OptimizationCall SignalSide where
  symbol := "BTC/USDT"
  timeframe := "1d"
  start := 0
  endTime := 3 * 86400000000
  trainRatio := 1 / 2
  search := .batch [.buy, .sell]
  space := {
    engineConfig := fun _ => .solo
    executionConfig := fun _ => .tenth
    collaborators := fun side _ _ _ => .serving (.flat 0 100) side
    revisionId := fun _ => "rev"
    minAgreeingProviders := fun _ => 1 }
  minTrades := 0
  holdoutRatio := 1 / 3
  refine _ := []

def fourBars : OptimizationEnvironment := { JobEnvironment.flat .close 4 with
  floatText := fun _ => "0.0" }

/-- Both trials run, and the second ends first. -/
theorem runConcurrently_agrees_sideBySide :
    ∃ (r r₁ : Except PyError (Conclusion SignalSide)) (σ : Equiv.Perm ℕ),
      sideBySide.runConcurrently fourBars 2
        [.acquire, .acquire, .complete 1, .complete 0] = some r ∧
      sideBySide.runConcurrently fourBars 1
        [.acquire, .complete 0, .acquire, .complete 0] = some r₁ ∧
      r.toOption = r₁.toOption.map (Conclusion.renamed σ) :=
  (runConcurrently_agrees rfl 2).2 _ _ (complete_of_isSome (by decide +kernel))
    (complete_of_isSome (by decide +kernel))

end OptimizationCall

end TradingPlatform
