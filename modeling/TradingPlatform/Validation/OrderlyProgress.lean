import TradingPlatform.Validation.Progress
import TradingPlatform.Validation.Refinement

/-!
# Progress in order

The progress of a run counts the trials that have ended, the refinements and the tests, so it never
goes back by itself. A trial that reports its bars after another has ended takes it back, and the
refinements that are really offered, with the finalists they add, may take it beyond the total that
was estimated without them.
-/

namespace TradingPlatform

variable {Params : Type}

/-- Progress that never goes back and never exceeds its total. -/
structure SweepProgress.Orderly {T : Type} (events : List (SweepProgress T)) : Prop where
  nondecreasing : (events.map (·.current)).Pairwise (· ≤ ·)
  bounded : ∀ event ∈ events, event.current ≤ event.total

theorem SweepProgress.Orderly.of_beginning {T : Type} {emitted events : List (SweepProgress T)}
    (h : Orderly events) (hfirst : emitted <+: events) : Orderly emitted where
  nondecreasing := h.nondecreasing.sublist (hfirst.sublist.map _)
  bounded event hevent := h.bounded event (hfirst.subset hevent)

namespace OptimizationCall

/-- The refinements that follow some trials. -/
def refinements (call : OptimizationCall Params) (localRefine : Bool)
    (trials : List (TrialResult Params)) : ℕ :=
  (call.refineParams localRefine ((ranked trials).take call.topK)).length

/-- The refinements and the tests that follow some trials. -/
def laterSteps (call : OptimizationCall Params) (localRefine : Bool)
    (trials : List (TrialResult Params)) : ℕ :=
  call.refinements localRefine trials +
    min call.topK (trials.length + call.refinements localRefine trials)

/-- The plan leaves room for the refinements and the tests that follow the trials. -/
def LeavesRoom (call : OptimizationCall Params) (localRefine : Bool)
    (trials : List (TrialResult Params)) : Prop :=
  call.laterSteps localRefine trials ≤
    min call.topK trials.length + if localRefine then min 9 trials.length else 0

/-- The events of the run are in order under two conditions, and if it comes to its end, only
then. -/
def SweepCourse.OrderlyWhen (course : SweepCourse Params) (inTime room : Prop) : Prop :=
  (inTime ∧ room → SweepProgress.Orderly course.events) ∧
    ((∃ results, course.outcome = some (.ok results)) →
      SweepProgress.Orderly course.events → inTime ∧ room)

/-! ## Steps of a training -/

namespace Opening

variable {o : Opening Params} {env : OptimizationEnvironment} {plan : SweepPlan} {places : ℕ}
  {s s' : Training Params} {event : TrainEvent} {schedule : List TrainEvent}

/-- What a step of a training can do. -/
inductive Training.Moves (o : Opening Params) (env : OptimizationEnvironment) (plan : SweepPlan)
    (s : Training Params) : TrainEvent → Training Params → Prop
  | started {t : Params × ℕ} {rest : List (Params × ℕ)} (hwaiting : s.tasks.waiting = t :: rest) :
    Moves o env plan s (.task .acquire) { s with
      tasks := { s.tasks with waiting := rest, running := s.tasks.running ++ [t] }
      startSteps := s.startSteps ++ [s.tasks.ended.length]
      emitted := s.emitted ++ [plan.trainStart t.2 s.tasks.ended.length] }
  | ended {place index : ℕ} {params : Params} {trial : TrialResult Params}
    (hrunning : s.tasks.running[place]? = some (params, index))
    (hwork : o.work env s.tasks.ended.length params = .ok trial) :
    Moves o env plan s (.task (.complete place)) { s with
      tasks := { s.tasks with
        running := s.tasks.running.eraseIdx place
        ended := s.tasks.ended ++ [index]
        results := s.tasks.results.set index (some trial) }
      startSteps := s.startSteps.eraseIdx place
      emitted := s.emitted ++ [plan.event .train .done (s.tasks.ended ++ [index]).length
        ((s.tasks.results.set index (some trial))[index]?).join] }
  | failed {place index : ℕ} {params : Params} {e : PyError}
    (hrunning : s.tasks.running[place]? = some (params, index))
    (hwork : o.work env s.tasks.ended.length params = .error e) :
    Moves o env plan s (.task (.complete place)) { s with
      tasks := { s.tasks with running := s.tasks.running.eraseIdx place, raised := none }
      startSteps := s.startSteps.eraseIdx place
      failed := s.failed <|> some e }
  | reported {place index startStep : ℕ} {params : Params} {progress : ValidationProgress}
    (hrunning : s.tasks.running[place]? = some (params, index))
    (hstart : s.startSteps[place]? = some startStep) :
    Moves o env plan s (.report place progress) { s with
      emitted := s.emitted ++ (o.barEvent plan index startStep progress).toList }

theorem moves_of_trainStep (h : o.trainStep env plan places s event = some s') :
    s.Moves o env plan event s' := by
  cases event with
  | task event =>
    cases event with
    | acquire =>
      obtain ⟨first, hfirst, h⟩ := Option.bind_eq_some_iff.mp h
      obtain ⟨tasks, htasks, h⟩ := Option.bind_eq_some_iff.mp h
      obtain ⟨_, _, t, rest, hwaiting, rfl⟩ := Tasks.Pool.step_acquire htasks
      rw [hwaiting] at hfirst
      cases hfirst
      cases h
      exact .started hwaiting
    | complete place =>
      obtain ⟨⟨params, index⟩, hrunning, h⟩ := Option.bind_eq_some_iff.mp h
      obtain ⟨tasks, htasks, h⟩ := Option.bind_eq_some_iff.mp h
      obtain ⟨hgoing, a, i, hget, htasks⟩ := Tasks.Pool.step_complete htasks
      cases hrunning.symm.trans hget
      rcases htasks with ⟨trial, hwork, rfl⟩ | ⟨e, hwork, rfl⟩
      · split at h
        · cases h
          exact .ended hrunning hwork
        · next e hraised => cases hgoing.symm.trans hraised
      · cases h
        exact .failed hrunning hwork
  | report place progress =>
    obtain ⟨⟨params, index⟩, hrunning, h⟩ := Option.bind_eq_some_iff.mp h
    obtain ⟨startStep, hstart, h⟩ := Option.bind_eq_some_iff.mp h
    cases h
    exact .reported hrunning hstart

/-! ## Reports -/

/-- A report is in time: no trial has ended since the one that reports has started. -/
def InTime (o : Opening Params) (s : Training Params) : TrainEvent → Prop
  | .task _ => True
  | .report place progress => o.periods.windows = [] → progress.phase = "backtest" →
    0 < progress.total → ∀ startStep, s.startSteps[place]? = some startStep →
      startStep = s.tasks.ended.length

/-- All reports of the schedule are in time. -/
def InTimeAlong (o : Opening Params) (env : OptimizationEnvironment) (plan : SweepPlan)
    (places : ℕ) (s : Training Params) : List TrainEvent → Prop
  | [] => True
  | event :: later => o.InTime s event ∧
    ∀ s', o.trainStep env plan places s event = some s' → o.InTimeAlong env plan places s' later

/-- The trials of a training that no failure has ended. -/
def Training.held (s : Training Params) : ℕ :=
  s.tasks.ended.length + s.tasks.running.length + s.tasks.waiting.length

/-- What a training has emitted counts the trials that have ended. -/
structure Training.Counts (plan : SweepPlan) (s : Training Params) : Prop where
  startSteps : ∀ startStep ∈ s.startSteps, startStep ≤ s.tasks.ended.length
  reported : Tracking.Reported 0 (s.emitted.map (·.current)) (s.tasks.ended.length : ℤ)
  total : ∀ event ∈ s.emitted, event.total = plan.totalSteps
  held : s.held ≤ plan.nTrain
  all : s.failed = none → s.held = plan.nTrain

theorem inTime_task {event : Tasks.Event} : o.InTime s (.task event) := trivial

/-- A report is in time if it is not passed on, or no trial has ended since. -/
theorem inTime_report {place index startStep : ℕ} {progress : ValidationProgress}
    (hstart : s.startSteps[place]? = some startStep) :
    o.barEvent plan index startStep progress = none ∧ o.InTime s (.report place progress) ∨
      o.barEvent plan index startStep progress = some (plan.trainBar index startStep progress) ∧
        (o.InTime s (.report place progress) ↔ startStep = s.tasks.ended.length) := by
  unfold barEvent
  split_ifs with hguard
  · refine .inl ⟨rfl, fun hwindows hphase htotal => ?_⟩
    rcases hguard with hguard | hguard | hguard
    · exact absurd hwindows hguard
    · exact absurd hphase hguard
    · exact absurd htotal hguard.not_gt
  · push Not at hguard
    obtain ⟨hwindows, hphase, htotal⟩ := hguard
    refine .inr ⟨rfl, fun h => h hwindows hphase htotal startStep hstart, fun heq => ?_⟩
    intro _ _ _ startStep' hstart'
    cases hstart.symm.trans hstart'
    exact heq

theorem total_emit {emitted : List (SweepProgress (TrialResult Params))}
    {e : SweepProgress (TrialResult Params)}
    (h : ∀ event ∈ emitted, event.total = plan.totalSteps) (he : e.total = plan.totalSteps) :
    ∀ event ∈ emitted ++ [e], event.total = plan.totalSteps := by
  intro event hevent
  rcases List.mem_append.mp hevent with hevent | hevent
  · exact h event hevent
  · exact List.mem_singleton.mp hevent ▸ he

theorem Training.Moves.held (h : s.Moves o env plan event s') :
    s'.held ≤ s.held ∧ (s'.failed = none → s.failed = none ∧ s'.held = s.held) := by
  cases h with
  | @started t rest hwaiting =>
    have hheld : s.tasks.ended.length + (s.tasks.running ++ [t]).length + rest.length = s.held := by
      simp only [Training.held, hwaiting, List.length_append, List.length_cons, List.length_nil]
      omega
    exact ⟨hheld.le, fun hfailed => ⟨hfailed, hheld⟩⟩
  | @ended place index params trial hrunning hwork =>
    obtain ⟨hlt, _⟩ := List.getElem?_eq_some_iff.mp hrunning
    have hheld : (s.tasks.ended ++ [index]).length + (s.tasks.running.eraseIdx place).length +
        s.tasks.waiting.length = s.held := by
      simp only [Training.held, List.length_append, List.length_singleton,
        List.length_eraseIdx_of_lt hlt]
      omega
    exact ⟨hheld.le, fun hfailed => ⟨hfailed, hheld⟩⟩
  | @failed place index params e hrunning hwork =>
    have hheld : (s.tasks.running.eraseIdx place).length ≤ s.tasks.running.length :=
      List.length_eraseIdx_le ..
    refine ⟨?_, fun hfailed => ?_⟩
    · simp only [Training.held]
      omega
    · cases hnone : s.failed <;> simp [hnone] at hfailed
  | reported => exact ⟨le_rfl, fun hfailed => ⟨hfailed, rfl⟩⟩

theorem Training.Counts.moves (h : s.Counts plan) (hmoves : s.Moves o env plan event s') :
    s'.Counts plan ∧ ((s'.emitted.map (·.current)).Pairwise (· ≤ ·) ↔
      (s.emitted.map (·.current)).Pairwise (· ≤ ·) ∧ o.InTime s event) := by
  have hheld : s'.held ≤ plan.nTrain := hmoves.held.1.trans h.held
  have hall : s'.failed = none → s'.held = plan.nTrain := fun hfailed => by
    obtain ⟨hbefore, hsame⟩ := hmoves.held.2 hfailed
    exact hsame.trans (h.all hbefore)
  have herase : ∀ place, ∀ startStep ∈ s.startSteps.eraseIdx place,
      startStep ≤ s.tasks.ended.length := fun place startStep hin =>
    h.startSteps startStep (List.mem_of_mem_eraseIdx hin)
  cases hmoves with
  | @started t rest hwaiting =>
    refine ⟨⟨fun startStep hin => ?_, ?_, total_emit h.total rfl, hheld, hall⟩, ?_⟩
    · rcases List.mem_append.mp hin with hin | hin
      · exact h.startSteps startStep hin
      · exact (List.mem_singleton.mp hin).le
    · rw [List.map_append]
      exact h.reported.moved le_rfl
    · rw [List.map_append, and_iff_left inTime_task]
      exact h.reported.pairwise_moved_iff le_rfl
  | @ended place index params trial hrunning hwork =>
    have hmore : (s.tasks.ended.length : ℤ) ≤ (s.tasks.ended ++ [index]).length := by
      rw [List.length_append]
      omega
    refine ⟨⟨fun startStep hin => ?_, ?_, total_emit h.total rfl, hheld, hall⟩, ?_⟩
    · exact (herase place startStep hin).trans (Int.ofNat_le.mp hmore)
    · rw [List.map_append]
      exact h.reported.moved hmore
    · rw [List.map_append, and_iff_left inTime_task]
      exact h.reported.pairwise_moved_iff hmore
  | @failed place index params e hrunning hwork =>
    exact ⟨⟨herase place, h.reported, h.total, hheld, hall⟩, (and_iff_left inTime_task).symm⟩
  | @reported place index startStep params progress hrunning hstart =>
    have hle : (startStep : ℤ) ≤ s.tasks.ended.length :=
      Int.ofNat_le.mpr (h.startSteps startStep (List.mem_of_getElem? hstart))
    have hreport : o.barEvent plan index startStep progress = none ∧ _ ∨ _ := inTime_report hstart
    rcases hreport with ⟨hsilent, hintime⟩ | ⟨hloud, hintime⟩
    · simp only [hsilent, Option.toList_none, List.append_nil]
      exact ⟨h, (and_iff_left hintime).symm⟩
    · simp only [hloud, Option.toList_some, List.map_append, hintime]
      refine ⟨⟨h.startSteps, ?_, total_emit h.total rfl, hheld, hall⟩, ?_⟩
      · rw [List.map_append]
        exact h.reported.concat hle
      · refine (h.reported.pairwise_concat_iff (Int.natCast_nonneg startStep) hle).trans ?_
        exact and_congr_right fun _ => Int.ofNat_inj

theorem Training.Counts.after (h : s.Counts plan)
    (hafter : o.trainAfter env plan places s schedule = some s') :
    s'.Counts plan ∧ ((s'.emitted.map (·.current)).Pairwise (· ≤ ·) ↔
      (s.emitted.map (·.current)).Pairwise (· ≤ ·) ∧
        o.InTimeAlong env plan places s schedule) := by
  induction schedule generalizing s with
  | nil =>
    cases hafter
    exact ⟨h, (and_iff_left trivial).symm⟩
  | cons event schedule ih =>
    obtain ⟨s₁, hstep, hafter⟩ := Option.bind_eq_some_iff.mp hafter
    obtain ⟨hcounts, hmoved⟩ := h.moves (moves_of_trainStep hstep)
    obtain ⟨hcounts', hafter'⟩ := ih hcounts hafter
    have halong : o.InTimeAlong env plan places s (event :: schedule) ↔
        o.InTime s event ∧ o.InTimeAlong env plan places s₁ schedule := by
      simp only [InTimeAlong, hstep, Option.some.injEq, forall_eq']
    rw [hafter', hmoved, halong, and_assoc]
    exact ⟨hcounts', Iff.rfl⟩

/-! ## The tasks of a training -/

/-- The step of the tasks that an event is, unless it is a report. -/
def TrainEvent.task? : TrainEvent → Option Tasks.Event
  | .task event => some event
  | .report _ _ => none

theorem tasks_of_trainStep (h : o.trainStep env plan places s event = some s')
    (hfailed : s'.failed = none) : s.failed = none ∧
      s.tasks.after (o.work env) places event.task?.toList = some s'.tasks := by
  refine ⟨((moves_of_trainStep h).held.2 hfailed).1, ?_⟩
  cases event with
  | task event =>
    have hstep : s.tasks.step (o.work env) places event = some s'.tasks := by
      cases event with
      | acquire =>
        obtain ⟨_, _, h⟩ := Option.bind_eq_some_iff.mp h
        obtain ⟨tasks, htasks, h⟩ := Option.bind_eq_some_iff.mp h
        cases h
        exact htasks
      | complete place =>
        obtain ⟨_, _, h⟩ := Option.bind_eq_some_iff.mp h
        obtain ⟨tasks, htasks, h⟩ := Option.bind_eq_some_iff.mp h
        split at h
        · cases h
          exact htasks
        · next e hraised =>
          cases h
          cases hnone : s.failed <;> simp [hnone] at hfailed
    rw [TrainEvent.task?, Option.toList_some, Tasks.Pool.after_cons, hstep]
    rfl
  | report place progress =>
    obtain ⟨_, _, h⟩ := Option.bind_eq_some_iff.mp h
    obtain ⟨_, _, h⟩ := Option.bind_eq_some_iff.mp h
    cases h
    rfl

/-- A training without a failure is one of its tasks alone. -/
theorem tasks_of_trainAfter (h : o.trainAfter env plan places s schedule = some s')
    (hfailed : s'.failed = none) : s.failed = none ∧
      s.tasks.after (o.work env) places (schedule.filterMap TrainEvent.task?) = some s'.tasks := by
  induction schedule generalizing s with
  | nil =>
    cases h
    exact ⟨hfailed, rfl⟩
  | cons event schedule ih =>
    obtain ⟨s₁, hstep, h⟩ := Option.bind_eq_some_iff.mp h
    obtain ⟨hfailed₁, hrest⟩ := ih h
    obtain ⟨hfailed₀, hfirst⟩ := tasks_of_trainStep hstep hfailed₁
    have hsplit : (event :: schedule).filterMap TrainEvent.task? =
        event.task?.toList ++ schedule.filterMap TrainEvent.task? := by
      cases event <;> rfl
    rw [hsplit, Tasks.Pool.after_append, hfirst]
    exact ⟨hfailed₀, hrest⟩

/-! ## Events that go on -/

/-- The events go on from what has been reported to a count, without going back. -/
structure Continues (plan : SweepPlan) (before : List ℤ) (count : ℕ)
    (events : List (SweepProgress (TrialResult Params))) : Prop where
  reported : Tracking.Reported 0 (before ++ events.map (·.current)) (count : ℤ)
  ordered : (before ++ events.map (·.current)).Pairwise (· ≤ ·) ↔ before.Pairwise (· ≤ ·)
  total : ∀ event ∈ events, event.total = plan.totalSteps

section

variable {before : List ℤ} {count count' : ℕ}
  {events later : List (SweepProgress (TrialResult Params))}

theorem Continues.nil (h : Tracking.Reported 0 before (count : ℤ)) :
    Continues plan before count ([] : List (SweepProgress (TrialResult Params))) where
  reported := by rwa [List.map_nil, List.append_nil]
  ordered := by rw [List.map_nil, List.append_nil]
  total event hevent := absurd hevent List.not_mem_nil

theorem Continues.append (h : Continues plan before count events)
    (hlater : Continues plan (before ++ events.map (·.current)) count' later) :
    Continues plan before count' (events ++ later) where
  reported := by
    rw [List.map_append, ← List.append_assoc]
    exact hlater.reported
  ordered := by
    rw [List.map_append, ← List.append_assoc]
    exact hlater.ordered.trans h.ordered
  total event hevent := (List.mem_append.mp hevent).elim (h.total event) (hlater.total event)

theorem Continues.stayed (h : Tracking.Reported 0 before (count : ℤ))
    (hevents : ∀ event ∈ events, event.current = count ∧ event.total = plan.totalSteps) :
    Continues plan before count events := by
  have hmore : ∀ c ∈ events.map (·.current), c = (count : ℤ) := fun c hc => by
    obtain ⟨event, hevent, rfl⟩ := List.mem_map.mp hc
    exact (hevents event hevent).1
  obtain ⟨hreported, hordered⟩ := h.stayed hmore
  exact ⟨hreported, hordered, fun event hevent => (hevents event hevent).2⟩

theorem Continues.moved (h : Tracking.Reported 0 before (count : ℤ)) (hle : count ≤ count')
    {e : SweepProgress (TrialResult Params)} (hcurrent : e.current = count')
    (htotal : e.total = plan.totalSteps) : Continues plan before count' [e] where
  reported := by
    rw [List.map_singleton, hcurrent]
    exact h.moved (Int.ofNat_le.mpr hle)
  ordered := by
    rw [List.map_singleton, hcurrent]
    exact h.pairwise_moved_iff (Int.ofNat_le.mpr hle)
  total event hevent := List.mem_singleton.mp hevent ▸ htotal

end

/-! ## The events of an adaptive search -/

section

variable {ask : List (Params × ℚ) → Option Params} {reports : ℕ → List ValidationProgress} {n : ℕ}
  {trials : List (TrialResult Params)} {params : Params}

theorem trackAdaptive_none
    (hask : ask (trials.map fun trial => (trial.params, trial.trainScore)) = none) :
    o.trackAdaptive env plan ask reports (n + 1) trials = ([], .ok trials) := by
  simp only [trackAdaptive, hask]

theorem trackAdaptive_error {e : PyError}
    (hask : ask (trials.map fun trial => (trial.params, trial.trainScore)) = some params)
    (hwork : o.work env trials.length params = .error e) :
    o.trackAdaptive env plan ask reports (n + 1) trials =
      (o.begun plan trials.length (reports trials.length), .error e) := by
  simp only [trackAdaptive, hask, hwork]

theorem trackAdaptive_ok {trial : TrialResult Params}
    (hask : ask (trials.map fun trial => (trial.params, trial.trainScore)) = some params)
    (hwork : o.work env trials.length params = .ok trial) :
    o.trackAdaptive env plan ask reports (n + 1) trials =
      (o.begun plan trials.length (reports trials.length) ++
        plan.event .train .done (trials.length + 1) (some trial) ::
          (o.trackAdaptive env plan ask reports n (trials ++ [trial])).1,
        (o.trackAdaptive env plan ask reports n (trials ++ [trial])).2) := by
  simp only [trackAdaptive, hask, hwork]

/-- The events do not change what the search comes to. -/
theorem snd_trackAdaptive : (o.trackAdaptive env plan ask reports n trials).2 =
    o.call.trainAdaptive env o.periods ask n trials := by
  induction n generalizing trials with
  | zero => rfl
  | succ n ih =>
    cases hask : ask (trials.map fun trial => (trial.params, trial.trainScore)) with
    | none =>
      rw [trackAdaptive_none hask]
      simp only [trainAdaptive, hask]
      rfl
    | some params =>
      simp only [trainAdaptive, hask]
      cases hwork : o.work env trials.length params with
      | error e =>
        rw [trackAdaptive_error hask hwork]
        change _ = (o.work env trials.length params).bind _
        rw [hwork]
        rfl
      | ok trial =>
        rw [trackAdaptive_ok hask hwork]
        change _ = (o.work env trials.length params).bind _
        rw [hwork]
        exact ih

theorem mem_begun {index : ℕ} {progress : List ValidationProgress}
    {event : SweepProgress (TrialResult Params)} (h : event ∈ o.begun plan index progress) :
    event.current = index ∧ event.total = plan.totalSteps := by
  rcases List.mem_cons.mp h with rfl | h
  · exact ⟨rfl, rfl⟩
  · obtain ⟨report, _, h⟩ := List.mem_filterMap.mp h
    unfold barEvent at h
    split_ifs at h
    cases h
    exact ⟨rfl, rfl⟩

/-- What an adaptive search emits counts its trials, and never goes back. -/
theorem continues_trackAdaptive {before : List ℤ} {count : ℕ} (hcount : trials.length = count)
    (h : Tracking.Reported 0 before (count : ℤ)) : ∃ done ≤ n,
      (∀ trained, (o.trackAdaptive env plan ask reports n trials).2 = .ok trained →
        trained.length = count + done) ∧
      Continues plan before (count + done)
        (o.trackAdaptive env plan ask reports n trials).1 := by
  induction n generalizing trials before count with
  | zero =>
    refine ⟨0, le_rfl, fun trained htrained => ?_, .nil h⟩
    cases htrained
    exact hcount
  | succ n ih =>
    cases hask : ask (trials.map fun trial => (trial.params, trial.trainScore)) with
    | none =>
      rw [trackAdaptive_none hask]
      refine ⟨0, Nat.zero_le _, fun trained htrained => ?_, .nil h⟩
      cases htrained
      exact hcount
    | some params =>
      subst hcount
      have hbegun : Continues plan before trials.length
          (o.begun plan trials.length (reports trials.length)) :=
        .stayed h fun event hevent => mem_begun hevent
      cases hwork : o.work env trials.length params with
      | error e =>
        rw [trackAdaptive_error hask hwork]
        exact ⟨0, Nat.zero_le _, (fun trained htrained => by cases htrained), hbegun⟩
      | ok trial =>
        have hlength : (trials ++ [trial]).length = trials.length + 1 := by
          rw [List.length_append, List.length_singleton]
        have hdone := hbegun.append (.moved hbegun.reported (Nat.le_succ _) rfl rfl :
          Continues plan _ (trials.length + 1)
            [plan.event .train .done (trials.length + 1) (some trial)])
        obtain ⟨done, hle, htrained, hrest⟩ := ih hlength hdone.reported
        rw [trackAdaptive_ok hask hwork]
        refine ⟨done + 1, Nat.succ_le_succ hle, fun trained hok => ?_, ?_⟩
        · rw [htrained trained hok, Nat.add_assoc, Nat.add_comm 1 done]
        · have hall := hdone.append hrest
          rw [List.append_assoc, List.singleton_append, Nat.add_assoc, Nat.add_comm 1 done] at hall
          exact hall

end

/-! ## Refinements and tests -/

section

variable {before : List ℤ} {completed : ℕ} {localRefine : Bool}
  {trials finalists refined : List (TrialResult Params)}

theorem continues_tracked {ι β : Type} {opened : ℕ → ι → SweepProgress (TrialResult Params)}
    {work : ι → Except PyError β} {closed : ℕ → β → SweepProgress (TrialResult Params)}
    {as : List ι} (h : Tracking.Reported 0 before (completed : ℤ))
    (hopened : ∀ n a, (opened n a).current = n ∧ (opened n a).total = plan.totalSteps)
    (hclosed : ∀ n b, (closed n b).current = n ∧ (closed n b).total = plan.totalSteps) :
    ∃ done ≤ as.length,
      (∀ results, (Tracking.tracked opened work closed completed as).2 = .ok results →
        done = as.length) ∧
      Continues plan before (completed + done)
        (Tracking.tracked opened work closed completed as).1 := by
  obtain ⟨done, hdone, hall, hreported, hordered⟩ := Tracking.Reported.append_tracked
    (Nat.mono_cast : Monotone fun n : ℕ => (n : ℤ)) (fun n a => (hopened n a).1)
    (fun n b => (hclosed n b).1) h
  refine ⟨done, hdone, hall, hreported, hordered, fun event hevent => ?_⟩
  rcases Tracking.mem_tracked hevent with ⟨n, a, rfl⟩ | ⟨n, b, rfl⟩
  · exact (hopened n a).2
  · exact (hclosed n b).2

/-- The finalists that are tested. -/
def testedAmong (o : Opening Params) (localRefine : Bool)
    (finalists refined : List (TrialResult Params)) : List (TrialResult Params) :=
  if localRefine ∧ finalists ≠ [] then (ranked (finalists ++ refined)).take o.call.topK
  else finalists

theorem trackFinalists_error {e : PyError}
    (h : (o.trackRefinements env plan localRefine completed trials
      ((ranked trials).take o.call.topK)).2 = .error e) :
    o.trackFinalists env plan localRefine completed trials =
      ((o.trackRefinements env plan localRefine completed trials
        ((ranked trials).take o.call.topK)).1, .error e) := by
  unfold trackFinalists
  dsimp only
  generalize o.trackRefinements env plan localRefine completed trials
    ((ranked trials).take o.call.topK) = tracked at h ⊢
  obtain ⟨events, outcome⟩ := tracked
  subst h
  rfl

theorem trackFinalists_ok
    (h : (o.trackRefinements env plan localRefine completed trials
      ((ranked trials).take o.call.topK)).2 = .ok refined) :
    o.trackFinalists env plan localRefine completed trials =
      ((o.trackRefinements env plan localRefine completed trials
          ((ranked trials).take o.call.topK)).1 ++
        (o.trackTests env plan (completed + refined.length)
          (o.testedAmong localRefine ((ranked trials).take o.call.topK) refined)).1,
        (o.trackTests env plan (completed + refined.length)
          (o.testedAmong localRefine ((ranked trials).take o.call.topK) refined)).2.map
            (trials ++ refined, ·)) := by
  unfold trackFinalists testedAmong
  dsimp only
  generalize o.trackRefinements env plan localRefine completed trials
    ((ranked trials).take o.call.topK) = tracked at h ⊢
  obtain ⟨events, outcome⟩ := tracked
  subst h
  rfl

theorem length_ranked (trials : List (TrialResult Params)) :
    (ranked trials).length = trials.length := List.length_insertionSort _ _

theorem length_testedAmong
    (hrefined : refined.length = (o.call.refineParams localRefine finalists).length)
    (hfinalists : finalists = (ranked trials).take o.call.topK) :
    (o.testedAmong localRefine finalists refined).length =
      min o.call.topK (trials.length + refined.length) := by
  have hlength : finalists.length = min o.call.topK trials.length := by
    rw [hfinalists, List.length_take, length_ranked]
  unfold testedAmong
  unfold refineParams at hrefined
  split_ifs at hrefined ⊢ with hrefines
  · rw [List.length_take, length_ranked, List.length_append, hlength]
    omega
  · rw [hlength, hrefined]
    rfl

theorem continues_trackRefinements (h : Tracking.Reported 0 before (completed : ℤ)) :
    ∃ done ≤ (o.call.refineParams localRefine finalists).length,
      (∀ refined, (o.trackRefinements env plan localRefine completed trials finalists).2 =
        .ok refined → done = (o.call.refineParams localRefine finalists).length) ∧
      Continues plan before (completed + done)
        (o.trackRefinements env plan localRefine completed trials finalists).1 := by
  rw [← List.length_zipIdx (i := trials.length)]
  exact continues_tracked h (fun _ _ => ⟨rfl, rfl⟩) fun _ _ => ⟨rfl, rfl⟩

theorem continues_trackTests (h : Tracking.Reported 0 before (completed : ℤ)) :
    ∃ done ≤ finalists.length,
      (∀ tested, (o.trackTests env plan completed finalists).2 = .ok tested →
        done = finalists.length) ∧
      Continues plan before (completed + done) (o.trackTests env plan completed finalists).1 :=
  continues_tracked h (fun _ _ => ⟨rfl, rfl⟩) fun _ _ => ⟨rfl, rfl⟩

theorem length_of_trackRefinements
    (h : (o.trackRefinements env plan localRefine completed trials finalists).2 = .ok refined) :
    refined.length = (o.call.refineParams localRefine finalists).length := by
  unfold trackRefinements at h
  rw [Tracking.snd_tracked] at h
  exact (Except.mapM_eq_ok.mp h).length_eq.symm.trans List.length_zipIdx

/-- What follows the training counts the refinements and the tests, and never goes back. -/
theorem continues_trackFinalists (h : Tracking.Reported 0 before (completed : ℤ)) :
    ∃ done ≤ o.call.laterSteps localRefine trials,
      (∀ results, (o.trackFinalists env plan localRefine completed trials).2 = .ok results →
        done = o.call.laterSteps localRefine trials) ∧
      Continues plan before (completed + done)
        (o.trackFinalists env plan localRefine completed trials).1 := by
  obtain ⟨made, hmade, hallMade, hrefine⟩ :
      ∃ made ≤ o.call.refinements localRefine trials, _ ∧ Continues plan before (completed + made)
        (o.trackRefinements env plan localRefine completed trials
          ((ranked trials).take o.call.topK)).1 := continues_trackRefinements h
  cases hrefined : (o.trackRefinements env plan localRefine completed trials
      ((ranked trials).take o.call.topK)).2 with
  | error e =>
    rw [trackFinalists_error hrefined]
    exact ⟨made, hmade.trans (Nat.le_add_right _ _), (fun results hok => by cases hok), hrefine⟩
  | ok refined =>
    have hlength : refined.length = o.call.refinements localRefine trials :=
      length_of_trackRefinements hrefined
    have htested := length_testedAmong hlength rfl
    obtain rfl : made = refined.length := (hallMade refined hrefined).trans hlength.symm
    obtain ⟨done, hdone, hallDone, htests⟩ := continues_trackTests hrefine.reported
    rw [trackFinalists_ok hrefined]
    rw [htested] at hdone hallDone
    have hsteps : o.call.laterSteps localRefine trials =
        refined.length + min o.call.topK (trials.length + refined.length) := by
      rw [laterSteps, hlength]
    refine ⟨refined.length + done, ?_, fun results hok => ?_, ?_⟩
    · exact hsteps ▸ Nat.add_le_add_left hdone _
    · obtain ⟨tested, hok, _⟩ := Except.map_eq_ok.mp hok
      rw [hallDone tested hok, hsteps]
    · rw [← Nat.add_assoc]
      exact hrefine.append htests

end

/-! ## The whole run -/

section

variable {localRefine : Bool} {completed : ℕ} {trials : List (TrialResult Params)}
  {events : List (SweepProgress (TrialResult Params))}

/-- A plan has room for its later steps exactly when its total is not exceeded. -/
theorem leavesRoom_iff {call : OptimizationCall Params} :
    call.LeavesRoom localRefine trials ↔ trials.length + call.laterSteps localRefine trials ≤
      (call.plan localRefine trials.length).totalSteps := by
  unfold LeavesRoom plan
  dsimp only
  cases localRefine with
  | false =>
    simp only [Bool.false_eq_true, false_and, if_false]
    omega
  | true =>
    simp only [true_and, if_true]
    split_ifs <;> omega

theorem nTrain_le_totalSteps {call : OptimizationCall Params} {n : ℕ} :
    n ≤ (call.plan localRefine n).totalSteps := by
  unfold plan
  dsimp only
  omega

/-- A run stays in order after its training when the plan leaves room for what follows, and, if it
comes to its end, only then. -/
theorem continued_orderly {course : SweepCourse Params}
    (hcourse : course = o.continued env (o.call.plan localRefine trials.length) localRefine
      trials.length trials events)
    (hreported : Tracking.Reported 0 (events.map (·.current)) (trials.length : ℤ))
    (hbounded : ∀ event ∈ events, event.current ≤ event.total) :
    course.OrderlyWhen ((events.map (·.current)).Pairwise (· ≤ ·))
      (o.call.LeavesRoom localRefine trials) := by
  obtain ⟨done, hdone, hall, hlater⟩ :
      ∃ done ≤ o.call.laterSteps localRefine trials, _ ∧ Continues _ _ (trials.length + done)
        (o.trackFinalists env (o.call.plan localRefine trials.length) localRefine trials.length
          trials).1 := continues_trackFinalists hreported
  subst hcourse
  rw [leavesRoom_iff]
  constructor
  · rintro ⟨hordered, hroom⟩
    refine ⟨?_, fun event hevent => ?_⟩
    · rw [continued, List.map_append]
      exact hlater.ordered.mpr hordered
    · rcases List.mem_append.mp hevent with hevent | hevent
      · exact hbounded event hevent
      · have hcurrent := hlater.reported.le event.current
          (List.mem_append_right _ (List.mem_map_of_mem hevent))
        rw [hlater.total event hevent]
        omega
  · rintro ⟨results, houtcome⟩ ⟨hordered, hle⟩
    rw [continued, List.map_append] at hordered
    refine ⟨hlater.ordered.mp hordered, ?_⟩
    rw [← hall results (Option.some.inj houtcome)]
    have hplanned : trials.length ≤ (o.call.plan localRefine trials.length).totalSteps :=
      nTrain_le_totalSteps
    rcases hlater.reported.reached with hnone | hin
    · omega
    · rcases List.mem_append.mp hin with hin | hin
      · -- The count has not moved since the training.
        have := hreported.le _ hin
        omega
      · obtain ⟨event, hevent, hcurrent⟩ := List.mem_map.mp hin
        have hbound := hle event (List.mem_append_right _ hevent)
        rw [hcurrent, hlater.total event hevent] at hbound
        omega

end

/-! ## The training of a run -/

section

variable {localRefine : Bool} {n : ℕ} {trials : List Params} {trained : List (TrialResult Params)}

theorem counts_start : Training.Counts (o.call.plan localRefine trials.length)
    { tasks := Tasks.Pool.start trials } where
  startSteps startStep hin := absurd hin List.not_mem_nil
  reported := .nil
  total event hevent := absurd hevent List.not_mem_nil
  held := by
    simp [Training.held, Tasks.Pool.start, plan]
  all _ := by
    simp [Training.held, Tasks.Pool.start, plan]

theorem Training.Counts.bounded (h : s.Counts (o.call.plan localRefine n)) :
    ∀ event ∈ s.emitted, event.current ≤ event.total := by
  intro event hevent
  have hcurrent := h.reported.le event.current (List.mem_map_of_mem hevent)
  have hheld : s.tasks.ended.length + s.tasks.running.length + s.tasks.waiting.length ≤ n := h.held
  have hplanned : n ≤ (o.call.plan localRefine n).totalSteps := nTrain_le_totalSteps
  rw [h.total event hevent]
  omega

/-- An adaptive search emits its events in order, within the total that is planned for it. -/
theorem search_orderly (o : Opening Params) (env : OptimizationEnvironment) (localRefine : Bool)
    (ask : List (Params × ℚ) → Option Params) (reports : ℕ → List ValidationProgress) (n : ℕ) :
    SweepProgress.Orderly
        (o.trackAdaptive env (o.call.plan localRefine n) ask reports n []).1 ∧
      ∀ trials, (o.trackAdaptive env (o.call.plan localRefine n) ask reports n []).2 = .ok trials →
        Tracking.Reported 0 ((o.trackAdaptive env (o.call.plan localRefine n) ask reports n
          []).1.map (·.current)) (trials.length : ℤ) := by
  obtain ⟨done, hdone, hlength, hsearch⟩ :
      ∃ done ≤ n, _ ∧ Continues (o.call.plan localRefine n) [] (0 + done)
        (o.trackAdaptive env (o.call.plan localRefine n) ask reports n []).1 :=
    continues_trackAdaptive rfl .nil
  have hplanned : n ≤ (o.call.plan localRefine n).totalSteps := nTrain_le_totalSteps
  refine ⟨⟨hsearch.ordered.mpr List.Pairwise.nil, fun event hevent => ?_⟩, fun trials hok => ?_⟩
  · have hcurrent := hsearch.reported.le event.current (List.mem_map_of_mem hevent)
    rw [hsearch.total event hevent]
    omega
  · rw [hlength trials hok]
    exact hsearch.reported

/-- A training that has come to its trials has ended all of them. -/
theorem length_of_outcome (h : o.trainAfter env plan places { tasks := Tasks.Pool.start trials }
      schedule = some s) (hcounts : s.Counts (o.call.plan localRefine trials.length))
    (hfailed : s.failed = none) (hout : s.tasks.outcome = some (.ok trained)) :
    s.tasks.ended.length = trained.length ∧ trained.length = trials.length := by
  have htasks : (Tasks.Pool.start trials).after (o.work env) places
      (schedule.filterMap TrainEvent.task?) = some s.tasks := (tasks_of_trainAfter h hfailed).2
  have hlength : trained.length = trials.length := by
    rcases Tasks.Pool.outcome_of_after htasks hout with ⟨σ, _, hmap⟩ | ⟨_, _, _, e, _, herror⟩
    · exact (Except.mapM_eq_ok.mp hmap).length_eq.symm.trans List.length_zipIdx
    · cases herror
  have hheld : s.tasks.ended.length + s.tasks.running.length + s.tasks.waiting.length =
      trials.length := hcounts.all hfailed
  have hover : s.tasks.running = [] ∧ s.tasks.waiting = [] := by
    unfold Tasks.Pool.outcome at hout
    split at hout
    · cases hout
    · next hwaiting hrunning => exact ⟨hrunning, hwaiting⟩
    · cases hout
  rw [hover.1, hover.2] at hheld
  exact ⟨hheld.trans hlength.symm, hlength⟩

end

end Opening

/-- No trial of a batch reports its bars after another has ended since it has started. -/
def ReportsInTime (call : OptimizationCall Params) (env : OptimizationEnvironment)
    (localRefine : Bool) (maxParallelTrials : ℤ) (schedule : List Opening.TrainEvent) : Prop :=
  match call.opening env with
  | .error _ => True
  | .ok o =>
    match o.call.search with
    | .batch trials => o.InTimeAlong env (o.call.plan localRefine trials.length)
      (max 1 maxParallelTrials).toNat { tasks := Tasks.Pool.start trials } schedule
    | .adaptive _ _ => True

/-- The bars are fetched for the same sweep. -/
theorem call_of_opening {call : OptimizationCall Params} {env : OptimizationEnvironment}
    {o : Opening Params} (h : call.opening env = .ok o) :
    o.call.search = call.search ∧ o.call.topK = call.topK ∧ o.call.refine = call.refine := by
  obtain ⟨_, _, h⟩ := Except.bind_eq_ok.mp h
  obtain ⟨call', hresolved, h⟩ := Except.bind_eq_ok.mp h
  obtain ⟨p, _, h⟩ := Except.bind_eq_ok.mp h
  cases h
  unfold resolved at hresolved
  split at hresolved
  · obtain ⟨path, _, hresolved⟩ := Except.bind_eq_ok.mp hresolved
    cases hresolved
    exact ⟨rfl, rfl, rfl⟩
  · cases hresolved
    exact ⟨rfl, rfl, rfl⟩

theorem leavesRoom_of_opening {call : OptimizationCall Params} {env : OptimizationEnvironment}
    {o : Opening Params} {localRefine : Bool} {trials : List (TrialResult Params)}
    (h : call.opening env = .ok o) :
    o.call.LeavesRoom localRefine trials ↔ call.LeavesRoom localRefine trials := by
  obtain ⟨_, htopK, hrefine⟩ := call_of_opening h
  simp only [LeavesRoom, laterSteps, refinements, refineParams, htopK, hrefine]

section

variable {call : OptimizationCall Params} {env : OptimizationEnvironment} {o : Opening Params}
  {localRefine : Bool} {maxParallelTrials : ℤ} {schedule : List Opening.TrainEvent}
  {reports : ℕ → List ValidationProgress} {course : SweepCourse Params}

theorem track_batch {trials : List Params} (hopening : call.opening env = .ok o)
    (hsearch : o.call.search = .batch trials)
    (h : call.track env localRefine maxParallelTrials schedule reports = some course) :
    ∃ training, o.trainAfter env (o.call.plan localRefine trials.length)
        (max 1 maxParallelTrials).toNat { tasks := Tasks.Pool.start trials } schedule =
          some training ∧
      ((∃ trained, training.failed = none ∧ training.tasks.outcome = some (.ok trained) ∧
          course = o.continued env (o.call.plan localRefine trials.length) localRefine
            training.tasks.ended.length trained training.emitted) ∨
        course.events = training.emitted ∧ ∀ results, course.outcome ≠ some (.ok results)) := by
  simp only [track, hopening, hsearch] at h
  obtain ⟨training, htraining, h⟩ := Option.bind_eq_some_iff.mp h
  refine ⟨training, htraining, ?_⟩
  split at h
  · cases h
    exact .inr ⟨rfl, fun results hok => by cases hok⟩
  · next trained hfailed hout =>
    cases h
    exact .inl ⟨trained, hfailed, hout, rfl⟩
  · cases h
    exact .inr ⟨rfl, fun results hok => by cases hok⟩

theorem track_adaptive {maxTrials : ℕ} {ask : List (Params × ℚ) → Option Params}
    (hopening : call.opening env = .ok o) (hsearch : o.call.search = .adaptive maxTrials ask)
    (h : call.track env localRefine maxParallelTrials schedule reports = some course) :
    (∃ trials, (o.trackAdaptive env (o.call.plan localRefine maxTrials) ask reports maxTrials
          []).2 = .ok trials ∧
        course = o.continued env (o.call.plan localRefine trials.length) localRefine trials.length
          trials (o.trackAdaptive env (o.call.plan localRefine maxTrials) ask reports maxTrials
            []).1) ∨
      course.events = (o.trackAdaptive env (o.call.plan localRefine maxTrials) ask reports
          maxTrials []).1 ∧ ∀ results, course.outcome ≠ some (.ok results) := by
  simp only [track, hopening, hsearch] at h
  generalize o.trackAdaptive env (o.call.plan localRefine maxTrials) ask reports maxTrials [] =
    tracked at h ⊢
  obtain ⟨events, _ | trials⟩ := tracked
  · cases h
    exact .inr ⟨rfl, fun results hok => by cases hok⟩
  · cases h
    exact .inl ⟨trials, rfl, rfl⟩

variable {events : List (SweepProgress (TrialResult Params))}

theorem orderly_of_continued {trials : List (TrialResult Params)}
    (hopening : call.opening env = .ok o)
    (hcourse : course = o.continued env (o.call.plan localRefine trials.length) localRefine
      trials.length trials events)
    (hreported : Tracking.Reported 0 (events.map (·.current)) (trials.length : ℤ))
    (hbounded : ∀ event ∈ events, event.current ≤ event.total) :
    course.OrderlyWhen ((events.map (·.current)).Pairwise (· ≤ ·))
      (∀ trials, course.trained = some trials → call.LeavesRoom localRefine trials) := by
  have hroom : (∀ trials, course.trained = some trials → call.LeavesRoom localRefine trials) ↔
      o.call.LeavesRoom localRefine trials := by
    rw [leavesRoom_of_opening hopening, hcourse]
    simp only [Opening.continued, Option.some.injEq, forall_eq']
  rw [hroom]
  exact Opening.continued_orderly hcourse hreported hbounded

theorem orderly_of_unfinished (hevents : course.events = events)
    (hunfinished : ∀ results, course.outcome ≠ some (.ok results))
    (hbounded : ∀ event ∈ events, event.current ≤ event.total) :
    course.OrderlyWhen ((events.map (·.current)).Pairwise (· ≤ ·))
      (∀ trials, course.trained = some trials → call.LeavesRoom localRefine trials) := by
  subst hevents
  refine ⟨fun h => ⟨h.1, hbounded⟩, ?_⟩
  rintro ⟨results, hok⟩
  exact absurd hok (hunfinished results)

theorem track_orderly (h : call.track env localRefine maxParallelTrials schedule reports =
      some course) :
    course.OrderlyWhen (call.ReportsInTime env localRefine maxParallelTrials schedule)
      (∀ trials, course.trained = some trials → call.LeavesRoom localRefine trials) := by
  cases hopening : call.opening env with
  | error e =>
    simp only [track, hopening, Option.some.injEq] at h
    subst h
    refine ⟨fun _ => ⟨List.Pairwise.nil, fun event hevent => by cases hevent⟩, ?_⟩
    rintro ⟨results, hok⟩
    cases hok
  | ok o =>
    cases hsearch : o.call.search with
    | batch trials =>
      have hintime : call.ReportsInTime env localRefine maxParallelTrials schedule ↔
          o.InTimeAlong env (o.call.plan localRefine trials.length)
            (max 1 maxParallelTrials).toNat { tasks := Tasks.Pool.start trials } schedule := by
        simp only [ReportsInTime, hopening, hsearch]
      obtain ⟨training, htraining, hcourse⟩ := track_batch hopening hsearch h
      obtain ⟨hcounts, hordered⟩ := Opening.counts_start.after htraining
      have hsome : (training.emitted.map (·.current)).Pairwise (· ≤ ·) ↔
          call.ReportsInTime env localRefine maxParallelTrials schedule :=
        (hordered.trans (and_iff_right List.Pairwise.nil)).trans hintime.symm
      rw [← hsome]
      rcases hcourse with ⟨trained, hfailed, hout, hcourse⟩ | ⟨hevents, hunfinished⟩
      · obtain ⟨hended, hlength⟩ := Opening.length_of_outcome htraining hcounts hfailed hout
        have hreported := hcounts.reported
        rw [hended] at hcourse hreported
        rw [← hlength] at hcourse
        exact orderly_of_continued hopening hcourse hreported hcounts.bounded
      · exact orderly_of_unfinished hevents hunfinished hcounts.bounded
    | adaptive maxTrials ask =>
      have hintime : call.ReportsInTime env localRefine maxParallelTrials schedule := by
        simp only [ReportsInTime, hopening, hsearch]
      obtain ⟨⟨hordered, hbounded⟩, hreported⟩ :=
        Opening.search_orderly o env localRefine ask reports maxTrials
      rw [iff_true_intro hintime, ← iff_true_intro hordered]
      rcases track_adaptive hopening hsearch h with
        ⟨trials, htrained, hcourse⟩ | ⟨hevents, hunfinished⟩
      · exact orderly_of_continued hopening hcourse (hreported trials htrained) hbounded
      · exact orderly_of_unfinished hevents hunfinished hbounded

end

/-- The progress of a run that has come anywhere never goes back and never exceeds its total if all
bars are reported in time and the plan leaves room for what follows the training. Where the run
comes to its end, it is in order only then. -/
theorem track_orderly_iff (call : OptimizationCall Params) (env : OptimizationEnvironment)
    (localRefine : Bool) (maxParallelTrials : ℤ) (schedule : List Opening.TrainEvent)
    (reports : ℕ → List ValidationProgress) {course : SweepCourse Params}
    (h : call.track env localRefine maxParallelTrials schedule reports = some course) :
    (call.ReportsInTime env localRefine maxParallelTrials schedule ∧
        (∀ trials, course.trained = some trials → call.LeavesRoom localRefine trials) →
      ∀ emitted, emitted <+: course.events → SweepProgress.Orderly emitted) ∧
    ((∃ results, course.outcome = some (.ok results)) →
      (SweepProgress.Orderly course.events ↔
        call.ReportsInTime env localRefine maxParallelTrials schedule ∧
          ∀ trials, course.trained = some trials → call.LeavesRoom localRefine trials)) := by
  obtain ⟨horderly, honly⟩ := track_orderly h
  exact ⟨fun hmet emitted hfirst => (horderly hmet).of_beginning hfirst,
    fun hended => ⟨honly hended, horderly⟩⟩

/-! ## What the run comes to -/

theorem ranked_take (trials : List (TrialResult Params)) (k : ℕ) :
    ranked ((ranked trials).take k) = (ranked trials).take k := by
  have hsorted : (ranked trials).Pairwise fun a b => b.trainScore ≤ a.trainScore :=
    List.pairwise_insertionSort _ trials
  exact (hsorted.sublist (List.take_sublist k _)).insertionSort_eq

section

variable {call : OptimizationCall Params} {env : OptimizationEnvironment} {o : Opening Params}
  {plan : SweepPlan} {localRefine : Bool} {completed : ℕ}

theorem Opening.refineFinalists_of_trackRefinements {trials refined : List (TrialResult Params)}
    (hrefine : localRefine = false → ∀ topTrials, o.call.refine topTrials = [])
    (h : (o.trackRefinements env plan localRefine completed trials
      ((ranked trials).take o.call.topK)).2 = .ok refined) :
    o.call.refineFinalists env o.periods trials =
      .ok (trials ++ refined, o.testedAmong localRefine ((ranked trials).take o.call.topK)
        refined) := by
  unfold trackRefinements at h
  rw [Tracking.snd_tracked] at h
  unfold refineFinalists testedAmong
  dsimp only
  by_cases hnone : (ranked trials).take o.call.topK = []
  · rw [refineParams, if_neg fun hrefines => hrefines.2 hnone, List.zipIdx_nil, List.mapM_nil] at h
    cases h
    rw [if_pos hnone, if_neg fun hrefines => hrefines.2 hnone, hnone, List.append_nil]
    rfl
  · have hparams : o.call.refineParams localRefine ((ranked trials).take o.call.topK) =
        o.call.refine ((((ranked trials).take o.call.topK).take 3).map (·.params)) := by
      cases localRefine with
      | false => rw [hrefine rfl, refineParams, if_neg fun hrefines => by cases hrefines.1]
      | true => rw [refineParams, if_pos ⟨rfl, hnone⟩]
    rw [if_neg hnone]
    rw [hparams] at h
    change (List.mapM (fun x : Params × ℕ => o.work env x.2 x.1) _).bind _ = _
    rw [h]
    cases localRefine with
    | false =>
      have hempty : refined = [] := by
        rw [hrefine rfl, List.zipIdx_nil, List.mapM_nil] at h
        cases h
        rfl
      rw [hempty, List.append_nil, List.append_nil, if_neg fun hrefines => by cases hrefines.1]
      change Except.ok (trials ++ [], (ranked (_ ++ [])).take o.call.topK) = _
      rw [List.append_nil, List.append_nil, ranked_take, List.take_take, min_self]
    | true =>
      rw [if_pos ⟨rfl, hnone⟩]
      rfl

/-- The events do not change what follows the training. -/
theorem Opening.conclude_of_trackFinalists {trials : List (TrialResult Params)}
    {results : List (TrialResult Params) × List (TrialResult Params)}
    (hrefine : localRefine = false → ∀ topTrials, o.call.refine topTrials = [])
    (h : (o.trackFinalists env plan localRefine completed trials).2 = .ok results) :
    o.conclude env trials = o.settle env results.1 results.2 := by
  cases hrefined : (o.trackRefinements env plan localRefine completed trials
      ((ranked trials).take o.call.topK)).2 with
  | error e =>
    rw [trackFinalists_error hrefined] at h
    cases h
  | ok refined =>
    rw [trackFinalists_ok hrefined] at h
    obtain ⟨tested, htested, hresults⟩ := Except.map_eq_ok.mp h
    subst hresults
    unfold trackTests at htested
    rw [Tracking.snd_tracked] at htested
    unfold conclude
    rw [refineFinalists_of_trackRefinements hrefine hrefined]
    change (List.mapM (o.call.testOne env o.periods) _).bind _ = _
    rw [htested]
    rfl

variable {maxParallelTrials : ℤ} {schedule : List Opening.TrainEvent}
  {reports : ℕ → List ValidationProgress} {course : SweepCourse Params}
  {results : List (TrialResult Params) × List (TrialResult Params)}

theorem outcome_of_continued {trials : List (TrialResult Params)}
    {events : List (SweepProgress (TrialResult Params))}
    (hrefine : localRefine = false → ∀ topTrials, call.refine topTrials = [])
    (hopening : call.opening env = .ok o)
    (hcourse : course = o.continued env plan localRefine completed trials events)
    (hout : course.outcome = some (.ok results)) :
    o.conclude env trials = o.settle env results.1 results.2 := by
  subst hcourse
  refine Opening.conclude_of_trackFinalists (fun hoff topTrials => ?_) (Option.some.inj hout)
  rw [(call_of_opening hopening).2.2]
  exact hrefine hoff topTrials

/-- A run on a batch that comes to its end is the run of its tasks, whatever is reported. -/
theorem runConcurrently_of_track {trials : List Params} (hsearch : call.search = .batch trials)
    (hrefine : localRefine = false → ∀ topTrials, call.refine topTrials = [])
    (hopening : call.opening env = .ok o)
    (h : call.track env localRefine maxParallelTrials schedule reports = some course)
    (hout : course.outcome = some (.ok results)) :
    call.runConcurrently env maxParallelTrials (schedule.filterMap Opening.TrainEvent.task?) =
      some (o.settle env results.1 results.2) := by
  have hsearch' : o.call.search = .batch trials := (call_of_opening hopening).1.trans hsearch
  have htrials : o.trials = trials := by
    rw [trials_of_opening hopening, trialParams, hsearch]
  obtain ⟨training, htraining, hcourse⟩ := track_batch hopening hsearch' h
  rcases hcourse with ⟨trained, hfailed, htrained, hcourse⟩ | ⟨_, hunfinished⟩
  · have htasks : o.trainTasks env maxParallelTrials
        (schedule.filterMap Opening.TrainEvent.task?) = some training.tasks := by
      rw [Opening.trainTasks, htrials]
      exact (Opening.tasks_of_trainAfter htraining hfailed).2
    rw [runConcurrently, hopening, ← outcome_of_continued hrefine hopening hcourse hout]
    simp only [htasks, htrained, Option.bind_eq_bind, Option.bind_some]
    rfl
  · exact absurd hout (hunfinished results)

/-- An adaptive run that comes to its end is `run`, whatever is reported. -/
theorem run_of_track {maxTrials : ℕ} {ask : List (Params × ℚ) → Option Params}
    (hsearch : call.search = .adaptive maxTrials ask)
    (hrefine : localRefine = false → ∀ topTrials, call.refine topTrials = [])
    (hopening : call.opening env = .ok o)
    (h : call.track env localRefine maxParallelTrials schedule reports = some course)
    (hout : course.outcome = some (.ok results)) :
    call.run env = (·.result) <$> o.settle env results.1 results.2 := by
  have hsearch' : o.call.search = .adaptive maxTrials ask :=
    (call_of_opening hopening).1.trans hsearch
  rcases track_adaptive hopening hsearch' h with ⟨trials, htrained, hcourse⟩ | ⟨_, hunfinished⟩
  · rw [Opening.snd_trackAdaptive] at htrained
    have htrained : o.call.trainAll env o.periods = .ok trials := by
      rw [trainAll, hsearch']
      exact htrained
    rw [run_eq_bind, hopening, ← outcome_of_continued hrefine hopening hcourse hout]
    change (o.call.trainAll env o.periods).bind _ = _
    rw [htrained]
    rfl
  · exact absurd hout (hunfinished results)

end

/-! ## Two trials, and one that is refined -/

/-- A report in the middle of the bars. -/
def halfway : ValidationProgress where
  phase := "backtest"
  message := ""
  current := 1
  total := 2

/-- The trials train one after the other, each with a report. -/
def oneByOne : List Opening.TrainEvent :=
  [.task .acquire, .report 0 halfway, .task (.complete 0), .task .acquire, .report 0 halfway,
    .task (.complete 0)]

theorem track_orderly_iff_sideBySide : ∃ course : SweepCourse SignalSide,
    sideBySide.track fourBars false 2 oneByOne (fun _ => []) = some course ∧
    (sideBySide.ReportsInTime fourBars false 2 oneByOne ∧
        (∀ trials, course.trained = some trials → sideBySide.LeavesRoom false trials) →
      ∀ emitted, emitted <+: course.events → SweepProgress.Orderly emitted) ∧
    ((∃ results, course.outcome = some (.ok results)) →
      (SweepProgress.Orderly course.events ↔
        sideBySide.ReportsInTime fourBars false 2 oneByOne ∧
          ∀ trials, course.trained = some trials → sideBySide.LeavesRoom false trials)) := by
  have hsome : (sideBySide.track fourBars false 2 oneByOne (fun _ => [])).isSome := by
    decide +kernel
  obtain ⟨course, hcourse⟩ := Option.isSome_iff_exists.mp hsome
  exact ⟨course, hcourse, track_orderly_iff sideBySide fourBars false 2 oneByOne _ hcourse⟩

/-- A sweep of one trial with the refinements it has in the default space. -/
def refinedOnce : OptimizationCall TrialParams where
  symbol := "BTC/USDT"
  timeframe := "1d"
  start := 0
  endTime := 3 * 86400000000
  trainRatio := 1 / 2
  search := .batch [firstTrial]
  space := {
    engineConfig := fun _ => .solo
    executionConfig := fun _ => .tenth
    collaborators := fun _ _ _ _ => .serving (.flat 0 100) .buy
    revisionId := fun _ => "rev"
    minAgreeingProviders := fun _ => 1 }
  minTrades := 0
  holdoutRatio := 1 / 3
  refine topTrials := refineTrialsAround topTrials defaultSpace 1

/-- A trial that reports its bars after another has ended takes the progress back, and the tests of
a refined trial take it beyond its total. -/
theorem not_track_orderly :
    (¬ ∀ (call : OptimizationCall SignalSide) (env : OptimizationEnvironment) (localRefine : Bool)
      (maxParallelTrials : ℤ) (schedule : List Opening.TrainEvent)
      (reports : ℕ → List ValidationProgress) (course : SweepCourse SignalSide),
      call.track env localRefine maxParallelTrials schedule reports = some course →
        (course.events.map (·.current)).Pairwise (· ≤ ·)) ∧
    ¬ ∀ (call : OptimizationCall TrialParams) (env : OptimizationEnvironment) (localRefine : Bool)
      (maxParallelTrials : ℤ) (schedule : List Opening.TrainEvent)
      (reports : ℕ → List ValidationProgress) (course : SweepCourse TrialParams),
      call.track env localRefine maxParallelTrials schedule reports = some course →
        ∀ event ∈ course.events, event.current ≤ event.total := by
  constructor
  · intro h
    have hcurrents : (sideBySide.track fourBars false 2
        [.task .acquire, .task .acquire, .task (.complete 0), .report 0 halfway]
        (fun _ => [])).map (fun course => course.events.map (·.current)) =
          some [0, 0, 1, 0] := by decide +kernel
    obtain ⟨course, hcourse, hevents⟩ := Option.map_eq_some_iff.mp hcurrents
    have hordered := h _ _ _ _ _ _ course hcourse
    rw [hevents] at hordered
    exact absurd hordered (by decide)
  · intro h
    have hlast : (refinedOnce.track fourBars true 1 [.task .acquire, .task (.complete 0)]
        (fun _ => [])).map (fun course => course.events.getLast?.map fun event =>
          (event.current, event.total)) = some (some (4, 3)) := by decide +kernel
    obtain ⟨course, hcourse, hlast⟩ := Option.map_eq_some_iff.mp hlast
    obtain ⟨event, hevent, hnumbers⟩ := Option.map_eq_some_iff.mp hlast
    have hle := h _ _ _ _ _ _ course hcourse event (List.mem_of_getLast? hevent)
    cases Prod.mk.inj hnumbers with
    | intro hcurrent htotal =>
      rw [hcurrent, htotal] at hle
      exact absurd hle (by decide)

end OptimizationCall

end TradingPlatform
