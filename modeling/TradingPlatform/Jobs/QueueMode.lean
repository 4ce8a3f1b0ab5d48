import TradingPlatform.Jobs.Store
import TradingPlatform.Lib.Run

/-!
# A job shared by a worker and the API

In queue mode the worker and any number of API calls load and save one persisted record. Each saves
the whole record it has made from its own last load, so a save undoes whatever was saved in between.
A save of an active record does no harm as long as nothing has been saved since that load that is
terminal, or that carries a cancel flag the saved copy lacks.
-/

namespace TradingPlatform

/-- Where the worker stands: between two jobs, or before the next load or save for this one. -/
inductive WorkerStage (K : JobKind)
  | idle
  /-- The job was cancelled before it was started. -/
  | dropping (job : Job K)
  /-- The job is to be executed. -/
  | accepted
  /-- The executor has loaded the job and not yet saved it as running. -/
  | starting (job : Job K)
  | running (job : Job K)
  /-- `on_progress` has found no cancel flag, and not yet saved the job. -/
  | reporting (job : Job K)
  /-- `on_progress` has raised `JobCancelled`. -/
  | stopping (job : Job K)

/-- The active job the worker is about to save. -/
def WorkerStage.draft? {K : JobKind} : WorkerStage K → Option (Job K)
  | .starting job | .reporting job => some job
  | .idle | .dropping _ | .accepted | .running _ | .stopping _ => none

/-- The job a `request_cancel` has loaded and not yet saved. -/
abbrev CancelCall (K : JobKind) := Option (Job K)

/-- The persisted record, the worker and the API calls. `here` is the worker's own copy of the job.
The last two fields are history: what has been saved since the worker, or a call, last loaded. -/
structure SharedJob (K : JobKind) where
  record : JobRecord K
  now : ℤ
  worker : WorkerStage K := .idle
  here : Option (Job K) := none
  calls : ℕ → CancelCall K := fun _ => none
  sinceWorker : List (JobRecord K) := []
  sinceCall : ℕ → List (JobRecord K) := fun _ => []

/-- A load or a save of one of the parties, or a pass of time. -/
inductive SharedStep (E : Type) (R : Type)
  | tick (elapsed : ℕ)
  /-- `get` of an API call. -/
  | get (call : ℕ)
  /-- The load of `request_cancel`. -/
  | requestCancel (call : ℕ)
  /-- The save of `request_cancel`. -/
  | saveCancel (call : ℕ)
  /-- The worker loads a job it has dequeued. -/
  | deliver
  /-- The executor loads the job. -/
  | execute
  /-- The worker's next save. -/
  | save
  /-- `on_progress` loads the record. -/
  | progress (event : E)
  /-- The run ends, and the job is saved with the outcome. -/
  | finish (outcome : RunOutcome R)
  /-- The worker is killed, or an error escapes the executor. -/
  | abort

namespace SharedJob

variable {K : JobKind}

def start (id : ℕ) (config : K.Config) (now : ℤ) : SharedJob K :=
  { record := (Job.create id config now).serialize, now }

/-- A save. -/
def put (s : SharedJob K) (job : Job K) : SharedJob K :=
  let record := (job.stamp s.now).serialize
  { s with
    record
    sinceWorker := record :: s.sinceWorker
    sinceCall := fun call => record :: s.sinceCall call }

/-- A save by the worker. -/
def putHere (s : SharedJob K) (job : Job K) (worker : WorkerStage K) : SharedJob K :=
  { s.put job with worker, here := some (job.stamp s.now) }

/-- A load by the worker. -/
def loadHere (s : SharedJob K) (worker : Job K → WorkerStage K) : SharedJob K :=
  let job := s.record.load s.here
  { s with worker := worker job, here := some job, sinceWorker := [] }

/-- A `request_cancel` loads the job. -/
def callLoads (s : SharedJob K) (call : ℕ) (job : Job K) : SharedJob K :=
  { s with
    calls := Function.update s.calls call (some job)
    sinceCall := Function.update s.sinceCall call [] }

/-- A `request_cancel` saves the job. -/
def callSaves (s : SharedJob K) (call : ℕ) (job : Job K) : SharedJob K :=
  { s.put job.requestCancel with calls := Function.update s.calls call none }

/-- The worker's checks of a job it has dequeued. -/
def onDelivery (E : JobExecutor K) (job : Job K) : WorkerStage K :=
  if !job.status.active then .idle
  else if job.cancelRequested then .dropping (E.cancel job)
  else .accepted

/-- One load or save. A party that is not where the step needs it to be does nothing. -/
def step (E : JobExecutor K) (s : SharedJob K) : SharedStep E.Event K.Result → SharedJob K
  | .tick elapsed => { s with now := s.now + elapsed }
  | .get _ => s
  | .requestCancel call =>
    let job := s.record.load none
    match s.calls call with
    | none => if job.status.active then s.callLoads call job else s
    | some _ => s
  | .saveCancel call =>
    match s.calls call with
    | none => s
    | some job => s.callSaves call job
  | .deliver =>
    match s.worker with
    | .idle => s.loadHere (onDelivery E)
    | _ => s
  | .execute =>
    match s.worker with
    | .accepted => s.loadHere fun job => .starting (E.begin job)
    | _ => s
  | .save =>
    match s.worker with
    | .dropping job => s.putHere job .idle
    | .starting job => s.putHere job (.running (job.stamp s.now))
    | .reporting job => s.putHere job (.running (job.stamp s.now))
    | _ => s
  | .progress event =>
    match s.worker with
    | .running job =>
      s.loadHere fun current =>
        if current.cancelRequested then .stopping job else .reporting (E.report event job)
    | _ => s
  | .finish outcome =>
    match s.worker with
    | .running job => s.putHere (E.finish outcome job) .idle
    | .stopping job => s.putHere (E.finish outcome.afterCancel job) .idle
    | _ => s
  | .abort => { s with worker := .idle, here := none }

/-! ## What no interleaving may do -/

/-- A terminal record stays terminal, and the cancel flag of an active one stays. -/
def Lawful (s s' : SharedJob K) : Prop :=
  (s.record.status.active = false → s'.record.status.active = false) ∧
    (s.record.status.active = true → s.record.cancelRequested = true →
      s'.record.cancelRequested = true ∨ s'.record.status.active = false)

/-- Nothing saved since the load is terminal, or has a cancel flag the job lacks. -/
def Current (since : List (JobRecord K)) (job : Job K) : Prop :=
  ∀ record ∈ since, record.status.active = true ∧
    (record.cancelRequested = true → job.cancelRequested = true)

/-- The step saves no active job that is behind the record. -/
def Timely (E : JobExecutor K) (s : SharedJob K) : SharedStep E.Event K.Result → Prop
  | .saveCancel call => ∀ job, s.calls call = some job →
    Current (s.sinceCall call) job.requestCancel
  | .save => ∀ job, s.worker.draft? = some job → Current s.sinceWorker job
  | _ => True

/-! ## The invariant -/

/-- What the parties know of the record. Between a load of the worker and its save only cancels are
saved; and a call sees from what has been saved since its load whether the job has ended. -/
structure Consistent (s : SharedJob K) : Prop where
  busy : s.worker ≠ .idle → s.record.status.active = true
  draft : ∀ job, s.worker.draft? = some job → job.status = .running ∧
    (s.record.cancelRequested = true ↔ job.cancelRequested = true ∨ s.sinceWorker ≠ []) ∧
    ∀ record ∈ s.sinceWorker, record.status.active = true ∧ record.cancelRequested = true
  running : ∀ job, s.worker = .running job → job.status = .running ∧
    (job.cancelRequested = true → s.record.cancelRequested = true)
  dropping : ∀ job, s.worker = .dropping job → job.status.active = false
  call : ∀ call job, s.calls call = some job → job.status.active = true ∧
    (s.record.status.active = false ↔ ∃ record ∈ s.sinceCall call, record.status.active = false)

variable {s s' : SharedJob K} {E : JobExecutor K}

theorem Consistent.start (id : ℕ) (config : K.Config) (now : ℤ) :
    (start id config now).Consistent where
  busy h := absurd rfl h
  draft _ h := nomatch h
  running _ h := nomatch h
  dropping _ h := nomatch h
  call _ _ h := nomatch h

/-- A save that ends the job, or of a job that has not ended, tells every call the truth. -/
theorem Consistent.call_put (h : s.Consistent) {job : Job K}
    (hjob : job.status.active = false ∨ s.record.status.active = true) {call : ℕ} {draft : Job K}
    (hcall : s.calls call = some draft) : draft.status.active = true ∧
      ((s.put job).record.status.active = false ↔
        ∃ record ∈ (s.put job).sinceCall call, record.status.active = false) := by
  obtain ⟨hdraft, hended⟩ := h.call call draft hcall
  refine ⟨hdraft, fun hend => ⟨_, List.mem_cons_self, hend⟩, ?_⟩
  rintro ⟨record, hmem, hend⟩
  rcases List.mem_cons.mp hmem with rfl | hmem
  · exact hend
  · rcases hjob with hjob | hactive
    · exact hjob
    · rw [hended.mpr ⟨record, hmem, hend⟩] at hactive
      exact absurd hactive Bool.false_ne_true

theorem Consistent.loadHere (h : s.Consistent) {stage : Job K → WorkerStage K}
    (hbusy : stage (s.record.load s.here) ≠ .idle → s.record.status.active = true)
    (hdraft : ∀ job, (stage (s.record.load s.here)).draft? = some job → job.status = .running ∧
      (s.record.cancelRequested = true ↔ job.cancelRequested = true))
    (hrunning : ∀ job, stage (s.record.load s.here) ≠ .running job)
    (hdropping : ∀ job, stage (s.record.load s.here) = .dropping job → job.status.active = false) :
    (s.loadHere stage).Consistent where
  busy := hbusy
  draft job hjob := by
    obtain ⟨hstatus, hflag⟩ := hdraft job hjob
    refine ⟨hstatus, hflag.trans (or_iff_left fun h => h rfl).symm, ?_⟩
    exact fun record hmem => absurd hmem List.not_mem_nil
  running job hjob := absurd hjob (hrunning job)
  dropping := hdropping
  call := h.call

/-- The worker saves the job as ended. -/
theorem Consistent.putHere_idle (h : s.Consistent) {job : Job K}
    (hjob : job.status.active = false) : (s.putHere job .idle).Consistent where
  busy hidle := absurd rfl hidle
  draft _ hdraft := absurd hdraft (by simp [putHere, WorkerStage.draft?])
  running _ hrunning := absurd hrunning (by simp [putHere])
  dropping _ hdropping := absurd hdropping (by simp [putHere])
  call _ _ hcall := h.call_put (.inl hjob) hcall

/-- The worker saves the job as running. -/
theorem Consistent.putHere_running (h : s.Consistent) {job : Job K} (hjob : job.status = .running)
    (hactive : s.record.status.active = true) :
    (s.putHere job (.running (job.stamp s.now))).Consistent where
  busy _ := by
    show job.status.active = true
    rw [hjob]
    rfl
  draft _ hdraft := absurd hdraft (by simp [putHere, WorkerStage.draft?])
  running draft hrunning := by
    obtain rfl := WorkerStage.running.inj hrunning
    exact ⟨hjob, id⟩
  dropping _ hdropping := absurd hdropping (by simp [putHere])
  call _ _ hcall := h.call_put (.inr hactive) hcall

/-- A `request_cancel` saves a job that has not ended since its load. -/
theorem Consistent.callSaves (h : s.Consistent) {call : ℕ} {job : Job K}
    (hcall : s.calls call = some job) (hcurrent : Current (s.sinceCall call) job.requestCancel) :
    (s.callSaves call job).Consistent := by
  obtain ⟨hjob, hended⟩ := h.call call job hcall
  have hactive : s.record.status.active = true := by
    by_contra hnot
    obtain ⟨record, hmem, hend⟩ := hended.mp (Bool.eq_false_iff.mpr hnot)
    rw [(hcurrent record hmem).1] at hend
    exact absurd hend.symm Bool.false_ne_true
  refine ⟨fun _ => hjob, ?_, ?_, h.dropping, ?_⟩
  · intro draft hdraft
    obtain ⟨hstatus, _, hsince⟩ := h.draft draft hdraft
    refine ⟨hstatus, ⟨fun _ => .inr (List.cons_ne_nil _ _), fun _ => rfl⟩, ?_⟩
    intro record hmem
    rcases List.mem_cons.mp hmem with rfl | hmem
    · exact ⟨hjob, rfl⟩
    · exact hsince record hmem
  · exact fun draft hrunning => ⟨(h.running draft hrunning).1, fun _ => rfl⟩
  · intro call' draft hcall'
    have hne : call' ≠ call := by
      rintro rfl
      simp [SharedJob.callSaves] at hcall'
    have hcall' : s.calls call' = some draft := by
      simpa [SharedJob.callSaves, put, Function.update_of_ne hne] using hcall'
    exact h.call_put (.inr hactive) hcall'

theorem Consistent.callLoads (h : s.Consistent) {call : ℕ}
    (hactive : s.record.status.active = true) :
    (s.callLoads call (s.record.load none)).Consistent := by
  refine ⟨h.busy, h.draft, h.running, h.dropping, ?_⟩
  intro call' draft hcall'
  by_cases heq : call' = call
  · subst heq
    have hdraft : s.record.load none = draft := by simpa [SharedJob.callLoads] using hcall'
    subst hdraft
    refine ⟨hactive, ?_⟩
    simp [SharedJob.callLoads, hactive]
  · have hcall' : s.calls call' = some draft := by
      simpa [SharedJob.callLoads, Function.update_of_ne heq] using hcall'
    simpa [SharedJob.callLoads, Function.update_of_ne heq] using h.call call' draft hcall'

theorem Consistent.deliver (h : s.Consistent) : (s.step E .deliver).Consistent := by
  simp only [SharedJob.step]
  split
  · refine h.loadHere ?_ ?_ ?_ ?_ <;> simp only [onDelivery, JobRecord.load_status]
    · intro hbusy
      by_contra hended
      exact hbusy (by simp [hended])
    · intro job hjob
      split at hjob
      · exact nomatch hjob
      · split at hjob
        · exact nomatch hjob
        · exact nomatch hjob
    · intro job
      split
      · simp
      · split <;> simp
    · intro job hjob
      split at hjob
      · exact nomatch hjob
      · split at hjob
        · obtain rfl := WorkerStage.dropping.inj hjob
          rw [E.cancel_status]
          rfl
        · exact nomatch hjob
  · exact h

theorem Consistent.progress (h : s.Consistent) (event : E.Event) :
    (s.step E (.progress event)).Consistent := by
  simp only [SharedJob.step]
  split
  · next job hworker =>
    obtain ⟨hstatus, hflag⟩ := h.running job hworker
    refine h.loadHere (fun _ => h.busy (by simp [hworker])) ?_ ?_ ?_ <;>
      simp only [JobRecord.load_cancelRequested]
    · intro draft hdraft
      split at hdraft
      · exact nomatch hdraft
      · next hclear =>
        obtain rfl := Option.some.inj hdraft
        rw [E.report_status, E.report_cancelRequested]
        exact ⟨hstatus, fun hset => absurd hset hclear, hflag⟩
    · intro draft
      split <;> simp
    · intro draft hdropping
      split at hdropping <;> exact nomatch hdropping
  · exact h

theorem Consistent.step (h : s.Consistent) {step : SharedStep E.Event K.Result}
    (htimely : s.Timely E step) : (s.step E step).Consistent := by
  cases step with
  | tick elapsed => exact ⟨h.busy, h.draft, h.running, h.dropping, h.call⟩
  | get => exact h
  | requestCancel call =>
    simp only [SharedJob.step]
    split
    · split
      · next hactive => exact h.callLoads (by simpa using hactive)
      · exact h
    · exact h
  | saveCancel call =>
    simp only [SharedJob.step]
    split
    · exact h
    · next job hcall => exact h.callSaves hcall (htimely job hcall)
  | deliver => exact h.deliver
  | execute =>
    simp only [SharedJob.step]
    split
    · next hworker =>
      refine h.loadHere (fun _ => h.busy (by simp [hworker])) ?_ (by simp) (by simp)
      intro job hjob
      obtain rfl := Option.some.inj hjob
      exact ⟨E.begin_status _, by rw [E.begin_cancelRequested, JobRecord.load_cancelRequested]⟩
    · exact h
  | save =>
    simp only [SharedJob.step]
    split
    · next job hworker => exact h.putHere_idle (h.dropping job hworker)
    · next job hworker =>
      exact h.putHere_running (h.draft job (by rw [hworker]; rfl)).1 (h.busy (by simp [hworker]))
    · next job hworker =>
      exact h.putHere_running (h.draft job (by rw [hworker]; rfl)).1 (h.busy (by simp [hworker]))
    · exact h
  | progress event => exact h.progress event
  | finish outcome =>
    simp only [SharedJob.step]
    split
    · exact h.putHere_idle (E.finish_active _ _)
    · exact h.putHere_idle (E.finish_active _ _)
    · exact h
  | abort =>
    refine ⟨fun hidle => absurd rfl hidle, fun _ h => ?_, fun _ h => ?_, fun _ h => ?_, h.call⟩
    · exact nomatch h
    · exact nomatch h
    · exact nomatch h

theorem Lawful.of_record (hrecord : s'.record = s.record) : s.Lawful s' := by
  rw [Lawful, hrecord]
  exact ⟨id, fun _ => .inl⟩

theorem Lawful.of_ended (hended : s'.record.status.active = false) : s.Lawful s' :=
  ⟨fun _ => hended, fun _ _ => .inr hended⟩

/-- The save of an active job by the worker keeps the flag if and only if the job is up to date. -/
theorem Consistent.putHere_lawful_iff (h : s.Consistent) {job : Job K} {stage : WorkerStage K}
    (hdraft : s.worker.draft? = some job) :
    s.Lawful (s.putHere job stage) ↔ Current s.sinceWorker job := by
  obtain ⟨hstatus, hflag, hsince⟩ := h.draft job hdraft
  have hbusy : s.record.status.active = true := h.busy fun hidle => by
    rw [hidle] at hdraft
    exact nomatch hdraft
  have hactive : (s.putHere job stage).record.status.active = true := by
    show job.status.active = true
    rw [hstatus]
    rfl
  constructor
  · intro hlawful record hmem
    refine ⟨(hsince record hmem).1, fun _ => ?_⟩
    have hset : s.record.cancelRequested = true := hflag.mpr (.inr (List.ne_nil_of_mem hmem))
    rcases hlawful.2 hbusy hset with hkept | hended
    · exact hkept
    · rw [hactive] at hended
      exact absurd hended.symm Bool.false_ne_true
  · intro hcurrent
    refine ⟨fun hended => ?_, fun _ hset => .inl ?_⟩
    · rw [hbusy] at hended
      exact absurd hended.symm Bool.false_ne_true
    · rcases hflag.mp hset with hset | hne
      · exact hset
      · obtain ⟨record, hmem⟩ := List.exists_mem_of_ne_nil _ hne
        exact (hcurrent record hmem).2 (hsince record hmem).2

/-- The save of a `request_cancel` revives no ended job if and only if the job is up to date. -/
theorem Consistent.callSaves_lawful_iff (h : s.Consistent) {call : ℕ} {job : Job K}
    (hcall : s.calls call = some job) :
    s.Lawful (s.callSaves call job) ↔ Current (s.sinceCall call) job.requestCancel := by
  obtain ⟨hactive, hended⟩ := h.call call job hcall
  have hsaved : (s.callSaves call job).record.status.active = true := hactive
  constructor
  · intro hlawful record hmem
    refine ⟨?_, fun _ => rfl⟩
    by_contra hnot
    have hterminal := hlawful.1 (hended.mpr ⟨record, hmem, Bool.eq_false_iff.mpr hnot⟩)
    rw [hsaved] at hterminal
    exact absurd hterminal.symm Bool.false_ne_true
  · intro hcurrent
    refine ⟨fun hterminal => ?_, fun _ _ => .inl rfl⟩
    obtain ⟨record, hmem, hend⟩ := hended.mp hterminal
    rw [(hcurrent record hmem).1] at hend
    exact absurd hend.symm Bool.false_ne_true

theorem Consistent.lawful_iff (h : s.Consistent) (step : SharedStep E.Event K.Result) :
    s.Lawful (s.step E step) ↔ s.Timely E step := by
  cases step with
  | saveCancel call =>
    simp only [SharedJob.step, Timely]
    split
    · next hnone => exact ⟨fun _ _ hcall => absurd hcall (by simp [hnone]), fun _ => .of_record rfl⟩
    · next job hcall =>
      rw [h.callSaves_lawful_iff hcall, hcall]
      exact ⟨fun hcurrent _ heq => Option.some.inj heq ▸ hcurrent, fun hall => hall job rfl⟩
  | save =>
    simp only [SharedJob.step, Timely]
    split
    · next job hworker =>
      refine ⟨fun _ _ hdraft => ?_, fun _ => .of_ended (h.dropping job hworker)⟩
      rw [hworker] at hdraft
      exact nomatch hdraft
    · next job hworker =>
      have hdraft : s.worker.draft? = some job := by rw [hworker]; rfl
      rw [h.putHere_lawful_iff hdraft, hdraft]
      exact ⟨fun hcurrent _ heq => Option.some.inj heq ▸ hcurrent, fun hall => hall job rfl⟩
    · next job hworker =>
      have hdraft : s.worker.draft? = some job := by rw [hworker]; rfl
      rw [h.putHere_lawful_iff hdraft, hdraft]
      exact ⟨fun hcurrent _ heq => Option.some.inj heq ▸ hcurrent, fun hall => hall job rfl⟩
    · next hdropping hstarting hreporting =>
      refine ⟨fun _ job hdraft => ?_, fun _ => .of_record rfl⟩
      cases hworker : s.worker with
      | starting draft => exact absurd hworker (hstarting draft)
      | reporting draft => exact absurd hworker (hreporting draft)
      | idle | dropping | accepted | running | stopping =>
        simp [hworker, WorkerStage.draft?] at hdraft
  | finish outcome =>
    refine iff_of_true ?_ trivial
    simp only [SharedJob.step]
    split
    · exact .of_ended (E.finish_active _ _)
    · exact .of_ended (E.finish_active _ _)
    · exact .of_record rfl
  | tick | get | abort => exact iff_of_true (.of_record rfl) trivial
  | requestCancel call =>
    refine iff_of_true (.of_record ?_) trivial
    simp only [SharedJob.step]
    split
    · split <;> rfl
    · rfl
  | deliver | execute | progress =>
    refine iff_of_true (.of_record ?_) trivial
    simp only [SharedJob.step]
    split <;> rfl

/-- In every interleaving of an executor with API calls, no ended job is revived and no cancel flag
of an active one is lost if and only if no active job is saved that is behind the record. -/
theorem along_lawful_iff (E : JobExecutor K) (id : ℕ) (config : K.Config) (now : ℤ)
    (steps : List (SharedStep E.Event K.Result)) :
    Run.Along (step E) (fun s step => s.Lawful (s.step E step)) (start id config now) steps ↔
      Run.Along (step E) (Timely E) (start id config now) steps :=
  Run.along_iff (I := Consistent) (D := fun _ _ => True) (fun _ _ h _ htimely => h.step htimely)
    (fun _ step h _ => h.lawful_iff step) (.start id config now) Run.along_true

/-- A cancel saved between a progress event's load and its save is lost. -/
theorem not_along_lawful : ¬ ∀ (K : JobKind) (E : JobExecutor K) (id : ℕ) (config : K.Config)
    (now : ℤ) (steps : List (SharedStep E.Event K.Result)),
    Run.Along (step E) (fun s step => s.Lawful (s.step E step)) (start id config now) steps := by
  intro h
  have hrun := h .bare (optimizationExecutor .bare) 0 () 0 [.deliver, .execute, .save,
    .progress { current := 0, total := 1, phase := .train, stage := .start }, .requestCancel 0,
    .saveCancel 0, .save]
  obtain ⟨-, -, -, -, -, -, hsave, -⟩ := hrun
  rcases hsave.2 rfl rfl with hlost | hended
  · exact absurd hlost Bool.false_ne_true
  · exact absurd hended.symm Bool.false_ne_true

end SharedJob

end TradingPlatform
