import TradingPlatform.Jobs.Store
import TradingPlatform.Lib.Outcome
import TradingPlatform.Lib.Run

/-!
# Sweeps that run in the API process

Without a queue `start_optimization` creates a task that executes the sweep, and `request_cancel`
cancels that task. The executor turns every end of the run into a terminal status, but not an error
raised while it reads the request, nor a cancel that comes before the task has begun: these leave
the sweep active, and every later sweep is refused.
-/

namespace TradingPlatform

/-! ## Requests -/

/-- The fields of `OptimizationRunRequest` that the executor reads itself. The values of the space
are arbitrary. -/
structure OptimizationRunRequest (α : Type) where
  symbol : Option String := none
  timeframe : Option String := none
  startDate : Option String := none
  endDate : Option String := none
  space : Option (Dict String (List α)) := none

/-- The part of `settings.yaml` a sweep falls back on. -/
structure SweepDefaults where
  defaultSymbols : List String
  timeframes : List String
  defaultStart : String

/-- `OptimizationSpace`: the values to try for each parameter. -/
abbrev OptimizationSpace (α : Type) := List (String × List α)

/-- `OptimizationSpace.from_dict` -/
def OptimizationSpace.fromDict {α : Type} (defaults : OptimizationSpace α) :
    Option (Dict String (List α)) → OptimizationSpace α
  | none => defaults
  | some data => defaults.map fun (key, values) => (key, data.getD key values)

/-- What a sweep is run with, as far as the executor works it out before it starts the run. -/
structure SweepInputs (α : Type) where
  symbol : String
  timeframe : String
  start : ℤ
  stop : ℤ
  space : OptimizationSpace α

/-- What the executor calls on: the settings file, `datetime.fromisoformat`, the default values of a
space, and `model_dump` of a request. -/
structure SweepEnvironment (K : JobKind) (α : Type) where
  loadAppYamlConfig : Except PyError SweepDefaults
  fromisoformat : String → Except PyError ℤ
  spaceDefaults : OptimizationSpace α
  modelDump : OptimizationRunRequest α → K.Config

/-- `a or b[0]` -/
def orFirst (s : Option String) (others : List String) : Except PyError String :=
  match others with
  | other :: _ => .ok (orText s other)
  | [] => if given s then .ok (s.getD "") else .error .indexError

/-- The end of the data a sweep uses. -/
def SweepEnvironment.stop {K : JobKind} {α : Type} (env : SweepEnvironment K α)
    (body : OptimizationRunRequest α) (now : ℤ) : Except PyError ℤ :=
  if given body.endDate then env.fromisoformat (body.endDate.getD "") else .ok now

/-- What `execute_optimization_sweep` works out after it marks the sweep as running and before its
`try`. -/
def SweepEnvironment.prepare {K : JobKind} {α : Type} (env : SweepEnvironment K α)
    (body : OptimizationRunRequest α) (now : ℤ) : Except PyError (SweepInputs α) := do
  let app ← env.loadAppYamlConfig
  let symbol ← orFirst body.symbol app.defaultSymbols
  let timeframe ← orFirst body.timeframe app.timeframes
  let start ← env.fromisoformat (orText body.startDate app.defaultStart)
  let stop ← env.stop body now
  return { symbol, timeframe, start, stop, space := .fromDict env.spaceDefaults body.space }

/-- The settings can be read, name a symbol and a timeframe where the request does not, and both
dates are dates. -/
structure SweepEnvironment.Readable {K : JobKind} {α : Type} (env : SweepEnvironment K α)
    (app : SweepDefaults) (body : OptimizationRunRequest α) : Prop where
  config : env.loadAppYamlConfig = .ok app
  symbol : given body.symbol = true ∨ app.defaultSymbols ≠ []
  timeframe : given body.timeframe = true ∨ app.timeframes ≠ []
  start : ∃ t, env.fromisoformat (orText body.startDate app.defaultStart) = .ok t
  stop : given body.endDate = true → ∃ t, env.fromisoformat (body.endDate.getD "") = .ok t

theorem orFirst_ok_iff {s : Option String} {others : List String} :
    (∃ text, orFirst s others = .ok text) ↔ given s = true ∨ others ≠ [] := by
  cases others with
  | nil =>
    rw [orFirst]
    split
    · next hgiven => exact iff_of_true ⟨_, rfl⟩ (.inl hgiven)
    · next hgiven =>
      refine iff_of_false (fun ⟨_, h⟩ => ?_) (by simp [hgiven])
      cases h
  | cons other others => exact iff_of_true ⟨_, rfl⟩ (.inr (List.cons_ne_nil _ _))

theorem SweepEnvironment.prepare_ok_iff {K : JobKind} {α : Type} {env : SweepEnvironment K α}
    {body : OptimizationRunRequest α} (now : ℤ) :
    (∃ inputs, env.prepare body now = .ok inputs) ↔ ∃ app, env.Readable app body := by
  constructor
  · rintro ⟨inputs, h⟩
    obtain ⟨app, happ, h⟩ := Except.bind_eq_ok.mp h
    obtain ⟨symbol, hsymbol, h⟩ := Except.bind_eq_ok.mp h
    obtain ⟨timeframe, htimeframe, h⟩ := Except.bind_eq_ok.mp h
    obtain ⟨start, hstart, h⟩ := Except.bind_eq_ok.mp h
    obtain ⟨stop, hstop, -⟩ := Except.bind_eq_ok.mp h
    refine ⟨app, happ, orFirst_ok_iff.mp ⟨_, hsymbol⟩, orFirst_ok_iff.mp ⟨_, htimeframe⟩,
      ⟨_, hstart⟩, fun hgiven => ?_⟩
    rw [SweepEnvironment.stop, if_pos hgiven] at hstop
    exact ⟨stop, hstop⟩
  · rintro ⟨app, h⟩
    obtain ⟨symbol, hsymbol⟩ := orFirst_ok_iff.mpr h.symbol
    obtain ⟨timeframe, htimeframe⟩ := orFirst_ok_iff.mpr h.timeframe
    obtain ⟨start, hstart⟩ := h.start
    have hstop : ∃ stop, env.stop body now = .ok stop := by
      rw [SweepEnvironment.stop]
      split
      · next hgiven => exact h.stop hgiven
      · exact ⟨now, rfl⟩
    obtain ⟨stop, hstop⟩ := hstop
    refine ⟨⟨symbol, timeframe, start, stop, .fromDict env.spaceDefaults body.space⟩, ?_⟩
    refine Except.bind_eq_ok.mpr ⟨app, h.config, ?_⟩
    refine Except.bind_eq_ok.mpr ⟨symbol, hsymbol, ?_⟩
    refine Except.bind_eq_ok.mpr ⟨timeframe, htimeframe, ?_⟩
    refine Except.bind_eq_ok.mpr ⟨start, hstart, ?_⟩
    exact Except.bind_eq_ok.mpr ⟨stop, hstop, rfl⟩

/-! ## The store -/

/-- `OptimizationSweepStore` over the in-memory persistence. -/
structure JobStore (K : JobKind) where
  jobs : Dict ℕ (Job K) := ∅
  records : Dict ℕ (JobRecord K) := ∅

namespace JobStore

variable {K : JobKind}

/-- The job object and its record are replaced together. -/
def persist (store : JobStore K) (job : Job K) : JobStore K where
  jobs := store.jobs.set job.id job
  records := store.records.set job.id job.serialize

def create (store : JobStore K) (id : ℕ) (config : K.Config) (now : ℤ) : JobStore K :=
  store.persist (.create id config now)

def update (store : JobStore K) (job : Job K) (now : ℤ) : JobStore K :=
  store.persist (job.stamp now)

/-- `get`: the job object itself, or what is left of a job of an earlier process. -/
def get (store : JobStore K) (id : ℕ) : Option (Job K) × JobStore K :=
  match store.jobs.get? id, store.records.get? id with
  | some job, _ => (some job, store)
  | none, none => (none, store)
  | none, some record =>
    let hydrated := record.hydrate true
    (some hydrated,
      if record.status.active then store.persist hydrated
      else { store with jobs := store.jobs.set id hydrated })

def hasActive (store : JobStore K) : Bool :=
  (store.jobs.values.any fun job => job.status.active) ||
    store.records.values.any fun record => record.status.active

end JobStore

/-! ## The task -/

/-- The task of a sweep: not yet begun, waiting inside the run, or done. -/
inductive SweepTask
  | created (cancelled : Bool)
  | running
  /-- `on_progress` has raised `JobCancelled`. -/
  | stopping
  | finished
  deriving DecidableEq

/-- The API process while one sweep is at work. -/
structure InProcess (K : JobKind) (α : Type) where
  store : JobStore K
  id : ℕ
  body : OptimizationRunRequest α
  task : SweepTask := .created false
  now : ℤ

/-- A step of the task, or a call of the API, or a pass of time. -/
inductive InProcessStep (E : Type) (R : Type)
  | tick (elapsed : ℕ)
  | requestCancel
  /-- The task takes its first step. -/
  | begin
  | progress (event : E)
  /-- The run ends. -/
  | finish (outcome : RunOutcome R)

/-- `start_optimization`: refused with status 429 while a sweep is active. -/
def startOptimization {K : JobKind} {α : Type} (env : SweepEnvironment K α) (store : JobStore K)
    (id : ℕ) (body : OptimizationRunRequest α) (now : ℤ) : Option (InProcess K α) :=
  if store.hasActive then none
  else some { store := store.create id (env.modelDump body) now, id, body, now }

namespace InProcess

variable {K : JobKind} {α : Type}

/-- The job object of the sweep is changed by `f` and saved. -/
def save (p : InProcess K α) (f : Job K → Job K) (task : SweepTask) : InProcess K α :=
  match p.store.get p.id with
  | (none, store) => { p with store, task }
  | (some job, store) => { p with store := store.update (f job) p.now, task }

/-- `task.cancel()` on a task that has not begun; one that waits is cancelled in its run. -/
def cancelTask : SweepTask → SweepTask
  | .created _ => .created true
  | task => task

def step (env : SweepEnvironment K α) (p : InProcess K α) :
    InProcessStep (SweepProgress K.Trial) K.Result → InProcess K α
  | .tick elapsed => { p with now := p.now + elapsed }
  | .requestCancel =>
    match p.store.get p.id with
    | (none, store) => { p with store }
    | (some job, store) =>
      if job.status.active then
        { p with store := store.update job.requestCancel p.now, task := cancelTask p.task }
      else { p with store }
  | .begin =>
    match p.task with
    | .created true => { p with task := .finished }
    | .created false =>
      match env.prepare p.body p.now with
      | .error _ => p.save (optimizationExecutor K).begin .finished
      | .ok _ => p.save (optimizationExecutor K).begin .running
    | _ => p
  | .progress event =>
    match p.task with
    | .running =>
      match (p.store.get p.id).1 with
      | none => p
      | some job =>
        if job.cancelRequested then { p with task := .stopping }
        else p.save ((optimizationExecutor K).report event) .running
    | _ => p
  | .finish outcome =>
    match p.task with
    | .running => p.save ((optimizationExecutor K).finish outcome) .finished
    | .stopping => p.save ((optimizationExecutor K).finish outcome.afterCancel) .finished
    | _ => p

end InProcess

/-! ## How a sweep ends -/

namespace JobStore

variable {K : JobKind} {store : JobStore K} {job : Job K} {id : ℕ} {now : ℤ}

theorem hasActive_eq_false_iff : store.hasActive = false ↔
    (∀ id job, store.jobs.get? id = some job → job.status.active = false) ∧
      ∀ id record, store.records.get? id = some record → record.status.active = false := by
  simp only [hasActive, Bool.or_eq_false_iff, List.any_eq_false, Dict.mem_values_iff,
    Bool.not_eq_true]
  constructor
  · rintro ⟨hjobs, hrecords⟩
    exact ⟨fun id job hget => hjobs job ⟨id, hget⟩,
      fun id record hget => hrecords record ⟨id, hget⟩⟩
  · rintro ⟨hjobs, hrecords⟩
    constructor
    · rintro job ⟨id, hget⟩
      exact hjobs id job hget
    · rintro record ⟨id, hget⟩
      exact hrecords id record hget

/-- The one job that may be active, with its record; no other is. -/
structure Holds (store : JobStore K) (id : ℕ) (job : Job K) : Prop where
  id_eq : job.id = id
  found : store.jobs.get? id = some job
  record : ∀ record, store.records.get? id = some record → record.status = job.status
  others : ∀ id', id' ≠ id →
    (∀ job', store.jobs.get? id' = some job' → job'.status.active = false) ∧
      ∀ record, store.records.get? id' = some record → record.status.active = false

theorem Holds.get (h : store.Holds id job) : store.get id = (some job, store) := by
  simp only [JobStore.get, h.found]

/-- Saving a job makes it the one that may be active. -/
theorem Holds.of_persist (hid : job.id = id) (hothers : ∀ id', id' ≠ id →
    (∀ job', store.jobs.get? id' = some job' → job'.status.active = false) ∧
      ∀ record, store.records.get? id' = some record → record.status.active = false) :
    (store.persist job).Holds id job := by
  subst hid
  refine ⟨rfl, Dict.get?_set_self, fun record hrecord => ?_, fun id' hne => ?_⟩
  · have hget : (store.persist job).records.get? job.id = some job.serialize := Dict.get?_set_self
    obtain rfl := Option.some.inj (hget.symm.trans hrecord)
    rfl
  · obtain ⟨hjobs, hrecords⟩ := hothers id' hne
    exact ⟨fun job' hget => hjobs job' ((Dict.get?_set_of_ne hne.symm).symm.trans hget),
      fun record hget => hrecords record ((Dict.get?_set_of_ne hne.symm).symm.trans hget)⟩

theorem Holds.hasActive_iff (h : store.Holds id job) :
    store.hasActive = false ↔ job.status.active = false := by
  rw [hasActive_eq_false_iff]
  constructor
  · exact fun hall => hall.1 id job h.found
  · intro hended
    refine ⟨fun id' job' hget => ?_, fun id' record hget => ?_⟩
    · by_cases hne : id' = id
      · subst hne
        obtain rfl := Option.some.inj (h.found.symm.trans hget)
        exact hended
      · exact (h.others id' hne).1 job' hget
    · by_cases hne : id' = id
      · subst hne
        rw [h.record record hget]
        exact hended
      · exact (h.others id' hne).2 record hget

end JobStore

namespace InProcess

variable {K : JobKind} {α : Type} {env : SweepEnvironment K α} {p : InProcess K α}

/-- A finished sweep has a terminal status and blocks no later one. -/
def Released (p : InProcess K α) : Prop :=
  p.task = .finished →
    (∃ job, p.store.jobs.get? p.id = some job ∧ job.status.active = false) ∧
      p.store.hasActive = false

/-- The task takes its first step uncancelled and can read its request. -/
def BeginsWell (env : SweepEnvironment K α) (p : InProcess K α) :
    InProcessStep (SweepProgress K.Trial) K.Result → Prop
  | .begin => ∀ cancelled, p.task = .created cancelled →
    cancelled = false ∧ ∃ app, env.Readable app p.body
  | _ => True

/-- The sweep is active until its task has finished. -/
def Sound (p : InProcess K α) : Prop :=
  ∃ job, p.store.Holds p.id job ∧ (p.task = .finished ↔ job.status.active = false)

theorem Sound.released (h : p.Sound) : p.Released := by
  obtain ⟨job, hholds, hended⟩ := h
  intro hfinished
  have hjob := hended.mp hfinished
  exact ⟨⟨job, hholds.found, hjob⟩, hholds.hasActive_iff.mpr hjob⟩

/-- The object of the sweep is changed and saved. -/
theorem save_eq {job : Job K} (h : p.store.Holds p.id job) (f : Job K → Job K) (task : SweepTask) :
    p.save f task = { p with store := p.store.update (f job) p.now, task } := by
  simp only [save, h.get]

theorem Holds.save {job : Job K} (h : p.store.Holds p.id job) {f : Job K → Job K}
    (hid : ∀ job, (f job).id = job.id) (task : SweepTask) :
    (p.save f task).store.Holds p.id ((f job).stamp p.now) := by
  rw [save_eq h]
  exact .of_persist ((hid job).trans h.id_eq) h.others

theorem save_sound {job : Job K} (h : p.store.Holds p.id job) {f : Job K → Job K}
    (hid : ∀ job, (f job).id = job.id) {task : SweepTask}
    (htask : task = .finished ↔ (f job).status.active = false) : (p.save f task).Sound := by
  have hholds := Holds.save h hid task
  rw [save_eq h] at hholds ⊢
  exact ⟨_, hholds, htask⟩

theorem finish_id (outcome : RunOutcome K.Result) (job : Job K) :
    ((optimizationExecutor K).finish outcome job).id = job.id := by
  cases outcome <;> rfl

theorem Sound.step (h : p.Sound) {step : InProcessStep (SweepProgress K.Trial) K.Result}
    (hbegins : p.BeginsWell env step) : (p.step env step).Sound := by
  obtain ⟨job, hholds, hended⟩ := h
  have hsame : p.Sound := ⟨job, hholds, hended⟩
  cases step with
  | tick elapsed => exact ⟨job, hholds, hended⟩
  | requestCancel =>
    simp only [InProcess.step, hholds.get]
    split
    · next hactive =>
      refine ⟨_, .of_persist hholds.id_eq hholds.others, ?_⟩
      show cancelTask p.task = .finished ↔ job.status.active = false
      rw [← hended]
      cases p.task <;> simp [cancelTask]
    · exact hsame
  | begin =>
    simp only [InProcess.step]
    split
    · next htask => exact absurd (hbegins true htask).1.symm Bool.false_ne_true
    · next htask =>
      obtain ⟨inputs, hinputs⟩ :=
        (SweepEnvironment.prepare_ok_iff p.now).mpr (hbegins false htask).2
      rw [hinputs]
      exact save_sound hholds (f := (optimizationExecutor K).begin) (fun _ => rfl)
        (iff_of_false nofun nofun)
    · exact hsame
  | progress event =>
    simp only [InProcess.step, hholds.get]
    split
    · next htask =>
      have hactive : job.status.active ≠ false := fun h => by simpa [htask] using hended.mpr h
      split
      · exact ⟨job, hholds, by simpa using hactive⟩
      · exact save_sound hholds (f := (optimizationExecutor K).report event) (fun _ => rfl)
          (iff_of_false nofun hactive)
    · exact hsame
  | finish outcome =>
    simp only [InProcess.step]
    split
    · exact save_sound hholds (finish_id _) (by simp [JobExecutor.finish_active])
    · exact save_sound hholds (finish_id _) (by simp [JobExecutor.finish_active])
    · exact hsame

/-- An end outside the executor's `try` leaves the sweep active. -/
theorem not_released {q : InProcess K α} {job : Job K} (h : q.store.Holds q.id job)
    (hfinished : q.task = .finished) (hactive : job.status.active ≠ false) : ¬ q.Released := by
  intro hreleased
  exact hactive (h.hasActive_iff.mp (hreleased hfinished).2)

theorem Sound.released_iff (h : p.Sound)
    (step : InProcessStep (SweepProgress K.Trial) K.Result) :
    (p.step env step).Released ↔ p.BeginsWell env step := by
  refine ⟨fun hreleased => ?_, fun hbegins => (h.step hbegins).released⟩
  obtain ⟨job, hholds, hended⟩ := h
  cases step with
  | begin =>
    intro cancelled htask
    have hactive : job.status.active ≠ false := fun h => by simpa [htask] using hended.mpr h
    cases cancelled with
    | true =>
      have hstep : p.step env .begin = { p with task := .finished } := by
        simp only [InProcess.step, htask]
      rw [hstep] at hreleased
      exact absurd hreleased (not_released (q := { p with task := .finished }) hholds rfl hactive)
    | false =>
      refine ⟨rfl, (SweepEnvironment.prepare_ok_iff p.now).mp ?_⟩
      cases hprepare : env.prepare p.body p.now with
      | ok inputs => exact ⟨inputs, rfl⟩
      | error e =>
        have hstep : p.step env .begin =
            p.save (optimizationExecutor K).begin .finished := by
          simp only [InProcess.step, htask, hprepare]
        have hsaved := Holds.save hholds (f := (optimizationExecutor K).begin) (fun _ => rfl)
          .finished
        rw [hstep] at hreleased
        rw [save_eq hholds] at hsaved hreleased
        exact absurd hreleased (not_released hsaved rfl
          (by simp [optimizationExecutor, JobStatus.active]))
  | tick | requestCancel | progress | finish => trivial

theorem Sound.start {store : JobStore K} {id : ℕ} {body : OptimizationRunRequest α} {now : ℤ}
    (h : startOptimization env store id body now = some p) : p.Sound := by
  simp only [startOptimization] at h
  split at h
  · exact nomatch h
  · next hidle =>
    obtain rfl := Option.some.inj h
    obtain ⟨hjobs, hrecords⟩ :=
      JobStore.hasActive_eq_false_iff.mp (Bool.eq_false_iff.mpr hidle)
    refine ⟨_, .of_persist rfl fun id' _ => ⟨hjobs id', hrecords id'⟩, ?_⟩
    exact iff_of_false nofun (by simp [Job.create, JobStatus.active])

/-- Whatever the API calls and the run do, a finished sweep has a terminal status and blocks no
later one if and only if its task takes its first step uncancelled and can read the request. -/
theorem along_released_iff (env : SweepEnvironment K α) (store : JobStore K) (id : ℕ)
    (body : OptimizationRunRequest α) (now : ℤ)
    (steps : List (InProcessStep (SweepProgress K.Trial) K.Result))
    (h : startOptimization env store id body now = some p) :
    Run.Along (step env) (fun p s => (p.step env s).Released) p steps ↔
      Run.Along (step env) (BeginsWell env) p steps :=
  Run.along_iff (I := Sound) (D := fun _ _ => True) (fun _ _ h _ hbegins => h.step hbegins)
    (fun _ step h _ => h.released_iff step) (.start h) Run.along_true

/-- Sweeps without data, with settings that name one symbol, one timeframe and one date. -/
def sampleEnvironment : SweepEnvironment .bare Unit where
  loadAppYamlConfig := .ok
    { defaultSymbols := ["BTC/USDT"], timeframes := ["1h"], defaultStart := "2024-01-01" }
  fromisoformat text :=
    if text = "2024-01-01" then .ok 1704067200000000
    else .error (.valueError s!"Invalid isoformat string: {text}")
  spaceDefaults := []
  modelDump _ := ()

/-- A sweep with nothing but defaults, cancelled while it runs. -/
theorem along_released_iff_sample :
    Run.Along (step sampleEnvironment) (fun p s => (p.step sampleEnvironment s).Released)
        { store := ({} : JobStore .bare).create 0 () 0, id := 0, body := {}, now := 0 }
        [.begin, .requestCancel, .finish .cancelled] ↔
      Run.Along (step sampleEnvironment) (BeginsWell sampleEnvironment)
        { store := ({} : JobStore .bare).create 0 () 0, id := 0, body := {}, now := 0 }
        [.begin, .requestCancel, .finish .cancelled] :=
  along_released_iff sampleEnvironment {} 0 {} 0 _ rfl

/-- A sweep that is cancelled before its task has begun stays pending. -/
theorem not_along_released : ¬ ∀ (K : JobKind) (α : Type) (env : SweepEnvironment K α)
    (store : JobStore K) (id : ℕ) (body : OptimizationRunRequest α) (now : ℤ) (p : InProcess K α)
    (steps : List (InProcessStep (SweepProgress K.Trial) K.Result)),
    startOptimization env store id body now = some p →
      Run.Along (step env) (fun p s => (p.step env s).Released) p steps := by
  intro h
  have hrun := h _ _ sampleEnvironment {} 0 {} 0 _ [.requestCancel, .begin] rfl
  obtain ⟨job, hjob, hended⟩ := (hrun.2.1 rfl).1
  obtain rfl := Option.some.inj hjob
  exact absurd hended.symm Bool.false_ne_true

end InProcess

end TradingPlatform
