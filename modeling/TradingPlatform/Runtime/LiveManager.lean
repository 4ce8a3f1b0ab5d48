import TradingPlatform.Contracts
import TradingPlatform.Lib.Dict
import TradingPlatform.Lib.Run

/-!
# The live runtime manager

`LiveRuntimeManager` keeps one scheduler and one stack. A stop or a switch of the mode first takes
the scheduler off the manager; it is shut down when the call is over, by the last line of the call.
A switch whose restart raises never gets to that line, and leaves a scheduler at work that no later
call can reach.
-/

namespace TradingPlatform

/-! ## Schedulers -/

/-- A field of a cron expression: `*`, a number, or `*/n`. -/
inductive CronField
  | every
  | value (n : ℕ)
  | interval (n : ℕ)

def CronField.holds (n : ℕ) : CronField → Bool
  | .every => true
  | .value m => n = m
  | .interval m => n % m = 0

structure CronTrigger where
  hour : CronField := .every
  minute : CronField

def CronTrigger.fires (trigger : CronTrigger) (hour minute : ℕ) : Bool :=
  trigger.hour.holds hour && trigger.minute.holds minute

def cronForTimeframe (timeframe : String) : CronTrigger :=
  if timeframe = "1h" then { minute := .value 1 }
  else if timeframe = "4h" then { hour := .interval 4, minute := .value 1 }
  else if timeframe = "1d" then { hour := .value 0, minute := .value 5 }
  else { minute := .interval 15 }

/-- `LiveJobInfo`, less the time of its next run. -/
structure LiveJobInfo where
  symbol : String
  timeframe : String
  deriving DecidableEq

/-- `_job_id` -/
def LiveJobInfo.jobId (job : LiveJobInfo) : String :=
  "live_" ++ job.symbol.replace "/" "_" ++ "_" ++ job.timeframe

/-- The scheduler's entry for a job. -/
def LiveJobInfo.entry (job : LiveJobInfo) : String × CronTrigger × LiveJobInfo :=
  (job.jobId, cronForTimeframe job.timeframe, job)

/-- An `AsyncIOScheduler`. Each job runs `run_cycle` on its symbol and timeframe; `running` says
that the scheduler has been started and not shut down. -/
structure Scheduler where
  id : ℕ
  jobs : Dict String (CronTrigger × LiveJobInfo) := ∅
  running : Bool := false

namespace Scheduler

/-- `add_job`, with `replace_existing`. -/
def addJob (scheduler : Scheduler) (job : LiveJobInfo) : Scheduler :=
  { scheduler with jobs := scheduler.jobs.set job.entry.1 job.entry.2 }

def start (scheduler : Scheduler) : Scheduler := { scheduler with running := true }

def shutdown (scheduler : Scheduler) : Scheduler := { scheduler with running := false }

/-- The jobs that run at the given time of the day. -/
def fired (scheduler : Scheduler) (hour minute : ℕ) : List LiveJobInfo :=
  (scheduler.jobs.values.filter fun job => job.1.fires hour minute).map Prod.snd

end Scheduler

/-! ## The manager -/

inductive LiveStatus
  | stopped
  | running
  | paused
  deriving DecidableEq

structure LiveRuntimeState where
  status : LiveStatus := .stopped
  mode : Mode := .paper
  exchangeConnected : Bool := false
  alertsConnected : Bool := false
  revisionId : Option String := none
  experimentId : Option String := none
  jobs : List LiveJobInfo := []

/-- The manager, and every scheduler it has made. -/
structure LiveRuntimeManager (Stack : Type) where
  state : LiveRuntimeState := {}
  scheduler : Option ℕ := none
  stack : Option Stack := none
  schedulers : List Scheduler := []

/-- How `_rebuild_stack` ends. -/
inductive Rebuild (Stack : Type)
  | buildRaises
  | connectivityRaises (stack : Stack)
  | connected (stack : Stack) (exchangeOk alertsOk : Bool)

def Rebuild.connects {Stack : Type} : Rebuild Stack → Bool
  | .connected .. => true
  | _ => false

/-- What `default_live_jobs` reads of the application's configuration. -/
structure AppYamlConfig where
  defaultSymbols : List String
  timeframes : List String

/-- `default_live_jobs`; it raises where one of the lists is empty. -/
def defaultLiveJobs (app : AppYamlConfig) : Option (List LiveJobInfo) :=
  match app.defaultSymbols, app.timeframes with
  | symbol :: _, timeframe :: _ => some [{ symbol, timeframe }]
  | _, _ => none

/-- `jobs or default_live_jobs()` -/
def jobList (jobs : Option (List LiveJobInfo)) (app : AppYamlConfig) : Option (List LiveJobInfo) :=
  match jobs with
  | some (job :: jobs) => some (job :: jobs)
  | _ => defaultLiveJobs app

/-- A manager as a call leaves it. -/
structure LiveReturn (Stack : Type) where
  manager : LiveRuntimeManager Stack
  raised : Bool

namespace LiveRuntimeManager

variable {Stack : Type} (m : LiveRuntimeManager Stack)

def rebuildStack : Rebuild Stack → LiveReturn Stack
  | .buildRaises => ⟨m, true⟩
  | .connectivityRaises stack => ⟨{ m with stack := some stack }, true⟩
  | .connected stack exchangeOk alertsOk =>
    ⟨{ m with
      stack := some stack
      state := { m.state with
        exchangeConnected := exchangeOk, alertsConnected := alertsOk } }, false⟩

/-- `_stop_unlocked`; the scheduler it returns is the one the manager has before. -/
def stopUnlocked : LiveRuntimeManager Stack :=
  { m with
    state := { m.state with status := .stopped, jobs := [] }
    scheduler := none
    stack := none }

/-- `_shutdown_scheduler` -/
def shutdownScheduler (scheduler : Option ℕ) : LiveRuntimeManager Stack :=
  { m with
    schedulers := m.schedulers.map fun s => if scheduler = some s.id then s.shutdown else s }

/-- The scheduler of the jobs, started. -/
def newScheduler (jobs : List LiveJobInfo) : Scheduler :=
  (jobs.foldl Scheduler.addJob { id := m.schedulers.length }).start

def startUnlocked (mode : Mode) (jobs : Option (List LiveJobInfo))
    (revisionId experimentId : Option String) (rebuild : Rebuild Stack) (app : AppYamlConfig) :
    LiveReturn Stack :=
  if m.scheduler.isSome ∧ m.state.status = .running then ⟨m, false⟩
  else
    let rebuilt := m.rebuildStack rebuild
    if rebuilt.raised then rebuilt
    else
      let m := rebuilt.manager
      let state := { m.state with mode, revisionId, experimentId, status := .running, jobs := [] }
      match jobList jobs app with
      | none => ⟨{ m with state }, true⟩
      | some jobs =>
        ⟨{ m with
          state := { state with jobs }
          scheduler := some m.schedulers.length
          schedulers := m.schedulers ++ [m.newScheduler jobs] }, false⟩

def stop : LiveRuntimeManager Stack := m.stopUnlocked.shutdownScheduler m.scheduler

def setMode (mode : Mode) (rebuild : Rebuild Stack) (app : AppYamlConfig) : LiveReturn Stack :=
  let stopped := m.stopUnlocked
  if m.state.status = .running ∧ m.state.jobs ≠ [] then
    let result := stopped.startUnlocked mode (some m.state.jobs) m.state.revisionId
      m.state.experimentId rebuild app
    if result.raised then result
    else ⟨result.manager.shutdownScheduler m.scheduler, false⟩
  else
    let switched := { stopped with state := { stopped.state with mode } }
    ⟨switched.shutdownScheduler m.scheduler, false⟩

/-- What `run_cycle` does to the manager: a missing stack is built before the cycle. -/
def runCycle (rebuild : Rebuild Stack) : LiveReturn Stack :=
  if m.state.status = .running ∧ m.stack.isNone then m.rebuildStack rebuild else ⟨m, false⟩

end LiveRuntimeManager

/-- A call of the manager, with the outcomes of the stack it may build. -/
inductive ManagerCall (Stack : Type)
  | start (mode : Mode) (jobs : Option (List LiveJobInfo)) (revisionId experimentId : Option String)
      (rebuild : Rebuild Stack)
  | stop
  | setMode (mode : Mode) (rebuild : Rebuild Stack)
  | runCycle (rebuild : Rebuild Stack)

namespace LiveRuntimeManager

variable {Stack : Type}

/-- The manager after a call, which may have returned or raised. -/
def step (app : AppYamlConfig) (m : LiveRuntimeManager Stack) :
    ManagerCall Stack → LiveRuntimeManager Stack
  | .start mode jobs revisionId experimentId rebuild =>
    (m.startUnlocked mode jobs revisionId experimentId rebuild app).manager
  | .stop => m.stop
  | .setMode mode rebuild => (m.setMode mode rebuild app).manager
  | .runCycle rebuild => (m.runCycle rebuild).manager

/-! ## Schedulers at work -/

section AtWork

variable (m : LiveRuntimeManager Stack)

/-- The schedulers that are started and not shut down. -/
def atWork : List Scheduler := m.schedulers.filter (·.running)

/-- While the status is running, the manager's scheduler and no other is at work, on one job for
each entry of the state; else none is. -/
def Consistent : Prop :=
  if m.state.status = .running then
    ∃ scheduler, m.atWork = [scheduler] ∧ m.scheduler = some scheduler.id ∧
      scheduler.jobs.entries = m.state.jobs.map LiveJobInfo.entry
  else m.atWork = []

/-- At no time of the day a job runs twice. -/
def FiresOnce : Prop :=
  ∀ hour minute, (m.atWork.flatMap fun scheduler => scheduler.fired hour minute).Nodup

/-- A switch of a running manager gets its new stack, and the jobs of a start have distinct ids. -/
def Disciplined (app : AppYamlConfig) : ManagerCall Stack → Prop
  | .start _ jobs _ _ rebuild => m.state.status ≠ .running → rebuild.connects = true →
      ∃ jobs', jobList jobs app = some jobs' ∧ (jobs'.map LiveJobInfo.jobId).Nodup
  | .setMode _ rebuild => m.state.status = .running → m.state.jobs ≠ [] → rebuild.connects = true
  | _ => True

/-- A manager that does not run has no scheduler, and the next scheduler has a new id. -/
structure Inv : Prop where
  consistent : m.Consistent
  idle : m.state.status ≠ .running → m.scheduler = none
  ids : ∀ scheduler ∈ m.schedulers, scheduler.id < m.schedulers.length

end AtWork

variable {m m' : LiveRuntimeManager Stack} {jobs : List LiveJobInfo} {rebuild : Rebuild Stack}
  {app : AppYamlConfig} {mode : Mode} {revisionId experimentId : Option String}

theorem consistent_iff_of_running (h : m.state.status = .running) : m.Consistent ↔
    ∃ scheduler, m.atWork = [scheduler] ∧ m.scheduler = some scheduler.id ∧
      scheduler.jobs.entries = m.state.jobs.map LiveJobInfo.entry := by
  rw [Consistent, if_pos h]

theorem consistent_iff_of_idle (h : m.state.status ≠ .running) :
    m.Consistent ↔ m.atWork = [] := by
  rw [Consistent, if_neg h]

theorem stopped_ne_running : LiveStatus.stopped ≠ .running := nofun

/-- A scheduler with an entry for each job has jobs with distinct ids. -/
theorem nodup_jobId {scheduler : Scheduler}
    (h : scheduler.jobs.entries = jobs.map LiveJobInfo.entry) :
    (jobs.map LiveJobInfo.jobId).Nodup := by
  have hkeys := scheduler.jobs.nodup
  rw [h, List.map_map] at hkeys
  exact hkeys

/-- A consistent manager fires each job once. -/
theorem Consistent.firesOnce (h : m.Consistent) : m.FiresOnce := by
  intro hour minute
  by_cases hrunning : m.state.status = .running
  · obtain ⟨scheduler, hwork, -, hentries⟩ := (consistent_iff_of_running hrunning).mp h
    have hjobs : scheduler.jobs.values.map Prod.snd = m.state.jobs := by
      rw [Dict.values, hentries, List.map_map, List.map_map]
      exact List.map_id _
    have hsublist : (scheduler.fired hour minute).Sublist m.state.jobs :=
      hjobs ▸ List.filter_sublist.map Prod.snd
    rw [hwork, List.flatMap_singleton]
    exact ((nodup_jobId hentries).of_map _).sublist hsublist
  · rw [(consistent_iff_of_idle hrunning).mp h]
    exact List.nodup_nil

/-! ## New schedulers -/

theorem foldl_addJob {scheduler : Scheduler} :
    jobs.foldl Scheduler.addJob scheduler = { scheduler with
      jobs := (jobs.map LiveJobInfo.entry).foldl (fun d e => d.set e.1 e.2) scheduler.jobs } := by
  induction jobs generalizing scheduler with
  | nil => rfl
  | cons job jobs ih => exact ih

theorem newScheduler_eq : m.newScheduler jobs =
    { id := m.schedulers.length, running := true
      jobs := (jobs.map LiveJobInfo.entry).foldl (fun d e => d.set e.1 e.2) ∅ } := by
  rw [newScheduler, foldl_addJob]
  rfl

/-- A new scheduler has one job for each entry exactly when the ids are distinct. -/
theorem newScheduler_entries_iff :
    (m.newScheduler jobs).jobs.entries = jobs.map LiveJobInfo.entry ↔
      (jobs.map LiveJobInfo.jobId).Nodup := by
  constructor
  · exact nodup_jobId
  · intro h
    have hkeys : ((∅ : Dict String (CronTrigger × LiveJobInfo)).keys ++
        (jobs.map LiveJobInfo.entry).map Prod.fst).Nodup := by
      rw [List.map_map]
      exact h
    rw [newScheduler_eq]
    exact Dict.entries_foldl_set hkeys

/-! ## What the parts of a call do -/

/-- The manager has the same schedulers at work, on the same jobs. -/
structure SameWork (m m' : LiveRuntimeManager Stack) : Prop where
  status : m'.state.status = m.state.status
  jobs : m'.state.jobs = m.state.jobs
  scheduler : m'.scheduler = m.scheduler
  schedulers : m'.schedulers = m.schedulers

theorem SameWork.inv (h : SameWork m m') (hinv : m.Inv) : m'.Inv := by
  refine ⟨?_, ?_, ?_⟩
  · have hconsistent := hinv.consistent
    rw [Consistent, atWork] at hconsistent ⊢
    rw [h.status, h.jobs, h.scheduler, h.schedulers]
    exact hconsistent
  · rw [h.status, h.scheduler]
    exact hinv.idle
  · rw [h.schedulers]
    exact hinv.ids

theorem sameWork_rebuildStack : SameWork m (m.rebuildStack rebuild).manager := by
  cases rebuild <;> exact ⟨rfl, rfl, rfl, rfl⟩

theorem rebuildStack_raised : (m.rebuildStack rebuild).raised = !rebuild.connects := by
  cases rebuild <;> rfl

/-- The manager runs a new scheduler beside those it had. -/
structure Started (m m' : LiveRuntimeManager Stack) (jobs' : List LiveJobInfo) : Prop where
  status : m'.state.status = .running
  jobs : m'.state.jobs = jobs'
  scheduler : m'.scheduler = some m.schedulers.length
  schedulers : m'.schedulers = m.schedulers ++ [m.newScheduler jobs']

theorem Started.atWork (h : Started m m' jobs) : m'.atWork = m.atWork ++ [m.newScheduler jobs] := by
  rw [LiveRuntimeManager.atWork, h.schedulers, List.filter_append, newScheduler_eq]
  rfl

theorem Started.ids (h : Started m m' jobs)
    (hids : ∀ scheduler ∈ m.schedulers, scheduler.id < m.schedulers.length) :
    ∀ scheduler ∈ m'.schedulers, scheduler.id < m'.schedulers.length := by
  intro scheduler hmem
  rw [h.schedulers] at hmem ⊢
  rw [List.length_append, List.length_singleton]
  rcases List.mem_append.mp hmem with hold | hnew
  · exact Nat.lt_succ_of_lt (hids scheduler hold)
  · rw [List.mem_singleton.mp hnew, newScheduler_eq]
    exact Nat.lt_succ_self _

/-- A start of a manager at rest fails in its stack, or for want of jobs, or starts a scheduler. -/
theorem startUnlocked_cases (mode : Mode) (jobs : Option (List LiveJobInfo))
    (revisionId experimentId : Option String) (rebuild : Rebuild Stack) (app : AppYamlConfig)
    (h : m.state.status ≠ .running) :
    ∃ result, m.startUnlocked mode jobs revisionId experimentId rebuild app = result ∧
      ((rebuild.connects = false ∧ result.raised = true ∧ SameWork m result.manager) ∨
        (rebuild.connects = true ∧ jobList jobs app = none ∧
          result.manager.state.status = .running ∧
          result.manager.schedulers = m.schedulers) ∨
        ∃ jobs', rebuild.connects = true ∧ jobList jobs app = some jobs' ∧ result.raised = false ∧
          Started m result.manager jobs') := by
  refine ⟨_, rfl, ?_⟩
  have hsame : SameWork m (m.rebuildStack rebuild).manager := sameWork_rebuildStack
  rw [startUnlocked, if_neg fun hrunning => h hrunning.2]
  cases hconnects : rebuild.connects with
  | false =>
    have hraised : (m.rebuildStack rebuild).raised = true := by
      rw [rebuildStack_raised, hconnects]
      rfl
    simp only [hraised, if_true]
    exact .inl ⟨trivial, trivial, hsame⟩
  | true =>
    have hreturned : (m.rebuildStack rebuild).raised = false := by
      rw [rebuildStack_raised, hconnects]
      rfl
    simp only [hreturned, Bool.false_eq_true, if_false]
    cases hjobs : jobList jobs app with
    | none => exact .inr (.inl ⟨trivial, rfl, rfl, hsame.schedulers⟩)
    | some jobs' =>
      refine .inr (.inr ⟨jobs', trivial, rfl, rfl, rfl, rfl, ?_, ?_⟩)
      · exact congrArg (fun schedulers => some (List.length schedulers)) hsame.schedulers
      · simp only [newScheduler, hsame.schedulers]

theorem filter_running_shutdown {scheduler : Option ℕ} {schedulers : List Scheduler} :
    (schedulers.map fun s => if scheduler = some s.id then s.shutdown else s).filter (·.running) =
      (schedulers.filter (·.running)).filter fun s => decide (scheduler ≠ some s.id) := by
  induction schedulers with
  | nil => rfl
  | cons s schedulers ih =>
    rw [List.map_cons]
    by_cases hs : scheduler = some s.id
    · rw [if_pos hs, List.filter_cons_of_neg (by exact Bool.false_ne_true), ih]
      cases hrunning : s.running with
      | false => rw [List.filter_cons_of_neg (by simpa using hrunning)]
      | true =>
        rw [List.filter_cons_of_pos (by simpa using hrunning),
          List.filter_cons_of_neg (by simpa using hs)]
    · rw [if_neg hs]
      cases hrunning : s.running with
      | false =>
        rw [List.filter_cons_of_neg (by simpa using hrunning),
          List.filter_cons_of_neg (by simpa using hrunning), ih]
      | true =>
        rw [List.filter_cons_of_pos (by simpa using hrunning),
          List.filter_cons_of_pos (by simpa using hrunning),
          List.filter_cons_of_pos (by simpa using hs), ih]

theorem atWork_shutdownScheduler {scheduler : Option ℕ} :
    (m.shutdownScheduler scheduler).atWork =
      m.atWork.filter fun s => decide (scheduler ≠ some s.id) := filter_running_shutdown

theorem ids_shutdownScheduler {scheduler : Option ℕ}
    (hids : ∀ s ∈ m.schedulers, s.id < m.schedulers.length) :
    ∀ s ∈ (m.shutdownScheduler scheduler).schedulers,
      s.id < (m.shutdownScheduler scheduler).schedulers.length := by
  intro s hmem
  obtain ⟨s', hmem', rfl⟩ := List.mem_map.mp hmem
  rw [shutdownScheduler, List.length_map]
  split <;> exact hids s' hmem'

/-- Once its own scheduler is shut down, nothing of the manager is at work. -/
theorem Inv.atWork_filter (h : m.Inv) :
    (m.atWork.filter fun s => decide (m.scheduler ≠ some s.id)) = [] := by
  by_cases hrunning : m.state.status = .running
  · obtain ⟨scheduler, hwork, hown, -⟩ := (consistent_iff_of_running hrunning).mp h.consistent
    rw [hwork, List.filter_cons_of_neg (by simpa using hown)]
    rfl
  · rw [(consistent_iff_of_idle hrunning).mp h.consistent]
    rfl

/-! ## The calls -/

/-- A start keeps a sound manager so exactly when it is disciplined. -/
theorem start_spec {jobs : Option (List LiveJobInfo)} (hinv : m.Inv) :
    let m' := (m.startUnlocked mode jobs revisionId experimentId rebuild app).manager
    (m'.Consistent → m'.Inv) ∧ (m'.Consistent ↔ m.Disciplined app
      (.start mode jobs revisionId experimentId rebuild)) := by
  by_cases hrunning : m.state.status = .running
  · obtain ⟨scheduler, -, hown, -⟩ := (consistent_iff_of_running hrunning).mp hinv.consistent
    have hguard : m.scheduler.isSome ∧ m.state.status = .running := ⟨by rw [hown]; rfl, hrunning⟩
    simp only [startUnlocked, if_pos hguard]
    exact ⟨fun _ => hinv, iff_of_true hinv.consistent fun hidle => absurd hrunning hidle⟩
  · obtain ⟨result, heq, hcases⟩ := startUnlocked_cases mode jobs revisionId experimentId rebuild
      app hrunning
    have hnone : m.atWork = [] := (consistent_iff_of_idle hrunning).mp hinv.consistent
    simp only [heq, Disciplined]
    rcases hcases with ⟨hfails, -, hsame⟩ | ⟨hconnects, hjobs, hstatus, hschedulers⟩ |
      ⟨jobs', hconnects, hjobs, -, hstarted⟩
    · refine ⟨fun _ => hsame.inv hinv, iff_of_true (hsame.inv hinv).consistent fun _ h => ?_⟩
      exact absurd (hfails.symm.trans h) Bool.false_ne_true
    · have hbroken : ¬ result.manager.Consistent := by
        rw [consistent_iff_of_running hstatus, atWork, hschedulers]
        rintro ⟨scheduler, hwork, -⟩
        exact List.cons_ne_nil _ _ (hwork.symm.trans hnone)
      refine ⟨fun h => absurd h hbroken, iff_of_false hbroken fun h => ?_⟩
      obtain ⟨jobs', hjobs', -⟩ := h hrunning hconnects
      cases hjobs.symm.trans hjobs'
    · have hwork : result.manager.atWork = [m.newScheduler jobs'] := by
        rw [hstarted.atWork, hnone, List.nil_append]
      refine ⟨fun h => ⟨h, fun hidle => absurd hstarted.status hidle, hstarted.ids hinv.ids⟩, ?_⟩
      rw [consistent_iff_of_running hstarted.status, hstarted.scheduler, hstarted.jobs, hwork]
      constructor
      · rintro ⟨scheduler, hone, -, hentries⟩ - -
        cases hone
        exact ⟨jobs', hjobs, nodup_jobId hentries⟩
      · intro h
        obtain ⟨jobs'', hjobs'', hnodup⟩ := h hrunning hconnects
        cases hjobs.symm.trans hjobs''
        exact ⟨_, rfl, by rw [newScheduler_eq], newScheduler_entries_iff.mpr hnodup⟩

theorem stop_spec (hinv : m.Inv) : m.stop.Inv := by
  refine ⟨?_, fun _ => rfl, ids_shutdownScheduler hinv.ids⟩
  exact (consistent_iff_of_idle stopped_ne_running).mpr
    (atWork_shutdownScheduler.trans hinv.atWork_filter)

/-- A switch keeps a sound manager so exactly when it is disciplined. -/
theorem setMode_spec (hinv : m.Inv) :
    ((m.setMode mode rebuild app).manager.Consistent → (m.setMode mode rebuild app).manager.Inv) ∧
      ((m.setMode mode rebuild app).manager.Consistent ↔
        m.Disciplined app (.setMode mode rebuild)) := by
  by_cases hruns : m.state.status = .running ∧ m.state.jobs ≠ []
  · obtain ⟨scheduler, hwork, hown, hentries⟩ :=
      (consistent_iff_of_running hruns.1).mp hinv.consistent
    have hmember : scheduler ∈ m.schedulers :=
      List.mem_of_mem_filter (hwork ▸ List.mem_singleton_self scheduler : scheduler ∈ m.atWork)
    have hstopped : m.stopUnlocked.state.status ≠ .running := stopped_ne_running
    obtain ⟨result, heq, hcases⟩ := startUnlocked_cases mode (some m.state.jobs) m.state.revisionId
      m.state.experimentId rebuild app hstopped
    have hlist : jobList (some m.state.jobs) app = some m.state.jobs := by
      obtain ⟨job, jobs, hjobs⟩ := List.exists_cons_of_ne_nil hruns.2
      rw [hjobs]
      rfl
    simp only [setMode, if_pos hruns, heq, Disciplined]
    rcases hcases with ⟨hfails, hraised, hsame⟩ | ⟨-, hjobs, -⟩ |
      ⟨jobs', hconnects, hjobs, hreturned, hstarted⟩
    · simp only [hraised, if_true]
      -- the old scheduler stays at work
      have hbroken : ¬ result.manager.Consistent := by
        rw [consistent_iff_of_idle (hsame.status ▸ hstopped), atWork, hsame.schedulers]
        exact fun hnone => List.cons_ne_nil _ _ (hwork.symm.trans hnone)
      refine ⟨fun h => absurd h hbroken, iff_of_false hbroken fun h => ?_⟩
      exact absurd (hfails.symm.trans (h hruns.1 hruns.2)) Bool.false_ne_true
    · cases hlist.symm.trans hjobs
    · cases hlist.symm.trans hjobs
      simp only [hreturned, Bool.false_eq_true, if_false]
      have hnew : m.scheduler ≠ some (m.newScheduler m.state.jobs).id := by
        rw [hown, newScheduler_eq]
        exact fun hsome => (hinv.ids scheduler hmember).ne (Option.some.inj hsome)
      have hwork' : (result.manager.shutdownScheduler m.scheduler).atWork =
          [m.newScheduler m.state.jobs] := by
        rw [atWork_shutdownScheduler, hstarted.atWork, List.filter_append]
        have hold : m.stopUnlocked.atWork.filter (fun s => decide (m.scheduler ≠ some s.id)) = [] :=
          hinv.atWork_filter
        rw [hold, List.nil_append]
        exact List.filter_cons_of_pos (decide_eq_true hnew)
      have hrunning : (result.manager.shutdownScheduler m.scheduler).state.status = .running :=
        hstarted.status
      have hsound : (result.manager.shutdownScheduler m.scheduler).Consistent := by
        rw [consistent_iff_of_running hrunning]
        refine ⟨_, hwork', hstarted.scheduler.trans (by rw [newScheduler_eq]; rfl), ?_⟩
        exact (newScheduler_entries_iff.mpr (nodup_jobId hentries)).trans
          (congrArg (List.map LiveJobInfo.entry) hstarted.jobs.symm)
      exact ⟨fun h => ⟨h, fun hidle => absurd hrunning hidle,
        ids_shutdownScheduler (hstarted.ids hinv.ids)⟩, iff_of_true hsound fun _ _ => hconnects⟩
  · simp only [setMode, if_neg hruns, Disciplined]
    have hsound : (({ m.stopUnlocked with state := { m.stopUnlocked.state with mode } } :
        LiveRuntimeManager Stack).shutdownScheduler m.scheduler).Consistent :=
      (consistent_iff_of_idle stopped_ne_running).mpr
        (atWork_shutdownScheduler.trans hinv.atWork_filter)
    exact ⟨fun h => ⟨h, fun _ => rfl, ids_shutdownScheduler hinv.ids⟩,
      iff_of_true hsound fun hrunning hjobs => absurd ⟨hrunning, hjobs⟩ hruns⟩

theorem sameWork_runCycle : SameWork m (m.runCycle rebuild).manager := by
  rw [runCycle]
  split
  · exact sameWork_rebuildStack
  · exact ⟨rfl, rfl, rfl, rfl⟩

theorem step_spec (call : ManagerCall Stack) (hinv : m.Inv) :
    ((step app m call).Consistent → (step app m call).Inv) ∧
      ((step app m call).Consistent ↔ m.Disciplined app call) := by
  cases call with
  | start => exact start_spec hinv
  | stop => exact ⟨fun _ => stop_spec hinv, iff_of_true (stop_spec hinv).consistent trivial⟩
  | setMode => exact setMode_spec hinv
  | runCycle rebuild =>
    have hsame : (m.runCycle rebuild).manager.Inv := sameWork_runCycle.inv hinv
    exact ⟨fun _ => hsame, iff_of_true hsame.consistent trivial⟩

/-- After every call of a history the manager is consistent and fires each job once, exactly when
every switch of a running manager gets its new stack, and the jobs of every start have distinct
ids. -/
theorem along_consistent_iff (app : AppYamlConfig) (calls : List (ManagerCall Stack)) :
    Run.Along (step app) (fun m call => (step app m call).Consistent ∧ (step app m call).FiresOnce)
        {} calls ↔
      Run.Along (step app) (Disciplined · app) {} calls :=
  Run.along_iff (I := Inv) (D := fun _ _ => True)
    (fun _ call hinv _ hdisciplined =>
      (step_spec call hinv).1 ((step_spec call hinv).2.mpr hdisciplined))
    (fun _ call hinv _ => ⟨fun h => (step_spec call hinv).2.mp h.1, fun h =>
      have hconsistent := (step_spec call hinv).2.mpr h
      ⟨hconsistent, hconsistent.firesOnce⟩⟩)
    ⟨rfl, fun _ => rfl, nofun⟩ Run.along_true

/-- A switch of a running manager to live mode that cannot build its stack. -/
def failedSwitch : List (ManagerCall Unit) :=
  [.start .paper (some [{ symbol := "BTC/USDT", timeframe := "1h" }]) none none
    (.connected () true true), .setMode .live .buildRaises]

/-- The manager is stopped, and its scheduler is still at work. -/
theorem not_consistent_failedSwitch :
    let app : AppYamlConfig := { defaultSymbols := ["BTC/USDT"], timeframes := ["1h"] }
    ¬ Run.Along (step app)
      (fun m call => (step app m call).Consistent ∧ (step app m call).FiresOnce) {}
      failedSwitch := by
  rintro app ⟨-, ⟨hidle, -⟩, -⟩
  exact List.cons_ne_nil _ _ hidle

end LiveRuntimeManager

end TradingPlatform
