import TradingPlatform.Config.Process
import TradingPlatform.Governance.LiveGate
import TradingPlatform.Governance.Revisions
import TradingPlatform.Runtime.LiveManager

/-!
# The revision of a live stack

A start of the live engine is asked for with the identifier of a revision, which the gate looks up
in the database and the manager records. The stack is built from the files on disk, whatever they
hold by then, and a switch of the mode builds it anew under the recorded identifier. A stack is of
its revision exactly where the files still have the identifier when it is built.
-/

namespace TradingPlatform

variable {Text : Type} {lib : ConfigLibrary Text} {digest : Digest Text}

/-- The identifier of the files. -/
def ConfigLibrary.revisionOf (lib : ConfigLibrary Text) (digest : Digest Text)
    (dir : ConfigDir Text) : Option String :=
  (lib.computeConfigRevision digest dir "auto" none 0).toOption.map (·.revisionId)

/-! ## Stacks -/

/-- The configuration of a live stack, and the files it was loaded from. -/
structure LoadedStack (lib : ConfigLibrary Text) where
  files : ConfigDir Text
  engine : EngineConfig
  features : FeaturesConfig
  providers : List ProviderConfig
  engine_loaded : lib.loadEngineConfig files = .ok engine
  features_loaded : lib.loadFeaturesConfig files = .ok features
  providers_loaded : lib.loadProviders files = .ok providers

/-- How the construction of a stack ends apart from its configuration. -/
inductive BuildOutcome
  | raises
  | connectivityRaises
  | connected (exchangeOk alertsOk : Bool)

/-- The end of `_rebuild_stack` with the stack. -/
def BuildOutcome.rebuild {Stack : Type} (stack : Stack) : BuildOutcome → Rebuild Stack
  | .raises => .buildRaises
  | .connectivityRaises => .connectivityRaises stack
  | .connected exchangeOk alertsOk => .connected stack exchangeOk alertsOk

/-- The stack that `_rebuild_stack` leaves. -/
def Rebuild.stack? {Stack : Type} : Rebuild Stack → Option Stack
  | .buildRaises => none
  | .connectivityRaises stack => some stack
  | .connected stack _ _ => some stack

namespace ConfigProcess

variable (p : ConfigProcess lib)

/-- The configuration that `build_live_stack` loads. -/
def loadStack : ConfigProcess lib × Except PyError (LoadedStack lib) :=
  let p₁ := p.loadFeaturesConfig.1
  match hfeatures : p.loadFeaturesConfig.2 with
  | .error e => (p₁, .error e)
  | .ok features =>
    match hproviders : lib.loadProviders p.dir with
    | .error e => (p₁, .error e)
    | .ok providers =>
      let p₂ := p₁.loadEngineConfig.1
      match hengine : p₁.loadEngineConfig.2 with
      | .error e => (p₂, .error e)
      | .ok engine => (p₂, .ok {
          files := p.dir
          engine, features, providers
          engine_loaded := p₁.loadEngineConfig_eq.symm.trans hengine
          features_loaded := p.loadFeaturesConfig_eq.symm.trans hfeatures
          providers_loaded := hproviders })

/-- `_rebuild_stack` as far as it depends on the configuration. -/
def rebuildStack (outcome : BuildOutcome) : ConfigProcess lib × Rebuild (LoadedStack lib) :=
  match p.loadStack with
  | (p, .ok stack) => (p, outcome.rebuild stack)
  | (p, .error _) => (p, .buildRaises)

end ConfigProcess

/-! ## Requests -/

/-- A live process: its configuration and its manager. -/
structure LiveProcess (lib : ConfigLibrary Text) where
  config : ConfigProcess lib
  manager : LiveRuntimeManager (LoadedStack lib) := {}

/-- What reaches the process. `load` stands for any other request that reads the configuration; a
start comes with the database as it is at that time. -/
inductive LiveRequest
  | write (write : ConfigWrite)
  | load
  | start (db : GovernanceDatabase) (mode : Mode) (jobs : Option (List LiveJobInfo))
      (revisionId experimentId : Option String) (outcome : BuildOutcome)
  | stop
  | setMode (mode : Mode) (outcome : BuildOutcome)
  | runCycle (outcome : BuildOutcome)

namespace LiveRuntimeManager

variable {Stack : Type} (m : LiveRuntimeManager Stack)

/-- A start builds a stack. -/
def StartsAnew : Prop := ¬ (m.scheduler.isSome ∧ m.state.status = .running)

/-- A switch of the mode builds a stack. -/
def Restarts : Prop := m.state.status = .running ∧ m.state.jobs ≠ []

/-- A cycle builds a stack. -/
def LacksStack : Prop := m.state.status = .running ∧ m.stack.isNone

instance : Decidable m.StartsAnew := inferInstanceAs (Decidable (¬ _))
instance : Decidable m.Restarts := inferInstanceAs (Decidable (_ ∧ _))
instance : Decidable m.LacksStack := inferInstanceAs (Decidable (_ ∧ _))

end LiveRuntimeManager

namespace LiveProcess

/-- A process that has served no request yet. -/
def started (lib : ConfigLibrary Text) (dir : ConfigDir Text) : LiveProcess lib where
  config := .started dir

/-- The process after a call of the manager that builds a stack. -/
def build (s : LiveProcess lib) (app : AppYamlConfig) (outcome : BuildOutcome)
    (call : Rebuild (LoadedStack lib) → ManagerCall (LoadedStack lib)) : LiveProcess lib :=
  let (config, rebuild) := s.config.rebuildStack outcome
  { config, manager := s.manager.step app (call rebuild) }

/-- The process after a call of the manager that builds no stack. -/
def call (s : LiveProcess lib) (app : AppYamlConfig) (call : ManagerCall (LoadedStack lib)) :
    LiveProcess lib :=
  { s with manager := s.manager.step app call }

def step (settings : GateSettings) (app : AppYamlConfig) (s : LiveProcess lib) :
    LiveRequest → LiveProcess lib
  | .write write => { s with config := s.config.write write }
  | .load => { s with config := s.config.loadFeaturesConfig.1.loadEngineConfig.1 }
  | .start db mode jobs revisionId experimentId outcome =>
    if allowStart settings db revisionId then
      if s.manager.StartsAnew then
        s.build app outcome (.start mode jobs revisionId experimentId)
      else s.call app (.start mode jobs revisionId experimentId .buildRaises)
    else s
  | .stop => s.call app .stop
  | .setMode mode outcome =>
    if s.manager.Restarts then s.build app outcome (.setMode mode)
    else s.call app (.setMode mode .buildRaises)
  | .runCycle outcome =>
    if s.manager.LacksStack then s.build app outcome .runCycle
    else s.call app (.runCycle .buildRaises)

/-- The stack that a request builds, and the identifier it is built for. -/
def built (s : LiveProcess lib) (settings : GateSettings) :
    LiveRequest → Option (LoadedStack lib × Option String)
  | .start db _ _ revisionId _ outcome =>
    if allowStart settings db revisionId ∧ s.manager.StartsAnew then
      (s.config.rebuildStack outcome).2.stack?.map fun stack => (stack, revisionId)
    else none
  | .setMode _ outcome =>
    if s.manager.Restarts then
      (s.config.rebuildStack outcome).2.stack?.map fun stack => (stack, s.manager.state.revisionId)
    else none
  | .runCycle outcome =>
    if s.manager.LacksStack then
      (s.config.rebuildStack outcome).2.stack?.map fun stack => (stack, s.manager.state.revisionId)
    else none
  | _ => none

end LiveProcess

/-! ## The revision of a stack -/

/-- The stack is of the revision: its files have that identifier. -/
def LoadedStack.IsOf (digest : Digest Text) (stack : LoadedStack lib) (revisionId : Option String) :
    Prop := revisionId ≠ none ∧ lib.revisionOf digest stack.files = revisionId

/-- A manager that runs has a stack of the revision it records with each decision. -/
def Attributed (digest : Digest Text) (m : LiveRuntimeManager (LoadedStack lib)) : Prop :=
  m.state.status = .running → ∃ stack, m.stack = some stack ∧ stack.IsOf digest m.state.revisionId

namespace LiveProcess

variable (digest : Digest Text) (settings : GateSettings) (app : AppYamlConfig)
  (s : LiveProcess lib)

/-- A stack built by the request is of the revision that it is built for, and a manager that runs
afterwards records the revision of its stack. -/
def BuildsRevision (request : LiveRequest) : Prop :=
  (∀ stack revisionId, s.built settings request = some (stack, revisionId) →
    stack.IsOf digest revisionId) ∧
  Attributed digest (s.step settings app request).manager

/-- A start that builds a stack asks for the revision of the files on disk, and, should its check of
the connections raise on a manager left running, for the recorded one. A switch of the mode that
builds a stack finds files of the revision that the stack so far was built from. -/
def FindsFiles : LiveRequest → Prop
  | .start db _ _ revisionId _ outcome =>
    allowStart settings db revisionId → s.manager.StartsAnew →
      (s.config.rebuildStack outcome).2.stack?.isSome →
        lib.revisionOf digest s.config.dir = revisionId ∧
        (outcome = .connectivityRaises → s.manager.state.status = .running →
          revisionId = s.manager.state.revisionId)
  | .setMode _ outcome =>
    s.manager.Restarts → (s.config.rebuildStack outcome).2.stack?.isSome →
      ∀ stack, s.manager.stack = some stack →
        lib.revisionOf digest s.config.dir = lib.revisionOf digest stack.files
  | _ => True

end LiveProcess

/-! ## What the calls do -/

section Calls

variable {p : ConfigProcess lib} {outcome : BuildOutcome} {stack : LoadedStack lib}

theorem ConfigProcess.files_loadStack (h : p.loadStack.2 = .ok stack) : stack.files = p.dir := by
  unfold loadStack at h
  dsimp only at h
  split at h
  · cases h
  · next features hfeatures =>
    split at h
    · cases h
    · next providers hproviders =>
      split at h
      · cases h
      · next engine hengine =>
        cases h
        rfl

/-- A stack that is built is one of the files on disk. -/
theorem ConfigProcess.rebuildStack_cases (p : ConfigProcess lib) (outcome : BuildOutcome) :
    (p.rebuildStack outcome).2 = .buildRaises ∨
      ∃ stack : LoadedStack lib, stack.files = p.dir ∧
        (p.rebuildStack outcome).2 = outcome.rebuild stack := by
  unfold rebuildStack
  cases hload : p.loadStack with
  | mk p' result =>
    cases result with
    | error e => exact .inl rfl
    | ok stack => exact .inr ⟨stack, files_loadStack (congrArg Prod.snd hload), rfl⟩

theorem ConfigProcess.files_rebuildStack (h : (p.rebuildStack outcome).2.stack? = some stack) :
    stack.files = p.dir := by
  rcases p.rebuildStack_cases outcome with hraises | ⟨stack', hfiles, hrebuild⟩
  · rw [hraises] at h
    cases h
  · rw [hrebuild] at h
    cases outcome with
    | raises => cases h
    | connectivityRaises | connected exchangeOk alertsOk =>
      cases h
      exact hfiles

variable {Stack : Type} {m : LiveRuntimeManager Stack}

namespace LiveRuntimeManager

/-- What a start that builds a stack leaves of the manager. -/
def Starts (m m' : LiveRuntimeManager Stack) (revisionId : Option String) : Rebuild Stack → Prop
  | .buildRaises => m' = m
  | .connectivityRaises stack => m'.state = m.state ∧ m'.stack = some stack
  | .connected stack _ _ =>
    m'.state.status = .running ∧ m'.state.revisionId = revisionId ∧ m'.stack = some stack

theorem starts_startUnlocked (h : m.StartsAnew) (mode : Mode) (jobs : Option (List LiveJobInfo))
    (revisionId experimentId : Option String) (rebuild : Rebuild Stack) (app : AppYamlConfig) :
    Starts m (m.startUnlocked mode jobs revisionId experimentId rebuild app).manager revisionId
      rebuild := by
  rw [startUnlocked, if_neg h]
  cases rebuild with
  | buildRaises => rfl
  | connectivityRaises stack => exact ⟨rfl, rfl⟩
  | connected stack exchangeOk alertsOk =>
    dsimp only [rebuildStack, LiveReturn.raised]
    cases jobList jobs app <;> exact ⟨rfl, rfl, rfl⟩

/-- A switch that builds a stack leaves what a start of the stopped manager leaves, but for the old
scheduler. -/
theorem setMode_eq (h : m.Restarts) (mode : Mode) (rebuild : Rebuild Stack) (app : AppYamlConfig) :
    let started := (m.stopUnlocked.startUnlocked mode (some m.state.jobs) m.state.revisionId
      m.state.experimentId rebuild app).manager
    (m.setMode mode rebuild app).manager.state = started.state ∧
      (m.setMode mode rebuild app).manager.stack = started.stack := by
  have hrestarts : m.state.status = .running ∧ m.state.jobs ≠ [] := h
  rw [setMode, if_pos hrestarts]
  dsimp only
  split <;> exact ⟨rfl, rfl⟩

/-- A switch that builds a stack stops the manager where that raises, and else runs the stack under
the identifier recorded. -/
theorem setMode_cases (h : m.Restarts) (mode : Mode) (rebuild : Rebuild Stack)
    (app : AppYamlConfig) :
    (m.setMode mode rebuild app).manager.state.status ≠ .running ∨
      ∃ stack, rebuild.stack? = some stack ∧
        (m.setMode mode rebuild app).manager.state.revisionId = m.state.revisionId ∧
        (m.setMode mode rebuild app).manager.stack = some stack := by
  have hanew : m.stopUnlocked.StartsAnew := fun hrunning => stopped_ne_running hrunning.2
  have hstarts := starts_startUnlocked hanew mode (some m.state.jobs) m.state.revisionId
    m.state.experimentId rebuild app
  obtain ⟨hstate, hstack⟩ := setMode_eq h mode rebuild app
  rw [hstate, hstack]
  cases rebuild with
  | buildRaises =>
    rw [Starts] at hstarts
    rw [hstarts]
    exact .inl stopped_ne_running
  | connectivityRaises stack =>
    rw [hstarts.1]
    exact .inl stopped_ne_running
  | connected stack exchangeOk alertsOk => exact .inr ⟨stack, rfl, hstarts.2⟩

end LiveRuntimeManager

end Calls

/-! ## The steps -/

namespace LiveProcess

variable {settings : GateSettings} {app : AppYamlConfig} {s : LiveProcess lib}

theorem attributed_of_stopped {m : LiveRuntimeManager (LoadedStack lib)}
    (h : m.state.status ≠ .running) : Attributed digest m :=
  fun hrunning => absurd hrunning h

/-- A running manager whose stack is on record lacks none. -/
theorem not_lacksStack (h : Attributed digest s.manager) : ¬ s.manager.LacksStack := by
  rintro ⟨hrunning, hnone⟩
  obtain ⟨stack, hstack, -⟩ := h hrunning
  rw [hstack] at hnone
  cases hnone

/-- Where no stack is built, the property is about the state. -/
theorem buildsRevision_of_built {request : LiveRequest} (hbuilt : s.built settings request = none)
    (h : Attributed digest (s.step settings app request).manager) :
    s.BuildsRevision digest settings app request := by
  refine ⟨fun stack revisionId hsome => ?_, h⟩
  rw [hbuilt] at hsome
  cases hsome

/-- What is said of the stack a request builds, where it builds one for an identifier. -/
theorem isOf_built_iff {stack? : Option (LoadedStack lib)} {revisionId : Option String} :
    (∀ stack r, stack?.map (fun stack => (stack, revisionId)) = some (stack, r) →
      stack.IsOf digest r) ↔ ∀ stack, stack? = some stack → stack.IsOf digest revisionId := by
  cases stack? with
  | none => exact iff_of_true (fun _ _ h => nomatch h) fun _ h => nomatch h
  | some stack =>
    constructor
    · rintro h stack' ⟨⟩
      exact h stack revisionId rfl
    · rintro h stack' r ⟨⟩
      exact h stack rfl

section Build

variable {db : GovernanceDatabase} {mode : Mode} {jobs : Option (List LiveJobInfo)}
  {revisionId experimentId : Option String} {outcome : BuildOutcome}

theorem revisionId_ne_none (hproduction : settings.environment = "production")
    (h : allowStart settings db revisionId = true) : revisionId ≠ none := by
  rintro rfl
  rw [GovernanceDatabase.allowStart_none hproduction] at h
  cases h

/-- After a start that has built a stack, the stack and what is recorded are of the identifier
exactly when the files on disk are; a start whose connections fail must keep the identifier too. -/
theorem attributed_starts_iff {m' : LiveRuntimeManager (LoadedStack lib)} {stack : LoadedStack lib}
    (hr : revisionId ≠ none) (hfiles : stack.files = s.config.dir) (h : Attributed digest s.manager)
    (hstarts : LiveRuntimeManager.Starts s.manager m' revisionId (outcome.rebuild stack)) :
    ((∀ built, (outcome.rebuild stack).stack? = some built → built.IsOf digest revisionId) ∧
        Attributed digest m') ↔
      ((outcome.rebuild stack).stack?.isSome →
        lib.revisionOf digest s.config.dir = revisionId ∧
        (outcome = .connectivityRaises → s.manager.state.status = .running →
          revisionId = s.manager.state.revisionId)) := by
  have hof : ∀ r, stack.IsOf digest r ↔ r ≠ none ∧ lib.revisionOf digest s.config.dir = r := by
    intro r
    rw [LoadedStack.IsOf, hfiles]
  cases outcome with
  | raises =>
    rw [BuildOutcome.rebuild, LiveRuntimeManager.Starts] at hstarts
    rw [hstarts]
    refine iff_of_true ⟨?_, h⟩ ?_
    · rintro stack ⟨⟩
    · rintro ⟨⟩
  | connectivityRaises =>
    obtain ⟨hstate, hstack⟩ := hstarts
    rw [Attributed, hstate, hstack]
    constructor
    · rintro ⟨hbuilds, hattributed⟩ -
      have hdisk := ((hof _).mp (hbuilds stack rfl)).2
      refine ⟨hdisk, fun _ hrunning => ?_⟩
      obtain ⟨stack', hstack', hof'⟩ := hattributed hrunning
      cases hstack'
      exact hdisk.symm.trans ((hof _).mp hof').2
    · intro hdisk
      obtain ⟨hdisk, hrecorded⟩ := hdisk rfl
      have hthis := (hof revisionId).mpr ⟨hr, hdisk⟩
      refine ⟨?_, fun hrunning => ⟨stack, rfl, ?_⟩⟩
      · rintro stack' ⟨⟩
        exact hthis
      · rw [← hrecorded rfl hrunning]
        exact hthis
  | connected exchangeOk alertsOk =>
    obtain ⟨hstatus, hrevision, hstack⟩ := hstarts
    rw [Attributed, hrevision, hstack]
    constructor
    · rintro ⟨hbuilds, -⟩ -
      refine ⟨((hof _).mp (hbuilds stack rfl)).2, ?_⟩
      rintro ⟨⟩
    · intro hdisk
      have hthis := (hof revisionId).mpr ⟨hr, (hdisk rfl).1⟩
      refine ⟨?_, fun _ => ⟨stack, rfl, hthis⟩⟩
      rintro stack' ⟨⟩
      exact hthis

theorem buildsRevision_start_iff (hproduction : settings.environment = "production")
    (h : Attributed digest s.manager) :
    s.BuildsRevision digest settings app (.start db mode jobs revisionId experimentId outcome) ↔
      s.FindsFiles digest settings (.start db mode jobs revisionId experimentId outcome) := by
  by_cases hallow : allowStart settings db revisionId = true
  swap
  · refine iff_of_true (buildsRevision_of_built ?_ ?_) fun hallowed => absurd hallowed hallow
    · simp only [built, hallow, Bool.false_eq_true, false_and, if_false]
    · simpa only [step, if_neg hallow] using h
  by_cases hanew : s.manager.StartsAnew
  swap
  · refine iff_of_true (buildsRevision_of_built ?_ ?_) fun _ hstarts => absurd hstarts hanew
    · simp only [built, hanew, and_false, if_false]
    · have hsame : s.manager.step app (.start mode jobs revisionId experimentId .buildRaises) =
          s.manager := by
        rw [LiveRuntimeManager.step, LiveRuntimeManager.startUnlocked, if_pos (not_not.mp hanew)]
      simp only [step, hallow, if_true, if_neg hanew, call, hsame]
      exact h
  have hr := revisionId_ne_none hproduction hallow
  have hstarts := LiveRuntimeManager.starts_startUnlocked hanew mode jobs revisionId experimentId
    (s.config.rebuildStack outcome).2 app
  have hstep : s.step settings app (.start db mode jobs revisionId experimentId outcome) =
      s.build app outcome (.start mode jobs revisionId experimentId) := by
    rw [step, if_pos hallow, if_pos hanew]
  have hbuilt : s.built settings (.start db mode jobs revisionId experimentId outcome) =
      (s.config.rebuildStack outcome).2.stack?.map fun stack => (stack, revisionId) :=
    if_pos ⟨hallow, hanew⟩
  have hfinds : s.FindsFiles digest settings (.start db mode jobs revisionId experimentId outcome) ↔
      ((s.config.rebuildStack outcome).2.stack?.isSome →
        lib.revisionOf digest s.config.dir = revisionId ∧
        (outcome = .connectivityRaises → s.manager.state.status = .running →
          revisionId = s.manager.state.revisionId)) :=
    ⟨fun hfinds => hfinds hallow hanew, fun hfinds _ _ => hfinds⟩
  rw [BuildsRevision, hstep, hbuilt, hfinds]
  change _ ∧ Attributed digest (s.manager.startUnlocked mode jobs revisionId experimentId
    (s.config.rebuildStack outcome).2 app).manager ↔ _
  generalize (s.manager.startUnlocked mode jobs revisionId experimentId
    (s.config.rebuildStack outcome).2 app).manager = m' at hstarts ⊢
  rw [isOf_built_iff]
  rcases s.config.rebuildStack_cases outcome with hraises | ⟨stack, hfiles, hrebuild⟩
  · rw [hraises] at hstarts ⊢
    rw [LiveRuntimeManager.Starts] at hstarts
    rw [hstarts]
    refine iff_of_true ⟨?_, h⟩ ?_
    · rintro stack ⟨⟩
    · rintro ⟨⟩
  rw [hrebuild] at hstarts ⊢
  exact attributed_starts_iff hr hfiles h hstarts

theorem buildsRevision_setMode_iff (h : Attributed digest s.manager) :
    s.BuildsRevision digest settings app (.setMode mode outcome) ↔
      s.FindsFiles digest settings (.setMode mode outcome) := by
  by_cases hrestarts : s.manager.Restarts
  swap
  · have hstep : s.step settings app (.setMode mode outcome) =
        s.call app (.setMode mode .buildRaises) := if_neg hrestarts
    have hidle : ¬ (s.manager.state.status = .running ∧ s.manager.state.jobs ≠ []) := hrestarts
    refine iff_of_true (buildsRevision_of_built (if_neg hrestarts) ?_) fun h => absurd h hrestarts
    rw [hstep, call, LiveRuntimeManager.step, LiveRuntimeManager.setMode, if_neg hidle]
    exact attributed_of_stopped LiveRuntimeManager.stopped_ne_running
  obtain ⟨stack₀, hstack₀, hof₀⟩ := h hrestarts.1
  have hcases := LiveRuntimeManager.setMode_cases hrestarts mode (s.config.rebuildStack outcome).2
    app
  have hstep : s.step settings app (.setMode mode outcome) = s.build app outcome (.setMode mode) :=
    if_pos hrestarts
  have hbuilt : s.built settings (.setMode mode outcome) =
      (s.config.rebuildStack outcome).2.stack?.map fun stack =>
        (stack, s.manager.state.revisionId) := if_pos hrestarts
  have hfinds : s.FindsFiles digest settings (.setMode mode outcome) ↔
      ((s.config.rebuildStack outcome).2.stack?.isSome →
        lib.revisionOf digest s.config.dir = s.manager.state.revisionId) := by
    refine ⟨fun hfinds hsome => ?_, fun hfinds _ hsome stack hstack => ?_⟩
    · exact (hfinds hrestarts hsome stack₀ hstack₀).trans hof₀.2
    · cases hstack₀.symm.trans hstack
      exact (hfinds hsome).trans hof₀.2.symm
  have hfiles : ∀ stack, (s.config.rebuildStack outcome).2.stack? = some stack →
      stack.files = s.config.dir := fun stack hstack => ConfigProcess.files_rebuildStack hstack
  rw [BuildsRevision, hstep, hbuilt, hfinds, isOf_built_iff]
  change _ ∧ Attributed digest (s.manager.setMode mode (s.config.rebuildStack outcome).2
    app).manager ↔ _
  generalize (s.manager.setMode mode (s.config.rebuildStack outcome).2 app).manager = m'
    at hcases ⊢
  generalize (s.config.rebuildStack outcome).2.stack? = stack? at hcases hfiles ⊢
  constructor
  · rintro ⟨hbuilds, -⟩ hsome
    obtain ⟨stack, rfl⟩ := Option.isSome_iff_exists.mp hsome
    rw [← hfiles stack rfl]
    exact (hbuilds stack rfl).2
  · intro hdisk
    have hbuilds : ∀ stack, stack? = some stack → stack.IsOf digest s.manager.state.revisionId := by
      rintro stack rfl
      refine ⟨hof₀.1, ?_⟩
      rw [hfiles stack rfl]
      exact hdisk rfl
    refine ⟨hbuilds, fun hrunning => ?_⟩
    rcases hcases with hstopped | ⟨stack, hstack, hrevision, hkept⟩
    · exact absurd hrunning hstopped
    · rw [hrevision]
      exact ⟨stack, hkept, hbuilds stack hstack⟩

end Build

theorem buildsRevision_iff (hproduction : settings.environment = "production")
    (h : Attributed digest s.manager) (request : LiveRequest) :
    s.BuildsRevision digest settings app request ↔ s.FindsFiles digest settings request := by
  cases request with
  | write write => exact iff_of_true (buildsRevision_of_built rfl h) trivial
  | load => exact iff_of_true (buildsRevision_of_built rfl h) trivial
  | start db mode jobs revisionId experimentId outcome =>
    exact buildsRevision_start_iff hproduction h
  | stop =>
    exact iff_of_true (buildsRevision_of_built rfl
      (attributed_of_stopped LiveRuntimeManager.stopped_ne_running)) trivial
  | setMode mode outcome => exact buildsRevision_setMode_iff h
  | runCycle outcome =>
    have hstack := not_lacksStack h
    refine iff_of_true (buildsRevision_of_built ?_ ?_) trivial
    · simp only [built, if_neg hstack]
    · have hsame : s.manager.step app (.runCycle .buildRaises) = s.manager := by
        rw [LiveRuntimeManager.step, LiveRuntimeManager.runCycle]
        split <;> rfl
      simp only [step, if_neg hstack, call, hsame]
      exact h

theorem along_iff_of_attributed (hproduction : settings.environment = "production")
    (h : Attributed digest s.manager) (requests : List LiveRequest) :
    Run.Along (step settings app) (BuildsRevision digest settings app) s requests ↔
      Run.Along (step settings app) (FindsFiles digest settings) s requests :=
  Run.along_iff (I := fun s => Attributed digest s.manager) (D := fun _ _ => True)
    (fun _ request h _ hfinds => ((buildsRevision_iff hproduction h request).mpr hfinds).2)
    (fun _ request h _ => buildsRevision_iff hproduction h request) h Run.along_true

/-- Over every order of writes, starts and switches of the mode: each stack is of the revision it is
built for, and a running manager records the revision of its stack, exactly when each start and each
switch that builds a stack finds the files of that revision on disk. -/
theorem along_buildsRevision_iff (hproduction : settings.environment = "production")
    (dir : ConfigDir Text) (requests : List LiveRequest) :
    Run.Along (step settings app) (BuildsRevision digest settings app) (started lib dir) requests ↔
      Run.Along (step settings app) (FindsFiles digest settings) (started lib dir) requests :=
  along_iff_of_attributed hproduction (attributed_of_stopped LiveRuntimeManager.stopped_ne_running)
    requests

end LiveProcess

/-! ## A write before a switch of the mode -/

/-- An engine file, the keys of its risk section in order. -/
def engineOf (minAgreeing : ℤ) : Yaml :=
  .map [("engine", .map [
    ("aggregation", .map [("min_agreeing_providers", .int minAgreeing)]),
    ("filter", .map [("min_atr_pct", .float (3 / 10)), ("allowed_sessions", .list [.str "US"])]),
    ("risk", .map [("max_daily_drawdown_pct", .float 5), ("max_exposure_pct", .float 100),
      ("max_open_positions", .int 1), ("max_signals_per_day", .int 10),
      ("min_confidence", .float (1 / 2)), ("min_risk_reward", .float 2)])])]

def dirOf (minAgreeing : ℤ) : ConfigDir Yaml :=
  { sampleDir "ema" with engine := some (engineOf minAgreeing) }

/-- A library whose texts are documents with their keys in order. -/
def orderedLibrary : ConfigLibrary Yaml := { treeLibrary with safeDumpSorted := id }

/-- A digest that tells apart whether one provider is enough. -/
def agreementDigest : Digest Yaml := { sampleDigest with
  file
    | .map [("engine", .map (("aggregation", .map [("min_agreeing_providers", .int 1)]) :: _))] =>
      "1"
    | .map [("engine", _)] => "2"
    | y => sampleDigest.file y }

/-- The identifier of the files with one provider that has to agree. -/
def soloRevision : String := "rev_1:f:p:0:close_price_v1"

theorem revisionOf_dirOf_one :
    orderedLibrary.revisionOf agreementDigest (dirOf 1) = some soloRevision := by
  decide +kernel

/-- A database in which the revision has a successful validation. -/
def soloValidated : GovernanceDatabase where
  revisions := {
    entries := [(soloRevision, {
      createdAt := 0
      engineConfigHash := "1"
      featuresConfigHash := "f"
      providersConfigHash := "p"
      fillModelId := some "close_price_v1"
      riskLimitsHash := "0"
      label := "validation"
      parentRevisionId := none
      configBundle := {
        engine := engineOf 1
        features := sampleFeatures "ema"
        providers := (sampleDir "ema").providers } })]
    nodup := by decide }
  backtestRuns := {
    entries := [("btrun_1",
      { revisionId := some soloRevision, totalTrades := some 30, completedAt := some 0 })]
    nodup := by decide }

def production : GateSettings where
  environment := "production"
  requireChampionCandidate := false
  minTrades := 20

namespace LiveProcess

def oneSymbol : AppYamlConfig where
  defaultSymbols := ["BTC/USDT"]
  timeframes := ["1h"]

/-- A start with the revision of the files on disk. -/
def startSolo : LiveRequest :=
  .start soloValidated .paper none (some soloRevision) none (.connected true true)

/-- A write that asks for one more provider to agree. -/
def askForTwo : LiveRequest :=
  .write (.engine [("aggregation", [("min_agreeing_providers", .int 2)])])

/-- The identifier of the files that the process was left with, and of those its stack is of. -/
def revisions (s : LiveProcess orderedLibrary) : Option String × Option (Option String) :=
  (orderedLibrary.revisionOf agreementDigest s.config.dir,
    s.manager.stack.map fun stack => orderedLibrary.revisionOf agreementDigest stack.files)

/-- A start and a switch of the mode, on files that stay as they are. -/
theorem along_buildsRevision_kept :
    Run.Along (step production oneSymbol) (BuildsRevision agreementDigest production oneSymbol)
      (started orderedLibrary (dirOf 1))
      [startSolo, .setMode .live (.connected true true)] := by
  refine (along_buildsRevision_iff rfl (dirOf 1) _).mpr
    ⟨fun _ _ _ => ⟨revisionOf_dirOf_one, nofun⟩, fun _ _ stack hstack => ?_, trivial⟩
  have hsame : ((started orderedLibrary (dirOf 1)).step production oneSymbol startSolo).revisions =
      (some soloRevision, some (some soloRevision)) := by decide +kernel
  obtain ⟨hdisk, hfiles⟩ := Prod.ext_iff.mp hsame
  rw [revisions, hstack] at hfiles
  exact hdisk.trans (Option.some.inj hfiles).symm

/-- After the write a switch of the mode builds a stack of other files under the identifier. -/
theorem not_along_buildsRevision_askForTwo :
    ¬ Run.Along (step production oneSymbol) (BuildsRevision agreementDigest production oneSymbol)
      (started orderedLibrary (dirOf 1))
      [startSolo, askForTwo, .setMode .live (.connected true true)] := by
  intro h
  have hstopped : Attributed agreementDigest (started orderedLibrary (dirOf 1)).manager :=
    attributed_of_stopped LiveRuntimeManager.stopped_ne_running
  obtain ⟨-, -, hfinds, -⟩ := (along_iff_of_attributed rfl hstopped _).mp h
  have hdiffer : (((started orderedLibrary (dirOf 1)).step production oneSymbol startSolo).step
      production oneSymbol askForTwo).revisions =
        (some "rev_2:f:p:0:close_price_v1", some (some soloRevision)) := by decide +kernel
  obtain ⟨hdisk, hfiles⟩ := Prod.ext_iff.mp hdiffer
  obtain ⟨stack, hstack, hstack'⟩ := Option.map_eq_some_iff.mp hfiles
  have hsame := hfinds (by decide +kernel) (by decide +kernel) stack hstack
  rw [hstack'] at hsame
  exact absurd (hdisk.symm.trans hsame) (by decide)

end LiveProcess

end TradingPlatform
