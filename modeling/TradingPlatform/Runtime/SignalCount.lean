import TradingPlatform.Engine.RiskGates
import TradingPlatform.Runtime.Phases

/-!
# The approved decisions of a day

The risk state counts the approved decisions since the date of the cycles last changed. It counts
the approved decisions of a date as long as no cycle comes back to a date with approved decisions.
-/

namespace TradingPlatform

namespace InMemoryStateStore

variable {s : InMemoryStateStore} {t : StateTransitionEvent} {ts : List StateTransitionEvent}

theorem signalsToday_apply_trade (h : t.IsTrade) :
    (s.apply t).risk.signalsToday = s.risk.signalsToday := by
  rcases h with ⟨p, fill, cost, hpay⟩ | ⟨id, fill, pnl, reason, hpay⟩
  · rw [apply_positionOpened hpay]
    rfl
  · rw [apply_positionClosed hpay]
    rfl

theorem signalsToday_exec_trades (h : ∀ t ∈ ts, t.IsTrade) :
    (Run.exec apply s ts).risk.signalsToday = s.risk.signalsToday :=
  Run.exec_frame (fun s : InMemoryStateStore => s.risk.signalsToday) fun t ht _ =>
    signalsToday_apply_trade (h t ht)

end InMemoryStateStore

namespace PlatformRuntime

variable {rt r r' : PlatformRuntime} {ctx : CycleCtx}

/-- What the count of the day depends on is the same. -/
structure SameCount (r r' : PlatformRuntime) : Prop where
  decisionEngine : r'.decisionEngine = r.decisionEngine
  signalsDay : r'.signalsDay = r.signalsDay
  signalsToday : r'.stateStore.risk.signalsToday = r.stateStore.risk.signalsToday

theorem SameCount.trans {r₁ r₂ r₃ : PlatformRuntime} (h : SameCount r₁ r₂) (h' : SameCount r₂ r₃) :
    SameCount r₁ r₃ :=
  ⟨h'.1.trans h.1, h'.2.trans h.2, h'.3.trans h.3⟩

theorem Quiet.sameCount (h : Quiet r r') : SameCount r r' :=
  ⟨h.decisionEngine, h.signalsDay, by rw [h.stateStore]⟩

theorem Applied.sameCount {ts : List StateTransitionEvent} (h : Applied ts r r')
    (hday : r'.signalsDay = r.signalsDay) (hts : ∀ t ∈ ts, t.IsTrade) : SameCount r r' :=
  ⟨h.decisionEngine, hday, by rw [h.stateStore, InMemoryStateStore.signalsToday_exec_trades hts]⟩

theorem sameCount_preDecisionEvaluate : SameCount r (r.preDecisionEvaluate ctx).2 := by
  obtain ⟨ts, happlied, htrades, hday, _⟩ := preDecisionEvaluate_trades r ctx
  exact happlied.sameCount hday fun t ht => (htrades t ht).1

theorem sameCount_sameBarExitAndExecute {decision : Decision}
    (htime : decision.eventTime = ctx.eventTime) :
    SameCount r (r.sameBarExitAndExecute ctx decision).2 := by
  obtain ⟨ts, happlied, htrades, hday⟩ := sameBarExitAndExecute_trades r ctx htime
  exact happlied.sameCount hday fun t ht => (htrades t ht).1

theorem sameCount_markToMarket : SameCount r (r.markToMarket ctx) := by
  rcases markToMarket_cases r ctx with h | h <;> rw [h]
  · exact ⟨rfl, rfl, rfl⟩
  · exact ⟨rfl, rfl, rfl⟩

theorem Prepared.sameCount {rt₁ : PlatformRuntime} {call : CycleCall}
    (h : Prepared call rt ctx rt₁) :
    SameCount rt rt₁ :=
  ⟨h.quiet.decisionEngine, h.quiet.signalsDay,
    congrArg (fun s => s.risk.signalsToday) h.quiet.stateStore⟩

/-- A reset clears the count unless the date is the last one seen, or the first. -/
theorem signalsToday_maybeResetDailyRisk {eventTime : ℤ} {cycleId : CorrelationId} :
    (r.maybeResetDailyRisk eventTime cycleId).stateStore.risk.signalsToday =
      if r.signalsDay = none ∨ r.signalsDay = some (date eventTime)
      then r.stateStore.risk.signalsToday else 0 := by
  cases h : r.signalsDay with
  | none => rw [maybeResetDailyRisk_of_none h, if_pos (.inl rfl)]
  | some day =>
    by_cases hday : date eventTime = day
    · rw [maybeResetDailyRisk_of_same (hday ▸ h), if_pos (.inr (congrArg some hday.symm))]
    · have hother : ¬ (some day = none ∨ some day = some (date eventTime)) := by
        rintro (hnone | hsome)
        · cases hnone
        · exact hday (Option.some.inj hsome).symm
      rw [if_neg hother]
      rcases maybeResetDailyRisk_of_new cycleId h hday with ⟨hreset, hkeep⟩ | hnew
      · rw [hkeep]
        exact hreset.1
      · rw [hnew]
        rfl

theorem decisionEngine_maybeResetDailyRisk {eventTime : ℤ} {cycleId : CorrelationId} :
    (r.maybeResetDailyRisk eventTime cycleId).decisionEngine = r.decisionEngine := by
  obtain ⟨_, happlied, _⟩ := books_maybeResetDailyRisk r eventTime cycleId
  exact happlied.decisionEngine

end PlatformRuntime

/-! ## The approved decisions of a run -/

/-- A runtime with a record of the event times of its approved decisions, the newest first. -/
structure CountingRuntime where
  runtime : PlatformRuntime
  approved : List ℤ := []

namespace CountingRuntime

open PlatformRuntime

/-- Record the decision of a cycle, if there is one and it is approved. -/
def record (approved : List ℤ) : Except PyError AtDecision → List ℤ
  | .ok d => if d.decision.isApproved then d.decision.eventTime :: approved else approved
  | .error _ => approved

/-- Run a cycle and record its decision. -/
def step (w : CountingRuntime) (call : CycleCall) : CountingRuntime where
  runtime := w.runtime.step call
  approved := record w.approved (w.runtime.runToDecision call).1

/-- The number of approved decisions on a date. -/
def approvedOn (w : CountingRuntime) (day : ℤ) : ℕ := w.approved.countP (date · = day)

/-- On no date are there more approved decisions than the configuration allows in a day. -/
def WithinDailyLimit (w : CountingRuntime) : Prop :=
  ∀ day, (w.approvedOn day : ℤ) ≤ w.runtime.decisionEngine.risk.maxSignalsPerDay

/-- The daily limit holds after the cycle. -/
def KeepsDailyLimit (w : CountingRuntime) (call : CycleCall) : Prop :=
  (w.step call).WithinDailyLimit

/-- A cycle that gets to its decision on a date other than the last one seen finds no approved
decision on that date. -/
def NoReturn (w : CountingRuntime) (call : CycleCall) : Prop :=
  match (w.runtime.runToSnapshot call).1 with
  | .ok a => w.runtime.signalsDay = some (date a.ctx.eventTime) ∨
    w.approvedOn (date a.ctx.eventTime) = 0
  | .error _ => True

instance (w : CountingRuntime) (call : CycleCall) : Decidable (w.NoReturn call) := by
  unfold NoReturn
  split <;> infer_instance

/-- The risk state counts the approved decisions of the last date seen. -/
structure Counts (w : CountingRuntime) : Prop where
  within : w.WithinDailyLimit
  first : w.runtime.signalsDay = none →
    w.approved = [] ∧ w.runtime.stateStore.risk.signalsToday = 0
  count : ∀ day, w.runtime.signalsDay = some day →
    w.runtime.stateStore.risk.signalsToday = w.approvedOn day

variable {w : CountingRuntime} {call : CycleCall} {r r' : PlatformRuntime}

theorem Counts.sameCount {approved : List ℤ} (h : Counts ⟨r, approved⟩) (hsame : SameCount r r') :
    Counts ⟨r', approved⟩ where
  within day := by
    have hday := h.within day
    change _ ≤ r'.decisionEngine.risk.maxSignalsPerDay
    rw [hsame.decisionEngine]
    exact hday
  first hnone := by
    obtain ⟨hempty, hzero⟩ := h.first (hsame.signalsDay ▸ hnone)
    exact ⟨hempty, hsame.signalsToday.trans hzero⟩
  count day hsome := hsame.signalsToday.trans (h.count day (hsame.signalsDay ▸ hsome))

/-- Coming to a date without approved decisions, the count starts at zero. -/
theorem Counts.maybeResetDailyRisk {approved : List ℤ} {eventTime : ℤ} {cycleId : CorrelationId}
    (h : Counts ⟨r, approved⟩) (hday : r.signalsDay = some (date eventTime) ∨
      (⟨r, approved⟩ : CountingRuntime).approvedOn (date eventTime) = 0) :
    Counts ⟨r.maybeResetDailyRisk eventTime cycleId, approved⟩ where
  within day := by
    have hwithin := h.within day
    change _ ≤ (r.maybeResetDailyRisk eventTime cycleId).decisionEngine.risk.maxSignalsPerDay
    rw [decisionEngine_maybeResetDailyRisk]
    exact hwithin
  first hnone := by
    change (r.maybeResetDailyRisk eventTime cycleId).signalsDay = none at hnone
    rw [signalsDay_maybeResetDailyRisk] at hnone
    cases hnone
  count day hsome := by
    change (r.maybeResetDailyRisk eventTime cycleId).signalsDay = some day at hsome
    rw [signalsDay_maybeResetDailyRisk] at hsome
    obtain rfl := Option.some.inj hsome
    change (r.maybeResetDailyRisk eventTime cycleId).stateStore.risk.signalsToday =
      (approved.countP (date · = date eventTime) : ℕ)
    rw [signalsToday_maybeResetDailyRisk]
    split
    · next hseen =>
      rcases hseen with hnone | hsome
      · obtain ⟨hempty, hzero⟩ := h.first hnone
        have hempty' : approved = [] := hempty
        rw [hempty']
        exact hzero
      · exact h.count _ hsome
    · next hunseen =>
      have hnone : approved.countP (date · = date eventTime) = 0 :=
        hday.resolve_left fun hsome => hunseen (.inr hsome)
      rw [hnone]
      rfl

/-- Approving a decision on the last date seen. -/
theorem Counts.countApproved {approved : List ℤ} {decision : Decision} {ctx : CycleCtx}
    {snapshot : StateSnapshot} (h : Counts ⟨r, approved⟩)
    (hday : r.signalsDay = some (date decision.eventTime))
    (hsnapshot : snapshot.risk.signalsToday = r.stateStore.risk.signalsToday)
    (hlimit : decision.isApproved = true →
      snapshot.risk.signalsToday < r.decisionEngine.risk.maxSignalsPerDay) :
    Counts ⟨r.countApproved ctx decision snapshot,
      if decision.isApproved then decision.eventTime :: approved else approved⟩ := by
  unfold PlatformRuntime.countApproved
  cases happroved : decision.isApproved with
  | false => exact h
  | true =>
    have hcount := h.count _ hday
    have hlt := hlimit happroved
    rw [hsnapshot, hcount] at hlt
    have hgrow : ∀ day, (decision.eventTime :: approved).countP (date · = day) =
        approved.countP (date · = day) + if date decision.eventTime = day then 1 else 0 := by
      intro day
      simp [List.countP_cons]
    refine ⟨fun day => ?_, fun hnone => ?_, fun day hsome => ?_⟩
    · change ((decision.eventTime :: approved).countP (date · = day) : ℤ) ≤
        r.decisionEngine.risk.maxSignalsPerDay
      rw [hgrow]
      split
      · next heq =>
        subst heq
        exact_mod_cast hlt
      · exact h.within day
    · exact absurd (hday.symm.trans hnone) (Option.some_ne_none _)
    · obtain rfl : date decision.eventTime = day := Option.some.inj (hday.symm.trans hsome)
      change snapshot.risk.signalsToday + 1 =
        ((decision.eventTime :: approved).countP (date · = date decision.eventTime) : ℤ)
      rw [hgrow, if_pos rfl, hsnapshot, hcount]
      rfl

/-- The record of a cycle whose decision is known. -/
theorem step_eq {outcome : Except PyError AtDecision}
    (h : w.runtime.runToDecision call = (outcome, r)) :
    w.step call = ⟨w.runtime.step call, record w.approved outcome⟩ := by
  unfold CountingRuntime.step
  rw [h]

theorem Counts.step (h : w.Counts) (hreturn : w.NoReturn call) : (w.step call).Counts := by
  unfold NoReturn at hreturn
  rcases runToSnapshot_cases w.runtime call with ⟨e, _, hsnap⟩ | ⟨ctx, rt₁, hprep, hsnap⟩
  · have hdec := runToDecision_of_error hsnap
    rw [step_eq hdec, step_of_error hdec]
    exact h
  have hpre : Counts ⟨(rt₁.preDecisionEvaluate ctx).2, w.approved⟩ :=
    Counts.sameCount (r := w.runtime) h (hprep.sameCount.trans sameCount_preDecisionEvaluate)
  rcases hsnap with ⟨e, rt', hsnap, hquiet⟩ |
    ⟨a, rt₂, rt₃, hsnap, hquiet₂, hquiet₃, hsame, _, hrisk⟩
  · have hdec := runToDecision_of_error hsnap
    rw [step_eq hdec, step_of_error hdec]
    exact hpre.sameCount hquiet.sameCount
  rw [hsnap] at hreturn
  have hday₂ : rt₂.signalsDay = w.runtime.signalsDay :=
    ((hprep.sameCount.trans sameCount_preDecisionEvaluate).trans hquiet₂.sameCount).signalsDay
  have hsnapshot : Counts ⟨rt₃, w.approved⟩ := by
    refine ((hpre.sameCount hquiet₂.sameCount).maybeResetDailyRisk ?_).sameCount
      (sameCount_markToMarket.trans hquiet₃.sameCount)
    rw [hday₂, ← hsame.eventTime]
    exact hreturn
  have hday₃ : rt₃.signalsDay = some (date a.ctx.eventTime) := by
    rw [hquiet₃.signalsDay, sameCount_markToMarket.signalsDay, signalsDay_maybeResetDailyRisk,
      hsame.eventTime]
  rcases runToDecision_of_ok hsnap with ⟨e, rt', hdec, hquiet⟩ |
    ⟨d, rt₄, hdec, hquiet, _, hsame', htime, c, u, hprocess⟩
  · rw [step_eq hdec, step_of_error hdec]
    exact hsnapshot.sameCount hquiet.sameCount
  · rw [step_eq hdec]
    have htime' : d.decision.eventTime = d.ctx.eventTime := htime.trans hsame'.eventTime.symm
    refine Counts.sameCount ?_
      ((sameCount_sameBarExitAndExecute htime').trans (step_of_ok hdec).sameCount)
    refine (hsnapshot.sameCount hquiet.sameCount).countApproved ?_ ?_ fun happroved => ?_
    · rw [hquiet.signalsDay, hday₃, htime]
    · rw [hrisk, hquiet.stateStore]
    · rw [hquiet.decisionEngine]
      exact EngineConfig.signalsToday_lt_of_approved hprocess happroved

theorem counts_start (setup : RuntimeSetup) : Counts ⟨setup.start, []⟩ where
  within day := by
    have hmax := setup.decisionEngine.risk.maxSignalsPerDay_ge
    change (0 : ℤ) ≤ setup.decisionEngine.risk.maxSignalsPerDay
    omega
  first _ := ⟨rfl, rfl⟩
  count day hsome := nomatch hsome

/-- On no date does a run approve more decisions than the daily limit, as long as no cycle comes
back to a date with approved decisions. -/
theorem along_keepsDailyLimit {setup : RuntimeSetup} {calls : List CycleCall}
    (h : Run.Along step NoReturn ⟨setup.start, []⟩ calls) :
    Run.Along step KeepsDailyLimit ⟨setup.start, []⟩ calls :=
  Run.Along.of_inv (I := Counts) (fun _ _ hw hreturn => hw.step hreturn)
    (fun _ _ hw hreturn => (hw.step hreturn).within) (counts_start setup) h

/-- At most one decision a day. -/
def oneADay : RuntimeSetup :=
  { RuntimeSetup.solo .close with
    decisionEngine := { EngineConfig.solo with
      risk := { EngineConfig.solo.risk with
        maxSignalsPerDay := 1, maxSignalsPerDay_ge := le_rfl } } }

theorem along_keepsDailyLimit_oneADay :
    Run.Along step KeepsDailyLimit ⟨oneADay.start, []⟩
      [.flat "BTC" 0 100 .buy, .flat "ETH" 3600000000 10 .buy, .flat "BTC" 86400000000 100 .sell] :=
  along_keepsDailyLimit (by decide +kernel)

/-- A decision on the second day, one on a bar of the day before, and a second one on the second
day. -/
theorem not_keepsDailyLimit_return : ¬ Run.Along step KeepsDailyLimit ⟨oneADay.start, []⟩
    [.flat "BTC" 86400000000 100 .buy, .flat "ETH" 0 10 .buy, .flat "SOL" 86400000000 1 .buy] := by
  rintro ⟨_, _, hthird, _⟩
  have hsecond := hthird 1
  revert hsecond
  decide +kernel

end CountingRuntime

end TradingPlatform
