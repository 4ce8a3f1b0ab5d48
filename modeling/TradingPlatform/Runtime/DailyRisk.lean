import TradingPlatform.Runtime.Phases

/-!
# The profit and the opening equity of a day

The exits of a bar are applied before the daily reset of that bar. The reset clears what they have
realised and takes the equity they have left as the opening equity, so the daily figures are those
of the date exactly when the exits before the reset have realised nothing in sum.
-/

namespace TradingPlatform

/-- The profit a transition realises. -/
def StateTransitionEvent.realized (t : StateTransitionEvent) : ℚ :=
  match t.payload with
  | .positionClosed _ _ pnl _ => pnl
  | _ => 0

/-! ## Figures of a date -/

namespace PlatformRuntime.Trail

/-- The profit of the positions closed on a date. -/
def closedOn (h : Trail) (day : ℤ) : ℚ :=
  ((h.filter fun e => date e.1.eventTime = day).map (·.1.realized)).sum

/-- The equity the transitions lead to, from the initial equity `e₀`. -/
def lastEquity (e₀ : ℚ) (h : Trail) : ℚ := (h.getLast?.map (·.2.portfolio.equity)).getD e₀

/-- The equity before the first transition of a date; the last equity when there is none. -/
def equityBefore (e₀ : ℚ) (h : Trail) (day : ℤ) : ℚ :=
  lastEquity e₀ (h.takeWhile fun e => date e.1.eventTime ≠ day)

variable {e₀ : ℚ} {day : ℤ} {h : Trail} {s : InMemoryStateStore} {t : StateTransitionEvent}
  {ts : List StateTransitionEvent}

theorem closedOn_nil : closedOn [] day = 0 := rfl

theorem equityBefore_nil : equityBefore e₀ [] day = e₀ := rfl

theorem closedOn_eq_zero (hday : ∀ e ∈ h, date e.1.eventTime ≠ day) : closedOn h day = 0 := by
  have hnone : h.filter (fun e => date e.1.eventTime = day) = [] :=
    List.filter_eq_nil_iff.mpr fun e he => by simpa using hday e he
  rw [closedOn, hnone]
  rfl

theorem equityBefore_of_forall_ne (hday : ∀ e ∈ h, date e.1.eventTime ≠ day) :
    equityBefore e₀ h day = lastEquity e₀ h := by
  have hall : h.takeWhile (fun e => date e.1.eventTime ≠ day) = h :=
    List.takeWhile_eq_self_iff.mpr fun e he => by simpa using hday e he
  rw [equityBefore, hall]

theorem closedOn_snoc (ht : date t.eventTime = day) :
    closedOn (h ++ [(t, s)]) day = closedOn h day + t.realized := by
  simp [closedOn, ht]

/-- What happens on a date does not change the equity before it. -/
theorem equityBefore_snoc (ht : date t.eventTime = day) :
    equityBefore e₀ (h ++ [(t, s)]) day = equityBefore e₀ h day := by
  have htake : (h ++ [(t, s)]).takeWhile (fun e => date e.1.eventTime ≠ day) =
      h.takeWhile fun e => date e.1.eventTime ≠ day := by
    induction h with
    | nil => simp [ht]
    | cons e h ih => by_cases he : date e.1.eventTime = day <;> simp_all
  rw [equityBefore, equityBefore, htake]

theorem lastEquity_snoc : lastEquity e₀ (h ++ [(t, s)]) = s.portfolio.equity := by
  simp [lastEquity]

end PlatformRuntime.Trail

namespace InMemoryStateStore

variable {t : StateTransitionEvent}

/-- The daily profit follows the transition, and the opening equity stays. -/
def KeepsDaily (t : StateTransitionEvent) : Prop := ∀ s : InMemoryStateStore,
  (s.apply t).risk.dailyPnl = s.risk.dailyPnl + t.realized ∧
    (s.apply t).risk.dailyStartEquity = s.risk.dailyStartEquity

theorem keepsDaily_trade (h : t.IsTrade) : KeepsDaily t := by
  intro s
  rcases h with ⟨p, fill, cost, hpay⟩ | ⟨id, fill, pnl, reason, hpay⟩
  · rw [apply_positionOpened hpay, StateTransitionEvent.realized, hpay]
    exact ⟨(add_zero _).symm, rfl⟩
  · rw [apply_positionClosed hpay, StateTransitionEvent.realized, hpay]
    exact ⟨rfl, rfl⟩

theorem keepsDaily_markToMarket {prices : List (String × ℚ)}
    (h : t.payload = .markToMarket prices) :
    KeepsDaily t := by
  intro s
  rw [apply_markToMarket h, StateTransitionEvent.realized, h]
  exact ⟨(add_zero _).symm, rfl⟩

theorem keepsDaily_signalsToday {n : ℤ} (h : t.payload = .riskUpdated { signalsToday := some n }) :
    KeepsDaily t := by
  intro s
  rw [apply_riskUpdated h, StateTransitionEvent.realized, h]
  exact ⟨(add_zero _).symm, rfl⟩

/-- A trade moves the equity by the profit it realises. -/
theorem equity_apply_trade {s : InMemoryStateStore} (h : t.IsTrade) :
    (s.apply t).portfolio.equity = s.portfolio.equity + t.realized := by
  rcases h with ⟨p, fill, cost, hpay⟩ | ⟨id, fill, pnl, reason, hpay⟩
  · rw [apply_positionOpened hpay, StateTransitionEvent.realized, hpay]
    exact (add_zero _).symm
  · rw [apply_positionClosed hpay, StateTransitionEvent.realized, hpay]
    rfl

end InMemoryStateStore

/-! ## The figures of the risk state -/

namespace PlatformRuntime

open InMemoryStateStore

/-- The trail ends in the store and has no date later than `day`. -/
structure UpTo (e₀ : ℚ) (day : ℤ) (s : InMemoryStateStore) (h : Trail) : Prop where
  equity : h.lastEquity e₀ = s.portfolio.equity
  dates : ∀ e ∈ h, date e.1.eventTime ≤ day

/-- The opening equity of the risk state is too large by the profit that the daily profit misses. -/
structure Known (e₀ : ℚ) (day : ℤ) (s : InMemoryStateStore) (h : Trail) : Prop
    extends UpTo e₀ day s h where
  known : s.risk.dailyStartEquity - h.equityBefore e₀ day = h.closedOn day - s.risk.dailyPnl

/-- The equity has moved on the date by the profit of the closed positions only. -/
structure Unknown (e₀ : ℚ) (day : ℤ) (s : InMemoryStateStore) (h : Trail) : Prop
    extends UpTo e₀ day s h where
  unknown : s.portfolio.equity = h.equityBefore e₀ day + h.closedOn day

variable {e₀ : ℚ} {day : ℤ} {s : InMemoryStateStore} {h : Trail} {t : StateTransitionEvent}

theorem UpTo.snoc (hup : UpTo e₀ day s h) (ht : date t.eventTime = day) :
    UpTo e₀ day (s.apply t) (h ++ [(t, s.apply t)]) where
  equity := Trail.lastEquity_snoc
  dates e he := by
    rcases List.mem_append.mp he with he | he
    · exact hup.dates e he
    · obtain rfl := List.mem_singleton.mp he
      exact ht.le

theorem Known.snoc (hknown : Known e₀ day s h) (ht : date t.eventTime = day)
    (hkeeps : KeepsDaily t) : Known e₀ day (s.apply t) (h ++ [(t, s.apply t)]) where
  toUpTo := hknown.toUpTo.snoc ht
  known := by
    obtain ⟨hpnl, hstart⟩ := hkeeps s
    rw [Trail.equityBefore_snoc ht, Trail.closedOn_snoc ht, hpnl, hstart, hknown.known]
    ring

theorem Unknown.snoc (hunknown : Unknown e₀ day s h) (ht : date t.eventTime = day)
    (htrade : t.IsTrade) : Unknown e₀ day (s.apply t) (h ++ [(t, s.apply t)]) where
  toUpTo := hunknown.toUpTo.snoc ht
  unknown := by
    rw [Trail.equityBefore_snoc ht, Trail.closedOn_snoc ht, equity_apply_trade htrade,
      hunknown.unknown]
    ring

/-- On a later date nothing has happened yet. -/
theorem UpTo.later {day' : ℤ} (hup : UpTo e₀ day s h) (hlt : day < day') : Unknown e₀ day' s h where
  equity := hup.equity
  dates e he := (hup.dates e he).trans hlt.le
  unknown := by
    have hne : ∀ e ∈ h, date e.1.eventTime ≠ day' := fun e he =>
      ((hup.dates e he).trans_lt hlt).ne
    rw [Trail.equityBefore_of_forall_ne hne, Trail.closedOn_eq_zero hne, hup.equity, add_zero]

/-- A reset takes the present equity as the opening equity. -/
theorem Unknown.reset (hunknown : Unknown e₀ day s h) (hreset : IsReset s) : Known e₀ day s h where
  toUpTo := hunknown.toUpTo
  known := by
    obtain ⟨_, hpnl, _, hstart⟩ := hreset
    rw [hpnl, hstart, hunknown.unknown]
    ring

theorem Unknown.reset_snoc (hunknown : Unknown e₀ day s h) (ht : date t.eventTime = day)
    (hpay : t.payload = .riskUpdated (dailyReset s.portfolio.equity)) :
    Known e₀ day (s.apply t) (h ++ [(t, s.apply t)]) where
  toUpTo := hunknown.toUpTo.snoc ht
  known := by
    have hrealized : t.realized = 0 := by rw [StateTransitionEvent.realized, hpay]
    rw [Trail.equityBefore_snoc ht, Trail.closedOn_snoc ht, hrealized, apply_riskUpdated hpay]
    change s.portfolio.equity - h.equityBefore e₀ day = h.closedOn day + 0 - 0
    rw [hunknown.unknown]
    ring

/-! ## The figures over a cycle -/

variable {r r' rt₁ : PlatformRuntime} {ctx : CycleCtx} {call : CycleCall}

/-- Before the first date is seen nothing has happened; a later date is known once it is seen. -/
structure Tracked (e₀ : ℚ) (day : ℤ) (r : PlatformRuntime) : Prop where
  seen : ∀ d, r.signalsDay = some d → d ≤ day
  first : r.signalsDay = none → r.trail = [] ∧ r.pendingEntries = [] ∧
    r.stateStore.portfolio.openPositions = [] ∧ r.stateStore.risk.dailyPnl = 0 ∧
    r.stateStore.risk.dailyStartEquity = e₀
  known : r.signalsDay = some day → Known e₀ day r.stateStore r.trail
  unknown : r.signalsDay ≠ some day → Unknown e₀ day r.stateStore r.trail

theorem Tracked.upTo (hr : Tracked e₀ day r) : UpTo e₀ day r.stateStore r.trail := by
  by_cases hday : r.signalsDay = some day
  · exact (hr.known hday).toUpTo
  · exact (hr.unknown hday).toUpTo

theorem Tracked.later {day' : ℤ} (hr : Tracked e₀ day r) (hle : day ≤ day') :
    Tracked e₀ day' r := by
  rcases hle.eq_or_lt with rfl | hlt
  · exact hr
  · refine ⟨fun d hd => (hr.seen d hd).trans hle, hr.first, fun hday => ?_,
      fun _ => hr.upTo.later hlt⟩
    exact absurd (hr.seen day' hday) (not_le.mpr hlt)

theorem Tracked.congr (hr : Tracked e₀ day r) (hday : r'.signalsDay = r.signalsDay)
    (htrail : r'.trail = r.trail) (hpending : r'.pendingEntries = r.pendingEntries)
    (hstore : r'.stateStore = r.stateStore) : Tracked e₀ day r' := by
  obtain ⟨hseen, hfirst, hknown, hunknown⟩ := hr
  constructor <;> rw [hday]
  · exact hseen
  · rw [htrail, hpending, hstore]
    exact hfirst
  · rw [htrail, hstore]
    exact hknown
  · rw [htrail, hstore]
    exact hunknown

theorem Quiet.trail (hquiet : Quiet r r') : r'.trail = r.trail := by
  rw [hquiet.applied_nil.trail]
  exact List.append_nil _

theorem Tracked.quiet (hr : Tracked e₀ day r) (hquiet : Quiet r r') : Tracked e₀ day r' :=
  hr.congr hquiet.signalsDay hquiet.trail hquiet.pendingEntries hquiet.stateStore

theorem Tracked.prepared (hr : Tracked e₀ day r) (hprep : Prepared call r ctx rt₁) :
    Tracked e₀ day rt₁ :=
  (hr.quiet hprep.quiet).congr rfl rfl rfl rfl

/-- On a date that has been seen. -/
theorem Tracked.applied {ts : List StateTransitionEvent} (hr : Tracked e₀ day r)
    (hday : r.signalsDay = some day) (happlied : Applied ts r r')
    (hday' : r'.signalsDay = r.signalsDay)
    (hts : ∀ t ∈ ts, date t.eventTime = day ∧ KeepsDaily t) : Tracked e₀ day r' where
  seen d hd := hr.seen d (hday' ▸ hd)
  first hnone := absurd (hday.symm.trans (hday'.symm.trans hnone)) (Option.some_ne_none _)
  known _ := happlied.trail_rule
    (fun t ht _ _ hknown => hknown.snoc (hts t ht).1 (hts t ht).2) (hr.known hday)
  unknown hne := absurd (hday'.trans hday) hne

theorem Tracked.preDecisionEvaluate (hr : Tracked e₀ (date ctx.eventTime) r) :
    Tracked e₀ (date ctx.eventTime) (r.preDecisionEvaluate ctx).2 := by
  obtain ⟨ts, happlied, hts, hday, hnil⟩ := preDecisionEvaluate_trades r ctx
  by_cases hseen : r.signalsDay = some (date ctx.eventTime)
  · refine hr.applied hseen happlied hday fun t ht => ?_
    exact ⟨congrArg date (hts t ht).2, keepsDaily_trade (hts t ht).1⟩
  · refine ⟨fun d hd => hr.seen d (hday ▸ hd), fun hnone => ?_, fun h => absurd (hday ▸ h) hseen,
      fun _ => ?_⟩
    · obtain ⟨htrail, hpending, hflat, hpnl, hstart⟩ := hr.first (hday ▸ hnone)
      have hts : ts = [] := hnil hpending hflat
      rw [pendingEntries_preDecisionEvaluate, happlied.trail, happlied.stateStore, hts, htrail,
        hpending]
      exact ⟨rfl, rfl, hflat, hpnl, hstart⟩
    · exact happlied.trail_rule
        (fun t ht _ _ hunknown => hunknown.snoc (congrArg date (hts t ht).2) (hts t ht).1)
        (hr.unknown hseen)

theorem Tracked.maybeResetDailyRisk (cycleId : CorrelationId)
    (hr : Tracked e₀ (date ctx.eventTime) r) :
    Tracked e₀ (date ctx.eventTime) (r.maybeResetDailyRisk ctx.eventTime cycleId) := by
  have hday := signalsDay_maybeResetDailyRisk r ctx.eventTime cycleId
  refine ⟨fun d hd => ?_, fun hnone => absurd (hday.symm.trans hnone) (Option.some_ne_none _),
    fun _ => ?_, fun hne => absurd hday hne⟩
  · exact (Option.some.inj (hday.symm.trans hd)).ge
  cases hseen : r.signalsDay with
  | none =>
    obtain ⟨htrail, _, _, hpnl, hstart⟩ := hr.first hseen
    rw [maybeResetDailyRisk_of_none hseen]
    refine ⟨hr.upTo, ?_⟩
    change r.stateStore.risk.dailyStartEquity - r.trail.equityBefore e₀ _ =
      r.trail.closedOn _ - r.stateStore.risk.dailyPnl
    rw [htrail, hpnl, hstart, Trail.equityBefore_nil, Trail.closedOn_nil, sub_self, sub_self]
  | some seen =>
    by_cases hsame : date ctx.eventTime = seen
    · rw [maybeResetDailyRisk_of_same (hsame ▸ hseen)]
      exact hr.known (hsame ▸ hseen)
    · have hunknown : Unknown e₀ (date ctx.eventTime) r.stateStore r.trail :=
        hr.unknown fun h => hsame (Option.some.inj (hseen.symm.trans h)).symm
      rcases maybeResetDailyRisk_of_new cycleId hseen hsame with ⟨hreset, hkeep⟩ | hnew
      · rw [hkeep]
        exact hunknown.reset hreset
      · have happlied := applied_applyNew { r with signalsDay := some (date ctx.eventTime) }
          (.riskUpdated (dailyReset r.stateStore.portfolio.equity)) ctx.eventTime cycleId
        rw [hnew, happlied.stateStore, happlied.trail]
        exact hunknown.reset_snoc
          (t := ⟨r.uuid, .riskUpdated (dailyReset r.stateStore.portfolio.equity), ctx.eventTime,
            cycleId⟩) rfl rfl

/-- A date starts with no profit. -/
theorem Tracked.dailyPnl_maybeResetDailyRisk (cycleId : CorrelationId)
    (hr : Tracked e₀ (date ctx.eventTime) r) (hne : r.signalsDay ≠ some (date ctx.eventTime)) :
    (r.maybeResetDailyRisk ctx.eventTime cycleId).stateStore.risk.dailyPnl = 0 := by
  cases hseen : r.signalsDay with
  | none =>
    rw [maybeResetDailyRisk_of_none hseen]
    exact (hr.first hseen).2.2.2.1
  | some seen =>
    have hother : date ctx.eventTime ≠ seen := fun h => hne (h ▸ hseen)
    rcases maybeResetDailyRisk_of_new cycleId hseen hother with ⟨hreset, hkeep⟩ | hnew
    · rw [hkeep]
      exact hreset.2.1
    · rw [hnew]
      rfl

/-- Marking is a transition without profit at the time of the bar. -/
theorem markToMarket_applied (r : PlatformRuntime) (ctx : CycleCtx) : ∃ ts,
    Applied ts r (r.markToMarket ctx) ∧ (r.markToMarket ctx).signalsDay = r.signalsDay ∧
    ∀ t ∈ ts, date t.eventTime = date ctx.eventTime ∧ KeepsDaily t ∧ t.realized = 0 := by
  rcases markToMarket_cases r ctx with h | h <;> rw [h]
  · exact ⟨[], (Quiet.refl r).applied_nil, rfl, fun t ht => absurd ht List.not_mem_nil⟩
  · refine ⟨_, applied_applyNew .., rfl, fun t ht => ?_⟩
    obtain rfl := List.mem_singleton.mp ht
    exact ⟨rfl, keepsDaily_markToMarket rfl, rfl⟩

theorem countApproved_applied (r : PlatformRuntime) (ctx : CycleCtx) (decision : Decision)
    (snapshot : StateSnapshot) : ∃ ts, Applied ts r (r.countApproved ctx decision snapshot) ∧
    (r.countApproved ctx decision snapshot).signalsDay = r.signalsDay ∧
    ∀ t ∈ ts, date t.eventTime = date ctx.eventTime ∧ KeepsDaily t := by
  unfold countApproved
  split
  · refine ⟨_, applied_applyNew .., rfl, fun t ht => ?_⟩
    obtain rfl := List.mem_singleton.mp ht
    exact ⟨rfl, keepsDaily_signalsToday rfl⟩
  · exact ⟨[], (Quiet.refl r).applied_nil, rfl, fun t ht => absurd ht List.not_mem_nil⟩

/-- The daily profit is that of the date. -/
def Exact (day : ℤ) (r : PlatformRuntime) : Prop :=
  r.stateStore.risk.dailyPnl = r.trail.closedOn day

theorem Exact.applied {ts : List StateTransitionEvent} (hr : Exact day r)
    (happlied : Applied ts r r')
    (hts : ∀ t ∈ ts, date t.eventTime = day ∧ KeepsDaily t) : Exact day r' := by
  refine happlied.trail_rule (P := fun s h => s.risk.dailyPnl = h.closedOn day)
    (fun t ht s h hexact => ?_) hr
  rw [Trail.closedOn_snoc (hts t ht).1, ((hts t ht).2 s).1, hexact]

theorem Exact.quiet (hr : Exact day r) (hquiet : Quiet r r') : Exact day r' :=
  hr.applied hquiet.applied_nil fun _ ht => absurd ht List.not_mem_nil

/-- On a date that has been seen, with exact figures. -/
structure ExactOn (e₀ : ℚ) (day : ℤ) (r : PlatformRuntime) : Prop where
  tracked : Tracked e₀ day r
  signalsDay : r.signalsDay = some day
  exact : Exact day r

theorem ExactOn.applied {ts : List StateTransitionEvent} (hr : ExactOn e₀ day r)
    (happlied : Applied ts r r') (hday : r'.signalsDay = r.signalsDay)
    (hts : ∀ t ∈ ts, date t.eventTime = day ∧ KeepsDaily t) : ExactOn e₀ day r' :=
  ⟨hr.tracked.applied hr.signalsDay happlied hday hts, hday.trans hr.signalsDay,
    hr.exact.applied happlied hts⟩

theorem ExactOn.quiet (hr : ExactOn e₀ day r) (hquiet : Quiet r r') : ExactOn e₀ day r' :=
  ⟨hr.tracked.quiet hquiet, hquiet.signalsDay.trans hr.signalsDay, hr.exact.quiet hquiet⟩

/-- Figures that are exact at the snapshot are exact after the cycle. -/
theorem ExactOn.step_of_snapshot {rt rt' : PlatformRuntime} {a : AtSnapshot}
    (hsnap : rt.runToSnapshot call = (.ok a, rt')) (hr : ExactOn e₀ (date a.ctx.eventTime) rt') :
    ExactOn e₀ (date a.ctx.eventTime) (rt.step call) := by
  have hquiet : ∀ r r', Quiet r r' → ExactOn e₀ (date a.ctx.eventTime) r →
      ExactOn e₀ (date a.ctx.eventTime) r' := fun _ _ hquiet hr => hr.quiet hquiet
  refine step_rule_of_snapshot hsnap hquiet hquiet (fun decision r hr => ?_) (fun _ => id)
    (fun ctx decision r hsame htime hr => ?_) hr
  · obtain ⟨ts, happlied, hday, hts⟩ := countApproved_applied r a.ctx decision a.snapshot
    exact hr.applied happlied hday hts
  · obtain ⟨ts, happlied, hts, hday⟩ :=
      sameBarExitAndExecute_trades r ctx (htime.trans hsame.eventTime.symm)
    refine hr.applied happlied hday fun t ht => ⟨?_, keepsDaily_trade (hts t ht).1⟩
    rw [(hts t ht).2, hsame.eventTime]

/-- The figures at the snapshot of a cycle. -/
theorem Tracked.runToSnapshot {rt rt' : PlatformRuntime} {a : AtSnapshot}
    (hrt : Tracked e₀ (date a.ctx.eventTime) rt)
    (hsnap : rt.runToSnapshot call = (.ok a, rt')) :
    Tracked e₀ (date a.ctx.eventTime) rt' ∧ rt'.signalsDay = some (date a.ctx.eventTime) ∧
    (rt.signalsDay = some (date a.ctx.eventTime) → Exact (date a.ctx.eventTime) rt →
      Exact (date a.ctx.eventTime) rt') ∧
    (rt.signalsDay ≠ some (date a.ctx.eventTime) → rt'.stateStore.risk.dailyPnl = 0) := by
  rcases runToSnapshot_cases rt call with ⟨e, _, herr⟩ | ⟨ctx, rt₁, hprep, hcases⟩
  · cases hsnap.symm.trans herr
  rcases hcases with ⟨e, _, herr, _⟩ | ⟨a', rt₂, rt₃, hok, hquiet₂, hquiet₃, hsame, _⟩
  · cases hsnap.symm.trans herr
  cases hsnap.symm.trans hok
  rw [hsame.eventTime] at hrt ⊢
  obtain ⟨pre, hpre, htrades, hday, _⟩ := preDecisionEvaluate_trades rt₁ ctx
  obtain ⟨marks, hmark, hdayMark, hmarks⟩ :=
    markToMarket_applied (rt₂.maybeResetDailyRisk ctx.eventTime ctx.cycleId) ctx
  have hdayReset := signalsDay_maybeResetDailyRisk rt₂ ctx.eventTime ctx.cycleId
  have hday₂ : rt₂.signalsDay = rt.signalsDay :=
    hquiet₂.signalsDay.trans (hday.trans hprep.quiet.signalsDay)
  have hrt₂ : Tracked e₀ (date ctx.eventTime) rt₂ :=
    (hrt.prepared hprep).preDecisionEvaluate.quiet hquiet₂
  have hmarked := (hrt₂.maybeResetDailyRisk ctx.cycleId).applied hdayReset hmark hdayMark
    fun t ht => ⟨(hmarks t ht).1, (hmarks t ht).2.1⟩
  refine ⟨hmarked.quiet hquiet₃, ?_, fun hseen hexact => ?_, fun hne => ?_⟩
  · rw [hquiet₃.signalsDay, hdayMark, hdayReset]
  · have hclock : Exact (date ctx.eventTime) { rt₁ with clock := rt.clock } :=
      hexact.quiet hprep.quiet
    have hexact₁ : Exact (date ctx.eventTime) rt₁ := hclock
    have hexact₂ : Exact (date ctx.eventTime) rt₂ :=
      (hexact₁.applied hpre fun t ht => ⟨congrArg date (htrades t ht).2,
        keepsDaily_trade (htrades t ht).1⟩).quiet hquiet₂
    rw [maybeResetDailyRisk_of_same (hday₂.trans hseen)] at hmark hquiet₃
    exact (hexact₂.applied hmark fun t ht => ⟨(hmarks t ht).1, (hmarks t ht).2.1⟩).quiet hquiet₃
  · have hzero := hrt₂.dailyPnl_maybeResetDailyRisk ctx.cycleId (hday₂ ▸ hne)
    rw [hquiet₃.stateStore]
    refine hmark.trail_rule (P := fun s _ => s.risk.dailyPnl = 0) (fun t ht s _ hs => ?_) hzero
    rw [((hmarks t ht).2.1 s).1, (hmarks t ht).2.2, hs, add_zero]

end PlatformRuntime

/-! ## The figures over a run -/

namespace WatchedRuntime

open PlatformRuntime InMemoryStateStore

/-- The bar of a cycle is not earlier than the bar of the cycle before. -/
def InOrder (w : WatchedRuntime) (call : CycleCall) : Prop :=
  match w.runtime.prepareBar call with
  | .ok (ctx, _) => ∀ last ∈ w.bars.head?, last.2 ≤ ctx.eventTime
  | .error _ => True

instance (w : WatchedRuntime) (call : CycleCall) : Decidable (w.InOrder call) := by
  unfold InOrder
  split <;> infer_instance

/-- At the decision snapshot of a cycle the daily profit is that of the positions closed on the date
of the bar, and the opening equity is the equity before the first transition of that date. -/
def DailyFigures (e₀ : ℚ) (w : WatchedRuntime) (call : CycleCall) : Prop :=
  match w.runtime.runToSnapshot call with
  | (.ok a, rt) =>
    a.snapshot.risk.dailyPnl = rt.trail.closedOn (date a.ctx.eventTime) ∧
      a.snapshot.risk.dailyStartEquity = rt.trail.equityBefore e₀ (date a.ctx.eventTime)
  | (.error _, _) => True

instance (e₀ : ℚ) (w : WatchedRuntime) (call : CycleCall) : Decidable (w.DailyFigures e₀ call) := by
  unfold DailyFigures
  split <;> infer_instance

/-- The positions closed on a date before its first decision have realised nothing in sum. -/
def FlatBeforeReset (w : WatchedRuntime) (call : CycleCall) : Prop :=
  match w.runtime.runToSnapshot call with
  | (.ok a, rt) => w.runtime.signalsDay ≠ some (date a.ctx.eventTime) →
    rt.trail.closedOn (date a.ctx.eventTime) = 0
  | (.error _, _) => True

instance (w : WatchedRuntime) (call : CycleCall) : Decidable (w.FlatBeforeReset call) := by
  unfold FlatBeforeReset
  split <;> infer_instance

/-- From the date of the last bar on, the figures are tracked, and exact on a date that has been
seen. -/
def Follows (e₀ : ℚ) (w : WatchedRuntime) : Prop :=
  ∀ day, (∀ last ∈ w.bars.head?, date last.2 ≤ day) → Tracked e₀ day w.runtime ∧
    (w.runtime.signalsDay = some day → Exact day w.runtime)

variable {e₀ : ℚ} {w : WatchedRuntime} {call : CycleCall} {ctx : CycleCtx}
  {rt₁ rt' : PlatformRuntime}
  {a : AtSnapshot}

theorem Follows.of_inOrder (h : w.Follows e₀) (horder : w.InOrder call)
    (hprep : Prepared call w.runtime ctx rt₁) :
    Tracked e₀ (date ctx.eventTime) w.runtime ∧
      (w.runtime.signalsDay = some (date ctx.eventTime) →
        Exact (date ctx.eventTime) w.runtime) := by
  unfold InOrder at horder
  rw [hprep.prepared] at horder
  exact h _ fun last hlast => date_mono (horder last hlast)

/-- The snapshot of a cycle is that of the store, on the bar the cycle has prepared. -/
theorem snapshot_of_runToSnapshot {rt : PlatformRuntime}
    (hsnap : rt.runToSnapshot call = (.ok a, rt')) : ∃ ctx rt₁, Prepared call rt ctx rt₁ ∧
      a.ctx.eventTime = ctx.eventTime ∧ a.snapshot.risk = rt'.stateStore.risk := by
  rcases runToSnapshot_cases rt call with ⟨e, _, herr⟩ | ⟨ctx, rt₁, hprep, hcases⟩
  · cases hsnap.symm.trans herr
  rcases hcases with ⟨e, _, herr, _⟩ | ⟨a', rt₂, rt₃, hok, _, _, hsame, _, hrisk⟩
  · cases hsnap.symm.trans herr
  · cases hsnap.symm.trans hok
    exact ⟨ctx, rt₁, hprep, hsame.eventTime, hrisk⟩

/-- The figures at the snapshot are exact if one of them is. -/
theorem dailyFigures_iff_exact (htracked : Tracked e₀ (date a.ctx.eventTime) rt')
    (hday : rt'.signalsDay = some (date a.ctx.eventTime))
    (hrisk : a.snapshot.risk = rt'.stateStore.risk) :
    (a.snapshot.risk.dailyPnl = rt'.trail.closedOn (date a.ctx.eventTime) ∧
      a.snapshot.risk.dailyStartEquity = rt'.trail.equityBefore e₀ (date a.ctx.eventTime)) ↔
    Exact (date a.ctx.eventTime) rt' := by
  have hknown := (htracked.known hday).known
  rw [hrisk]
  unfold Exact
  constructor
  · exact fun h => h.1
  · intro hexact
    rw [hexact, sub_self, sub_eq_zero] at hknown
    exact ⟨hexact, hknown⟩

theorem dailyFigures_iff (h : w.Follows e₀) (horder : w.InOrder call) :
    w.DailyFigures e₀ call ↔ w.FlatBeforeReset call := by
  unfold DailyFigures FlatBeforeReset
  cases hsnap : w.runtime.runToSnapshot call with
  | mk outcome rt' =>
  cases outcome with
  | error e => exact Iff.rfl
  | ok a =>
    obtain ⟨ctx, rt₁, hprep, htime, hrisk⟩ := snapshot_of_runToSnapshot hsnap
    obtain ⟨htracked, hexact⟩ := h.of_inOrder horder hprep
    rw [← htime] at htracked hexact
    obtain ⟨htracked', hday, hseen, hnew⟩ := htracked.runToSnapshot hsnap
    have hiff := dailyFigures_iff_exact htracked' hday hrisk
    dsimp only
    rw [hiff]
    constructor
    · intro hex hne
      exact (hex.symm.trans (hnew hne))
    · intro hflat
      by_cases hday' : w.runtime.signalsDay = some (date a.ctx.eventTime)
      · exact hseen hday' (hexact hday')
      · exact (hnew hday').trans (hflat hday').symm

theorem Follows.of_date (day : ℤ) (htracked : Tracked e₀ day w.runtime)
    (hexact : w.runtime.signalsDay = some day → Exact day w.runtime)
    (hlast : ∃ last ∈ w.bars.head?, date last.2 = day) : w.Follows e₀ := by
  intro day' hle
  obtain ⟨last, hmem, hdate⟩ := hlast
  have hday : day ≤ day' := hdate ▸ hle last hmem
  refine ⟨htracked.later hday, fun hseen => ?_⟩
  have hback : day' ≤ day := htracked.seen day' hseen
  obtain rfl := le_antisymm hday hback
  exact hexact hseen

theorem Follows.step (h : w.Follows e₀) (horder : w.InOrder call) (hflat : w.FlatBeforeReset call) :
    (w.step call).Follows e₀ := by
  rcases runToSnapshot_cases w.runtime call with ⟨e, herr, hsnap⟩ | ⟨ctx, rt₁, hprep, hsnap⟩
  · have hsame : w.runtime.step call = w.runtime := step_of_error (runToDecision_of_error hsnap)
    intro day hday
    rw [bars_step_of_error herr] at hday
    change Tracked e₀ day (w.runtime.step call) ∧
      ((w.runtime.step call).signalsDay = some day → Exact day (w.runtime.step call))
    rw [hsame]
    exact h day hday
  have hlast : ∃ last ∈ (w.step call).bars.head?, date last.2 = date ctx.eventTime := by
    rw [bars_step hprep]
    exact ⟨_, rfl, rfl⟩
  obtain ⟨htracked, hexact⟩ := h.of_inOrder horder hprep
  rcases hsnap with ⟨e, rt', hsnap, hquiet⟩ | ⟨a, _, rt', hsnap, _, _, hsame, _, hrisk⟩
  · have hstep : w.runtime.step call = rt' := step_of_error (runToDecision_of_error hsnap)
    refine Follows.of_date (date ctx.eventTime) ?_ ?_ hlast
    · change Tracked e₀ _ (w.runtime.step call)
      rw [hstep]
      exact (htracked.prepared hprep).preDecisionEvaluate.quiet hquiet
    · change (w.runtime.step call).signalsDay = _ → Exact _ (w.runtime.step call)
      rw [hstep]
      intro hseen
      obtain ⟨ts, happlied, hts, hday, _⟩ := preDecisionEvaluate_trades rt₁ ctx
      have hseen' : w.runtime.signalsDay = some (date ctx.eventTime) := by
        rw [← hseen, hquiet.signalsDay, hday]
        exact hprep.quiet.signalsDay.symm
      have hclock : Exact (date ctx.eventTime) { rt₁ with clock := w.runtime.clock } :=
        (hexact hseen').quiet hprep.quiet
      have hexact₁ : Exact (date ctx.eventTime) rt₁ := hclock
      exact (hexact₁.applied happlied fun t ht => ⟨congrArg date (hts t ht).2,
        keepsDaily_trade (hts t ht).1⟩).quiet hquiet
  · rw [← hsame.eventTime] at htracked
    obtain ⟨htracked', hday, _, _⟩ := htracked.runToSnapshot hsnap
    have hfigures := (dailyFigures_iff h horder).mpr hflat
    unfold DailyFigures at hfigures
    rw [hsnap] at hfigures
    have hsnapshot : ExactOn e₀ (date a.ctx.eventTime) rt' :=
      ⟨htracked', hday, (dailyFigures_iff_exact htracked' hday hrisk).mp hfigures⟩
    have hafter := hsnapshot.step_of_snapshot hsnap
    refine Follows.of_date (date a.ctx.eventTime) hafter.tracked (fun _ => hafter.exact) ?_
    rw [hsame.eventTime]
    exact hlast

theorem follows_start (setup : RuntimeSetup) : Follows setup.initialCash ⟨setup.start, []⟩ := by
  intro day _
  have hpending : setup.start.pendingEntries = [] := pendingEntries_start setup
  have hnone : ∀ d, setup.start.signalsDay ≠ some d := fun d => (Option.some_ne_none d).symm
  refine ⟨⟨fun d hd => absurd hd (hnone d), fun _ => ⟨rfl, hpending, rfl, rfl, rfl⟩,
    fun hd => absurd hd (hnone day), fun _ => ⟨⟨rfl, fun e he => absurd he List.not_mem_nil⟩, ?_⟩⟩,
    fun hd => absurd hd (hnone day)⟩
  exact (add_zero _).symm

/-- Over bars in order, the daily figures of every decision snapshot are those of its date exactly
when the positions closed on a date before its first decision realise nothing in sum. -/
theorem along_dailyFigures_iff {setup : RuntimeSetup} {calls : List CycleCall}
    (horder : Run.Along step InOrder ⟨setup.start, []⟩ calls) :
    Run.Along step (DailyFigures setup.initialCash) ⟨setup.start, []⟩ calls ↔
      Run.Along step FlatBeforeReset ⟨setup.start, []⟩ calls :=
  Run.along_iff (fun _ _ h hin hflat => h.step hin hflat) (fun _ _ h hin => dailyFigures_iff h hin)
    (follows_start setup) horder

/-- A position of the first day is stopped out on the first bar of the second. -/
def overnightStop : List CycleCall :=
  [.flat "BTC" 0 100 .buy, .flat "BTC" 86400000000 90 .hold]

/-- The loss is not in the daily profit of the second day. -/
theorem not_dailyFigures_overnightStop :
    Run.Along step InOrder ⟨(RuntimeSetup.solo .close).start, []⟩ overnightStop ∧
    ¬ Run.Along step (DailyFigures 10000) ⟨(RuntimeSetup.solo .close).start, []⟩ overnightStop := by
  decide +kernel

theorem along_dailyFigures_iff_overnightStop :
    Run.Along step (DailyFigures (RuntimeSetup.solo .close).initialCash)
      ⟨(RuntimeSetup.solo .close).start, []⟩ overnightStop ↔
    Run.Along step FlatBeforeReset ⟨(RuntimeSetup.solo .close).start, []⟩ overnightStop :=
  along_dailyFigures_iff (by decide +kernel)

end WatchedRuntime

end TradingPlatform
