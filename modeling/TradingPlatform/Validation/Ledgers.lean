import TradingPlatform.Runtime.Idle
import TradingPlatform.Runtime.Reports
import TradingPlatform.Validation.Cash
import TradingPlatform.Validation.TradeLedgers

/-!
# The ledgers of a validation run

A validation run ends with three accounts of the same money: the equity of the store, the initial
capital plus the results of the closed trades, and the last value of the curve marked to market. The
last two always agree when the run ends flat. The store's equity agrees with them exactly when the
last mark of the run has recorded unrealised results that add up to the entry fees charged by then.
-/

namespace TradingPlatform

open InMemoryStateStore

/-! ## What the marks leave in the equity -/

/-- What is noted of the marks of a run: the entry fees charged, and the unrealised results recorded
on the open positions at the last mark less the entry fees charged by then. -/
structure MarkAudit where
  entryFees : ℚ := 0
  surplus : ℚ := 0
  deriving DecidableEq, Repr

/-- Note a transition and the store it has left. -/
def MarkAudit.record (m : MarkAudit) (e : StateTransitionEvent × InMemoryStateStore) : MarkAudit :=
  match e.1.payload with
  | .positionOpened _ fill _ => { m with entryFees := m.entryFees + fill.fee }
  | .markToMarket _ => { m with
      surplus := (e.2.portfolio.openPositions.map (·.unrealizedPnl)).sum - m.entryFees }
  | .positionClosed .. | .portfolioUpdated _ | .riskUpdated _ => m

/-- The marks of a run, as its trail shows them. -/
def markAudit (trail : PlatformRuntime.Trail) : MarkAudit := trail.foldl MarkAudit.record {}

/-- The equity is the initial cash and the realised result, and what the last mark has put on top.
-/
structure Surplus (initialCash : ℚ) (s : InMemoryStateStore) (m : MarkAudit) : Prop where
  audited : ∃ a, Audited initialCash s a ∧ a.entryFees = m.entryFees
  equity : s.portfolio.equity = initialCash + s.portfolio.realizedPnl + m.surplus

namespace Surplus

variable {initialCash : ℚ} {s : InMemoryStateStore} {m : MarkAudit} {t : StateTransitionEvent}

theorem init (initialCash : ℚ) (limits : RiskLimits) (now : ℤ) :
    Surplus initialCash (InMemoryStateStore.init initialCash limits now) {} where
  audited := ⟨{}, Audited.init initialCash limits now, rfl⟩
  equity := by simp [InMemoryStateStore.init]

/-- After a mark the equity is the cash, the capital locked and the unrealised results. -/
theorem equity_applyMarkToMarket {a : Audit} {eventTime : ℤ} {prices : List (String × ℚ)}
    (h : Audited initialCash (s.applyMarkToMarket eventTime prices) a) (hcarried : a.carried = 0) :
    (s.applyMarkToMarket eventTime prices).portfolio.equity =
      initialCash + (s.applyMarkToMarket eventTime prices).portfolio.realizedPnl +
        (((s.applyMarkToMarket eventTime prices).portfolio.openPositions.map
          (·.unrealizedPnl)).sum - a.entryFees) := by
  have hworth : ∀ positions : List PositionState, (positions.map (·.worth)).sum =
      (positions.map (·.notional)).sum + (positions.map (·.unrealizedPnl)).sum := fun positions =>
    List.sum_map_add
  rw [h.equity, h.cash, hworth, hcarried]
  ring

theorem step (h : Surplus initialCash s m) (ht : Produced s t.payload) :
    Surplus initialCash (s.apply t) (m.record (t, s.apply t)) := by
  obtain ⟨⟨a, haudited, hfees⟩, hequity⟩ := h
  have hstep := haudited.step ht
  cases hpay : t.payload with
  | positionOpened p fill cost =>
    refine ⟨⟨_, hstep, ?_⟩, ?_⟩
    · simp [hpay, Audit.record, MarkAudit.record, hfees]
    · rw [apply_positionOpened hpay]
      simpa [MarkAudit.record, hpay, applyPositionOpened] using hequity
  | positionClosed id fill pnl reason =>
    refine ⟨⟨_, hstep, ?_⟩, ?_⟩
    · simp [hpay, Audit.record, MarkAudit.record, hfees]
    · rw [apply_positionClosed hpay]
      simp only [MarkAudit.record, hpay, applyPositionClosed, hequity]
      ring
  | markToMarket prices =>
    have hmark : (a.record s (.markToMarket prices)).entryFees = m.entryFees := hfees
    rw [hpay, apply_markToMarket hpay] at hstep
    rw [apply_markToMarket hpay]
    simp only [MarkAudit.record, hpay]
    refine ⟨⟨_, hstep, hmark⟩, ?_⟩
    rw [← hmark]
    exact equity_applyMarkToMarket hstep rfl
  | riskUpdated u =>
    refine ⟨⟨_, hstep, ?_⟩, ?_⟩
    · simp [hpay, Audit.record, MarkAudit.record, hfees]
    · rw [apply_riskUpdated hpay]
      simpa [MarkAudit.record, hpay, applyRiskUpdated] using hequity
  | portfolioUpdated u =>
    rw [hpay] at ht
    cases ht

theorem recordAll {ts : List StateTransitionEvent} (h : Surplus initialCash s m)
    (hts : s.ProducedFrom ts) :
    Surplus initialCash (Run.exec InMemoryStateStore.apply s ts)
      ((PlatformRuntime.trailFrom s ts).foldl MarkAudit.record m) := by
  induction ts generalizing s m with
  | nil => exact h
  | cons t ts ih => exact ih (h.step hts.1) hts.2

end Surplus

/-! ## The store's account of the trades -/

section Trades

variable {s : InMemoryStateStore} {t : StateTransitionEvent} {ts : List StateTransitionEvent}

theorem madeTrades_cons :
    madeTrades (t :: ts) = t.payload.trade?.toList ++ madeTrades ts := by
  cases h : t.payload.trade? <;> simp [madeTrades, h]

theorem realizedPnl_apply (ht : Produced s t.payload) : (s.apply t).portfolio.realizedPnl =
    s.portfolio.realizedPnl + realisedPnl t.payload.trade?.toList := by
  cases hpay : t.payload with
  | positionOpened p fill cost =>
    rw [apply_positionOpened hpay]
    simp [applyPositionOpened, TransitionPayload.trade?, realisedPnl, Trade.pnl]
  | positionClosed id fill pnl reason =>
    rw [apply_positionClosed hpay]
    simp [applyPositionClosed, TransitionPayload.trade?, realisedPnl, Trade.pnl]
  | markToMarket prices =>
    rw [apply_markToMarket hpay]
    exact (add_zero _).symm
  | riskUpdated u =>
    rw [apply_riskUpdated hpay]
    exact (add_zero _).symm
  | portfolioUpdated u =>
    rw [hpay] at ht
    cases ht

theorem openIds_apply (ht : Produced s t.payload) :
    (s.apply t).openIds = t.payload.trade?.toList.foldl Trade.openIds s.openIds := by
  cases hpay : t.payload with
  | positionOpened p fill cost =>
    rw [apply_positionOpened hpay, openIds_applyPositionOpened]
    rfl
  | positionClosed id fill pnl reason =>
    rw [apply_positionClosed hpay, openIds_applyPositionClosed]
    rfl
  | markToMarket prices =>
    rw [apply_markToMarket hpay, openIds_applyMarkToMarket]
    rfl
  | riskUpdated u =>
    rw [apply_riskUpdated hpay]
    rfl
  | portfolioUpdated u =>
    rw [hpay] at ht
    cases ht

theorem realizedPnl_exec (h : s.ProducedFrom ts) :
    (Run.exec InMemoryStateStore.apply s ts).portfolio.realizedPnl =
      s.portfolio.realizedPnl + realisedPnl (madeTrades ts) := by
  induction ts generalizing s with
  | nil => exact (add_zero _).symm
  | cons t ts ih =>
    rw [Run.exec_cons, ih h.2, realizedPnl_apply h.1, madeTrades_cons, realisedPnl_append,
      add_assoc]

theorem openIds_exec (h : s.ProducedFrom ts) :
    (Run.exec InMemoryStateStore.apply s ts).openIds =
      (madeTrades ts).foldl Trade.openIds s.openIds := by
  induction ts generalizing s with
  | nil => rfl
  | cons t ts ih =>
    rw [Run.exec_cons, ih h.2, openIds_apply h.1, madeTrades_cons, List.foldl_append]

end Trades

/-! ## The events of a run -/

namespace PlatformRuntime

variable {rt rt' : PlatformRuntime} {t t' : ℤ}

/-- The published events are in order, none is later than `t`, and they report the transitions
applied so far. -/
structure Logged (t : ℤ) (rt : PlatformRuntime) : Prop where
  trades : reportedTrades rt.published = madeTrades rt.transitions
  sorted : rt.published.Pairwise fun a b => a.eventTime ≤ b.eventTime
  times : ∀ e ∈ rt.published, e.eventTime ≤ t

theorem Logged.append (h : Logged t rt) (hle : t ≤ t') {events : List EventEnvelope}
    {ts : List StateTransitionEvent} (hpublished : rt'.published = rt.published ++ events)
    (hts : rt'.transitions = rt.transitions ++ ts) (hreports : Reports t' events ts) :
    Logged t' rt' where
  trades := by
    rw [hpublished, hts, reportedTrades_append, madeTrades_append, h.trades, hreports.trades]
  sorted := by
    rw [hpublished]
    refine List.pairwise_append.mpr ⟨h.sorted, ?_, fun a ha b hb => ?_⟩
    · refine List.pairwise_of_forall_mem_list fun a ha b hb => ?_
      rw [hreports.times a ha, hreports.times b hb]
    · rw [hreports.times b hb]
      exact (h.times a ha).trans hle
  times e he := by
    rw [hpublished] at he
    rcases List.mem_append.mp he with he | he
    · exact (h.times e he).trans hle
    · rw [hreports.times e he]

/-- A liquidation publishes the closes it makes. -/
theorem liquidate_reports {call : LiquidationCall}
    (hrun : rt.liquidateOpenPositions call = .ok rt') :
    ∃ events ts, rt'.published = rt.published ++ events ∧
      rt'.transitions = rt.transitions ++ ts ∧ Reports call.lastBarTime events ts := by
  rcases liquidateOpenPositions_ok hrun with ⟨rfl, _⟩ | ⟨engine, bar, c, _, _, htime, _, rfl⟩
  · exact ⟨[], [], (List.append_nil _).symm, (List.append_nil _).symm, .nil⟩
  · let pass := SimulatedExecutionEngine.closeAll bar.close c engine
      rt.stateStore.portfolio.openPositions (rt.uuid + 1)
    let drawn : PlatformRuntime := { rt with uuid := pass.2, executionEngine := some pass.1.engine }
    have hpublished : (drawn.applyTransitions pass.1.transitions).published = rt.published :=
      (published_applyTransitions drawn pass.1.transitions).1
    have hreported : Reports c.eventTime pass.1.events pass.1.transitions :=
      SimulatedExecutionEngine.closeAll_reported bar.close c _ engine (rt.uuid + 1)
    exact ⟨pass.1.events, pass.1.transitions, congrArg (· ++ pass.1.events) hpublished,
      (applied_applyTransitions drawn pass.1.transitions).transitions, htime ▸ hreported⟩

theorem Logged.liquidate (h : Logged t rt) {call : LiquidationCall} (ht : t = call.lastBarTime)
    (hrun : rt.liquidateOpenPositions call = .ok rt') :
    Logged t rt' ∧ ∀ e ∈ rt.published, e ∈ rt'.published := by
  obtain ⟨events, ts, hpublished, hts, hreports⟩ := liquidate_reports hrun
  refine ⟨h.append le_rfl hpublished hts (ht ▸ hreports), fun e he => ?_⟩
  rw [hpublished]
  exact List.mem_append_left _ he

end PlatformRuntime

/-! ## The bars of a run -/

namespace ValidationHarness

variable {h : ValidationHarness} {rt rt' : PlatformRuntime} {times : List ℤ}
  {bars : List (ℤ × ℕ)} {cycles : List CycleResult}

/-- The bars of a run are those of its range, without the first ones. -/
theorem barTimes_eq_ok : h.barTimes = .ok times ↔ ∃ all,
    h.dataProvider.timestamps h.config.symbol h.config.timeframe h.config.start
      h.config.endTime = .ok all ∧ h.minLookbackBars < all.length ∧
      times = all.drop h.minLookbackBars := by
  unfold barTimes
  constructor
  · intro hbars
    obtain ⟨all, hall, hbars⟩ := Except.bind_eq_ok.mp hbars
    by_cases hshort : all.length ≤ h.minLookbackBars
    · simp only [hshort, if_true] at hbars
      cases hbars
    · simp only [hshort, if_false] at hbars
      cases hbars
      exact ⟨all, hall, not_le.mp hshort, rfl⟩
  · rintro ⟨all, hall, hlong, rfl⟩
    rw [hall]
    exact if_neg (not_le.mpr hlong)

/-- The bars of a run are rows of the file, in order, and there is at least one. -/
theorem barTimes_ok (hbars : h.barTimes = .ok times) :
    times ≠ [] ∧ times.Pairwise (· ≤ ·) ∧
      ∀ t ∈ times, ∃ c ∈ h.dataProvider.df, c.timestamp = t := by
  obtain ⟨all, hall, hlong, rfl⟩ := barTimes_eq_ok.mp hbars
  obtain ⟨hsorted, hrows⟩ := CsvDataProvider.timestamps_ok hall
  exact ⟨fun hnil => not_le.mpr hlong (List.drop_eq_nil_iff.mp hnil),
    hsorted.sublist (List.drop_sublist ..), fun t ht => hrows t (List.mem_of_mem_drop ht)⟩

theorem runBars_cons_ok {barTime : ℤ} {i : ℕ}
    (hrun : h.runBars ((barTime, i) :: bars) rt = .ok (cycles, rt')) : ∃ result rt₁ rest,
    (setClock barTime rt).runCycle (h.cycleCall i barTime) = (.ok result, rt₁) ∧
      h.runBars bars rt₁ = .ok (rest, rt') ∧ cycles = result :: rest := by
  unfold runBars at hrun
  cases hcycle : (setClock barTime rt).runCycle (h.cycleCall i barTime) with
  | mk outcome rt₁ =>
  cases outcome with
  | error e =>
    simp only [hcycle] at hrun
    cases hrun
  | ok result =>
    cases hrest : h.runBars bars rt₁ with
    | error e =>
      simp only [hcycle, hrest] at hrun
      cases hrun
    | ok rest =>
      obtain ⟨rest, rt₂⟩ := rest
      simp only [hcycle, hrest] at hrun
      cases hrun
      exact ⟨result, rt₁, rest, rfl, hrest, rfl⟩

/-- What a cycle on a bar of the file turns from `I` at an earlier time into `J` at the time of the
bar, a run over bars in order turns into `J` at the last bar. -/
theorem runBars_rule {I J : ℤ → PlatformRuntime → Prop}
    (hcycle : ∀ t rt barTime i result rt', t ≤ barTime →
      (∃ c ∈ h.dataProvider.df, c.timestamp = barTime) → I t rt →
      (setClock barTime rt).runCycle (h.cycleCall i barTime) = (.ok result, rt') → J barTime rt')
    (hJ : ∀ t rt, J t rt → I t rt) {t : ℤ} (hbars : bars ≠ [])
    (hrows : ∀ b ∈ bars, ∃ c ∈ h.dataProvider.df, c.timestamp = b.1)
    (hsorted : bars.Pairwise fun a b => a.1 ≤ b.1) (hle : ∀ b ∈ bars, t ≤ b.1) (hI : I t rt)
    (hrun : h.runBars bars rt = .ok (cycles, rt')) :
    J ((bars.map Prod.fst).getLastD t) rt' := by
  induction bars generalizing t rt cycles with
  | nil => exact absurd rfl hbars
  | cons b rest ih =>
    obtain ⟨barTime, i⟩ := b
    obtain ⟨result, rt₁, cycles', hfirst, hrest, -⟩ := runBars_cons_ok hrun
    have hJ₁ : J barTime rt₁ := hcycle t rt barTime i result rt₁ (hle _ List.mem_cons_self)
      (hrows _ List.mem_cons_self) hI hfirst
    obtain ⟨hhead, htail⟩ := List.pairwise_cons.mp hsorted
    rw [List.map_cons, List.getLastD_cons]
    by_cases hnil : rest = []
    · subst hnil
      cases hrest
      exact hJ₁
    · exact ih hnil (fun b hb => hrows b (List.mem_cons_of_mem _ hb)) htail hhead (hJ _ _ hJ₁) hrest

end ValidationHarness

/-! ## Runs without capital -/

/-- Without cash no quantity is bought. -/
theorem SimulatedExecutionEngine.positionSize_of_cash_nonpos (engine : SimulatedExecutionEngine)
    {snapshot : StateSnapshot} (h : snapshot.portfolio.cash ≤ 0)
    (entry stopLoss sizeMultiplier : ℚ) :
    engine.positionSize snapshot entry stopLoss sizeMultiplier = 0 := by
  unfold positionSize
  split
  · rfl
  split
  · rfl
  · next baseQty _ =>
    have hcap : min (min (baseQty * max sizeMultiplier 0) 0)
        (max 0 (snapshot.risk.limits.maxExposurePct - snapshot.risk.openExposurePct) / 100 *
          snapshot.portfolio.equity / entry) ≤ 0 := (min_le_left _ _).trans (min_le_right _ _)
    simp only [not_lt.mpr h, if_false, not_lt.mpr hcap]

namespace PlatformRuntime

variable {rt rt' : PlatformRuntime}

/-- Nothing is open or queued, nothing has been traded, and there is no cash to trade with. -/
structure Broke (rt : PlatformRuntime) : Prop extends Idle [] rt where
  cash : rt.stateStore.portfolio.cash ≤ 0

theorem Broke.quiet (h : Broke rt) (hquiet : Quiet rt rt') : Broke rt' :=
  ⟨h.toIdle.quiet hquiet, hquiet.stateStore ▸ h.cash⟩

theorem Broke.books (h : Broke rt) (hbooks : Books rt rt')
    (hengine : rt'.executionEngine = rt.executionEngine) : Broke rt' := by
  obtain ⟨hidle, hcash, -⟩ := h.toIdle.books hbooks hengine
  exact ⟨hidle, hcash ▸ h.cash⟩

theorem Broke.preDecisionEvaluate (h : Broke rt) {ctx : CycleCtx} :
    Broke (rt.preDecisionEvaluate ctx).2 := by
  obtain ⟨hidle, hstore⟩ := h.toIdle.preDecisionEvaluate ctx
  exact ⟨hidle, hstore ▸ h.cash⟩

theorem Broke.executeDecision (h : Broke rt) {ctx : CycleCtx} {engine : SimulatedExecutionEngine}
    (hengine : rt.executionEngine = some engine) (decision : Decision) :
    Broke (rt.executeDecision ctx engine decision).2 := by
  rcases executeDecision_spec rt ctx engine decision with hquiet |
    ⟨snapshot, u, u', pass, hle, hportfolio, _, hrun, hrt⟩
  · exact h.quiet hquiet
  rcases (SimulatedExecutionEngine.execute_cases hrun).2 pass rfl with ⟨hnone, hsame⟩ |
    ⟨signal, intent, _, _, _, _, _, _, hpos, hquantity, _⟩
  · rw [hrt, hnone, hsame, ← hengine]
    exact ⟨⟨h.flat, h.queue, h.made⟩, h.cash⟩
  · rw [hquantity, SimulatedExecutionEngine.positionSize_of_cash_nonpos engine
      (hportfolio ▸ h.cash)] at hpos
    exact absurd hpos (lt_irrefl 0)

theorem Broke.sameBarExitAndExecute (h : Broke rt) {ctx : CycleCtx} (decision : Decision) :
    Broke (rt.sameBarExitAndExecute ctx decision).2 := by
  cases hengine : rt.executionEngine with
  | none => rwa [sameBarExitAndExecute_idle (.inr hengine)]
  | some engine =>
    cases happroved : decision.isApproved with
    | false => rwa [sameBarExitAndExecute_idle (.inl happroved)]
    | true =>
      obtain ⟨engine', hengine', hrun⟩ := sameBarExitAndExecute_eq ctx happroved hengine
      have hidle := sameBarExit_idle ctx engine decision.finalSignal (.inr h.flat)
      rw [hrun]
      rw [hidle] at hengine' ⊢
      exact h.executeDecision hengine' decision

/-- A cycle without cash trades nothing. -/
theorem Broke.step (h : Broke rt) (call : CycleCall) : Broke (rt.step call) := by
  have hrule := step_rule rt call (I := fun _ r => Broke r)
    (fun _ _ _ hquiet hr => hr.quiet hquiet) ?_ ?_ ?_ ?_ ?_
  · rcases hrule with ⟨_, _, hsame⟩ | ⟨_, _, _, hstep⟩
    · rwa [hsame]
    · exact hstep
  · intro ctx rt₁ hprep
    obtain ⟨hidle, hstore⟩ := h.toIdle.prepared hprep
    exact (show Broke rt₁ from ⟨hidle, hstore ▸ h.cash⟩).preDecisionEvaluate
  · intro ctx r hr
    exact hr.books (books_maybeResetDailyRisk r _ _) executionEngine_maybeResetDailyRisk
  · intro ctx r hr
    exact hr.books (books_markToMarket r ctx) executionEngine_markToMarket
  · intro ctx ctx' decision snapshot r _ hr
    exact hr.books (books_countApproved r ctx' decision snapshot) executionEngine_countApproved
  · intro ctx ctx' decision r _ _ hr
    exact hr.sameBarExitAndExecute decision

end PlatformRuntime

/-! ## The three ledgers -/

namespace ValidationHarness

variable {h : ValidationHarness} {rt rt' : PlatformRuntime} {s₀ : InMemoryStateStore} {t : ℤ}
  {times : List ℤ}

/-- A runtime under way in a run, at time `t`, with the full event stream. -/
structure Followed (s₀ : InMemoryStateStore) (t : ℤ) (rt : PlatformRuntime) : Prop where
  traded : PlatformRuntime.Traded s₀ rt
  emits : rt.emitEvents = true
  logged : PlatformRuntime.Logged t rt

/-- A run in progress has published a candle. -/
def HasCandle (rt : PlatformRuntime) : Prop := ∃ e ∈ rt.published, e.eventType = .candleReceived

theorem nowEventTime_setClock (barTime : ℤ) (rt : PlatformRuntime) (now : ℤ) :
    (setClock barTime rt).clock.nowEventTime now = barTime := by
  cases hc : rt.clock <;>
    simp [setClock, hc, Clock.setEventTime, Clock.setProcessingTime, Clock.nowEventTime]

/-- The cycle of a bar runs on the bar of that time. -/
theorem eventTime_of_prepared {barTime : ℤ} {i : ℕ} {ctx : CycleCtx} {rt₁ : PlatformRuntime}
    (hrow : ∃ c ∈ h.dataProvider.df, c.timestamp = barTime)
    (hprep : PlatformRuntime.Prepared (h.cycleCall i barTime) (setClock barTime rt) ctx rt₁) :
    ctx.eventTime = barTime := by
  have hlatest := hprep.latest
  rw [nowEventTime_setClock] at hlatest
  obtain ⟨c, hc, htime⟩ := CsvDataProvider.getLast?_getLatest (by omega) hlatest hrow
  have hbar := hprep.last.symm.trans hc
  rw [← htime, ← Option.some.inj hbar]

theorem Followed.cycle {barTime : ℤ} {i : ℕ} {result : CycleResult} (hf : Followed s₀ t rt)
    (hle : t ≤ barTime) (hrow : ∃ c ∈ h.dataProvider.df, c.timestamp = barTime)
    (hrun : (setClock barTime rt).runCycle (h.cycleCall i barTime) = (.ok result, rt')) :
    Followed s₀ barTime rt' ∧ HasCandle rt' := by
  have htraded : PlatformRuntime.Traded s₀ (setClock barTime rt) :=
    ⟨hf.traded.stateStore, hf.traded.trail, hf.traded.produced, hf.traded.coupled⟩
  have hstep : rt' = (setClock barTime rt).step (h.cycleCall i barTime) := by
    rw [PlatformRuntime.step, hrun]
  obtain ⟨ctx, rt₁, ts, hprep, hts, hreports, hpublished, hemits, hcandle⟩ :=
    PlatformRuntime.runCycle_reports hrun
  rw [eventTime_of_prepared hrow hprep] at hreports
  refine ⟨⟨hstep ▸ htraded.step _, hemits.trans hf.emits,
    hf.logged.append hle hpublished hts hreports⟩, ?_⟩
  obtain ⟨e, he, htype⟩ := hcandle hf.emits
  exact ⟨e, hpublished ▸ List.mem_append_right _ he, htype⟩

/-- What `run` does. -/
theorem run_ok {result : ValidationResult} (hrun : h.run rt = .ok (result, rt')) :
    ∃ times cycles rt₁, h.barTimes = .ok times ∧
      h.runBars times.zipIdx { rt with published := [] } = .ok (cycles, rt₁) ∧
      rt₁.liquidateOpenPositions (h.liquidationCall (times.getLastD 0)) = .ok rt' ∧
      result.events = rt'.published ∧
      computeOutcomeMetrics rt'.published h.config.initialCapital
        (some rt'.stateStore.portfolio.equity) = .ok result.outcomeMetrics := by
  obtain ⟨times, htimes, hrun⟩ := Except.bind_eq_ok.mp hrun
  obtain ⟨⟨cycles, rt₁⟩, hbars, hrun⟩ := Except.bind_eq_ok.mp hrun
  obtain ⟨rt₂, hliquidate, hrun⟩ := Except.bind_eq_ok.mp hrun
  obtain ⟨outcome, houtcome, hrun⟩ := Except.bind_eq_ok.mp hrun
  cases hrun
  exact ⟨times, cycles, rt₁, htimes, hbars, hliquidate, rfl, houtcome⟩

/-- A run from a fresh runtime, followed to its end. -/
theorem drive_followed {setup : RuntimeSetup} (hemit : setup.emitEvents = true)
    {cycles : List CycleResult} {rt₁ : PlatformRuntime} (htimes : h.barTimes = .ok times)
    (hbars : h.runBars times.zipIdx { setup.start with published := [] } = .ok (cycles, rt₁))
    (hliquidate : rt₁.liquidateOpenPositions (h.liquidationCall (times.getLastD 0)) = .ok rt') :
    ∃ t, Followed setup.start.stateStore t rt' ∧ HasCandle rt' := by
  obtain ⟨hne, hsorted, hrows⟩ := barTimes_ok htimes
  have hmap : times.zipIdx.map Prod.fst = times := List.zipIdx_map_fst 0 times
  have hmem : ∀ b ∈ times.zipIdx, b.1 ∈ times := fun b hb =>
    hmap ▸ List.mem_map_of_mem hb
  obtain ⟨first, rest, rfl⟩ := List.exists_cons_of_ne_nil hne
  have hstart : Followed setup.start.stateStore first { setup.start with published := [] } :=
    ⟨.start setup, hemit, rfl, .nil, fun e he => absurd he List.not_mem_nil⟩
  have hlast : Followed setup.start.stateStore ((first :: rest).getLastD first) rt₁ ∧
      HasCandle rt₁ := by
    have hrule := runBars_rule (h := h) (I := Followed setup.start.stateStore)
      (J := fun t rt => Followed setup.start.stateStore t rt ∧ HasCandle rt)
      (fun t rt barTime i result rt' hle hrow hf hcycle => hf.cycle hle hrow hcycle)
      (fun t rt hJ => hJ.1) (t := first) (by simp) (fun b hb => hrows b.1 (hmem b hb))
      (List.pairwise_map.mp (hmap.symm ▸ hsorted)) (fun b hb => ?_) hstart hbars
    · rwa [hmap] at hrule
    · rcases List.mem_cons.mp (hmem b hb) with heq | hb
      · exact heq.ge
      · exact (List.pairwise_cons.mp hsorted).1 b.1 hb
  obtain ⟨⟨htraded, hemits, hlogged⟩, e, he, htype⟩ := hlast
  have hend : (first :: rest).getLastD first = (first :: rest).getLastD 0 := by
    rw [List.getLastD_cons, List.getLastD_cons]
  obtain ⟨hlogged, hkept⟩ := hlogged.liquidate hend hliquidate
  have hemits' : rt'.emitEvents = true := by
    rcases PlatformRuntime.liquidateOpenPositions_ok hliquidate with ⟨rfl, _⟩ |
      ⟨engine, bar, c, _, _, _, _, rfl⟩
    · exact hemits
    · exact (PlatformRuntime.published_applyTransitions _ _).2.trans hemits
  exact ⟨_, ⟨htraded.liquidate hliquidate, hemits', hlogged⟩, e, hkept e he, htype⟩

/-- A run that returns has been followed to its end. -/
theorem run_followed {setup : RuntimeSetup} (hemit : setup.emitEvents = true)
    {result : ValidationResult} (hrun : h.run setup.start = .ok (result, rt')) :
    ∃ t, Followed setup.start.stateStore t rt' ∧ HasCandle rt' := by
  obtain ⟨times, cycles, rt₁, htimes, hbars, hliquidate, _⟩ := run_ok hrun
  exact drive_followed hemit htimes hbars hliquidate

/-- What the metrics of a run say of its ledgers. -/
theorem computeOutcomeMetrics_ok {events : List EventEnvelope} {initialCapital equity : ℚ}
    {m : OutcomeMetrics}
    (hmetrics : computeOutcomeMetrics events initialCapital (some equity) = .ok m) :
    m.totalPnl = realisedPnl (reportedTrades events) ∧
    m.equityCurve.getLast? = some (initialCapital + realisedPnl (reportedTrades events)) ∧
    m.returnPct = (if 0 < initialCapital then (equity - initialCapital) / initialCapital * 100
      else 0) ∧
    ∀ last, (computeMarkToMarketSeries events initialCapital).1.getLast? = some last →
      initialCapital ≠ 0 ∧ ∃ mtm, m.mtm = some mtm ∧ mtm.equityCurve.getLast? = some last ∧
        mtm.returnPct = (last - initialCapital) / initialCapital * 100 := by
  obtain ⟨mtm, hmtm, hmetrics⟩ := Except.bind_eq_ok.mp hmetrics
  cases hmetrics
  refine ⟨sum_pnl_positionClosed events, ?_, rfl, fun last hlast => ?_⟩
  · rw [← sum_pnl_positionClosed]
    exact getLast?_closedTradeCurve initialCapital _
  · simp only [markedOutcome, hlast] at hmtm
    split at hmtm
    · cases hmtm
    · next hcapital =>
      cases hmtm
      exact ⟨hcapital, _, rfl, hlast, rfl⟩

/-- The three ledgers of a run and the returns read off them agree. -/
structure LedgersAgree (h : ValidationHarness) (result : ValidationResult) (rt : PlatformRuntime) :
    Prop where
  store : rt.stateStore.portfolio.equity = h.config.initialCapital +
    ((eventsOfType .positionClosed result.events).map (·.pnl)).sum
  closedTrades : result.outcomeMetrics.equityCurve.getLast? = some (h.config.initialCapital +
    ((eventsOfType .positionClosed result.events).map (·.pnl)).sum)
  marked : ∃ mtm, result.outcomeMetrics.mtm = some mtm ∧
    mtm.equityCurve.getLast? = some (h.config.initialCapital +
      ((eventsOfType .positionClosed result.events).map (·.pnl)).sum) ∧
    mtm.returnPct = result.outcomeMetrics.totalPnl / h.config.initialCapital * 100
  returns : result.outcomeMetrics.returnPct =
    result.outcomeMetrics.totalPnl / h.config.initialCapital * 100

theorem runBars_broke {bars : List (ℤ × ℕ)} {cycles : List CycleResult}
    (hbroke : PlatformRuntime.Broke rt) (hrun : h.runBars bars rt = .ok (cycles, rt')) :
    PlatformRuntime.Broke rt' := by
  induction bars generalizing rt cycles with
  | nil =>
    cases hrun
    exact hbroke
  | cons b rest ih =>
    obtain ⟨barTime, i⟩ := b
    obtain ⟨result, rt₁, cycles', hcycle, hrest, -⟩ := runBars_cons_ok hrun
    have hclock : PlatformRuntime.Broke (setClock barTime rt) :=
      ⟨⟨hbroke.flat, hbroke.queue, hbroke.made⟩, hbroke.cash⟩
    have hstep : rt₁ = (setClock barTime rt).step (h.cycleCall i barTime) := by
      rw [PlatformRuntime.step, hcycle]
    exact ih (hstep ▸ hclock.step _) hrest

/-- A run that starts without capital trades nothing. -/
theorem madeTrades_of_no_capital {setup : RuntimeSetup} (hcash : setup.initialCash ≤ 0)
    {result : ValidationResult} (hrun : h.run setup.start = .ok (result, rt')) :
    madeTrades rt'.transitions = [] := by
  obtain ⟨times, cycles, rt₁, _, hbars, hliquidate, _⟩ := run_ok hrun
  have hbroke : PlatformRuntime.Broke rt₁ :=
    runBars_broke ⟨⟨rfl, PlatformRuntime.pendingEntries_start setup, rfl⟩, hcash⟩ hbars
  rcases PlatformRuntime.liquidateOpenPositions_ok hliquidate with ⟨rfl, _⟩ |
    ⟨engine, bar, c, _, _, _, _, rfl⟩
  · exact hbroke.made
  · have hnone : (SimulatedExecutionEngine.closeAll bar.close c engine
        rt₁.stateStore.portfolio.openPositions (rt₁.uuid + 1)).1.transitions = [] := by
      rw [hbroke.flat]
      rfl
    simp only [hnone]
    exact hbroke.made

/-- The three ledgers of a run that ends flat agree exactly when the unrealised results recorded at
its last mark add up to the entry fees charged by then. -/
theorem run_ledgersAgree_iff (h : ValidationHarness) (setup : RuntimeSetup)
    (hcapital : setup.initialCash = h.config.initialCapital) (hemit : setup.emitEvents = true)
    {result : ValidationResult} {rt : PlatformRuntime}
    (hrun : h.run setup.start = .ok (result, rt))
    (hflat : rt.stateStore.portfolio.openPositions = []) :
    h.LedgersAgree result rt ↔ (markAudit rt.trail).surplus = 0 := by
  obtain ⟨_, _, _, _, _, _, hevents, hmetrics⟩ := run_ok hrun
  obtain ⟨t, ⟨htraded, _, hlogged⟩, hcandle⟩ := run_followed hemit hrun
  let total := realisedPnl (reportedTrades rt.published)
  -- The store's equity is the closed trades' ledger plus what the last mark has put on top.
  have hequity : rt.stateStore.portfolio.equity =
      h.config.initialCapital + total + (markAudit rt.trail).surplus := by
    have hsurplus : Surplus setup.initialCash
        (Run.exec InMemoryStateStore.apply setup.start.stateStore rt.transitions) _ :=
      (Surplus.init setup.initialCash setup.limits setup.startedAt).recordAll htraded.produced
    have hrealised := realizedPnl_exec htraded.produced
    rw [← htraded.stateStore, ← hlogged.trades] at hrealised
    have hfinal := hsurplus.equity
    rw [← htraded.stateStore, hrealised, show setup.start.stateStore.portfolio.realizedPnl = 0
      from rfl, zero_add] at hfinal
    rw [markAudit, htraded.trail, ← hcapital]
    exact hfinal
  have hopen : (reportedTrades rt.published).foldl Trade.openIds [] = [] := by
    have hids := openIds_exec htraded.produced
    rw [← htraded.stateStore, ← hlogged.trades, openIds, hflat] at hids
    exact hids.symm
  obtain ⟨htotal, hcurve, hreturn, hmarked⟩ := computeOutcomeMetrics_ok hmetrics
  obtain ⟨hne, mtm, hmtm, hmtmCurve, hmtmReturn⟩ := hmarked _
    (getLast?_computeMarkToMarketSeries h.config.initialCapital hlogged.sorted hcandle hopen)
  have hpnls : ((eventsOfType .positionClosed result.events).map (·.pnl)).sum = total := by
    rw [hevents, sum_pnl_positionClosed]
  constructor
  · intro hagree
    have hstore := hagree.store
    rw [hequity, hpnls] at hstore
    linarith
  · intro hsurplus
    rw [hsurplus, add_zero] at hequity
    refine ⟨by rw [hpnls, hequity], by rw [hpnls, hcurve],
      ⟨mtm, hmtm, by rw [hpnls, hmtmCurve], ?_⟩, ?_⟩
    · rw [hmtmReturn, htotal, add_sub_cancel_left]
    · rw [hreturn, htotal]
      split
      · rw [hequity, add_sub_cancel_left]
      · next hbroke =>
        have htrades := madeTrades_of_no_capital (hcapital.trans_le (not_lt.mp hbroke)) hrun
        rw [hlogged.trades, htrades]
        simp [realisedPnl]

/-! ## A price that rises before the end -/

/-- Four bars, the last a point higher than the others. -/
def risingFile : CsvDataProvider where
  symbol := "BTC/USDT"
  timeframe := "1h"
  df := [.flat 0 100, .flat 3600000000 100, .flat 7200000000 100, .flat 10800000000 101]
  sorted := by simp [Candle.flat]

/-- A run over the last two bars, with a provider that buys on both. -/
def rising : ValidationHarness where
  dataProvider := risingFile
  config := { symbol := "BTC/USDT", timeframe := "1h", start := 0, endTime := 10800000000 }
  minLookbackBars := 2
  isoformat _ := ""
  collaborators i :=
    .serving (if i = 0 then .flat 7200000000 100 else .flat 10800000000 101) .buy

/-- Fills at the close, without costs, with every event. -/
def risingSetup : RuntimeSetup :=
  { RuntimeSetup.solo .close with emitEvents := true, clock := .simulated 0 0 }

/-- The run ends flat, with 10 realised and an equity of 10020. -/
theorem run_rising : ∃ result rt, rising.run risingSetup.start = .ok (result, rt) ∧
    rt.stateStore.portfolio.openPositions = [] ∧ rt.stateStore.portfolio.equity = 10020 ∧
    ((eventsOfType .positionClosed result.events).map (·.pnl)).sum = 10 := by
  have hvalues : (rising.run risingSetup.start).map (fun p =>
      (p.2.stateStore.portfolio.openPositions, p.2.stateStore.portfolio.equity,
        ((eventsOfType .positionClosed p.1.events).map (·.pnl)).sum)) = .ok ([], 10020, 10) := by
    decide +kernel
  obtain ⟨⟨result, rt⟩, hrun, hvalues⟩ := Except.map_eq_ok.mp hvalues
  obtain ⟨hflat, hvalues⟩ := Prod.mk.inj hvalues
  obtain ⟨hequity, hpnl⟩ := Prod.mk.inj hvalues
  exact ⟨result, rt, hrun, hflat, hequity, hpnl⟩

/-- The gain of the first position is in the equity twice, from the mark and from the close. -/
theorem not_run_ledgersAgree : risingSetup.initialCash = rising.config.initialCapital ∧
    risingSetup.emitEvents = true ∧ ∃ result rt, rising.run risingSetup.start = .ok (result, rt) ∧
      rt.stateStore.portfolio.openPositions = [] ∧ ¬ rising.LedgersAgree result rt := by
  obtain ⟨result, rt, hrun, hflat, hequity, hpnl⟩ := run_rising
  refine ⟨rfl, rfl, result, rt, hrun, hflat, fun hagree => ?_⟩
  have hstore := hagree.store
  rw [hequity, hpnl] at hstore
  norm_num [rising] at hstore

theorem run_ledgersAgree_iff_rising : ∃ result rt,
    rising.run risingSetup.start = .ok (result, rt) ∧
      (rising.LedgersAgree result rt ↔ (markAudit rt.trail).surplus = 0) := by
  obtain ⟨result, rt, hrun, hflat, _, _⟩ := run_rising
  exact ⟨result, rt, hrun, run_ledgersAgree_iff rising risingSetup rfl rfl hrun hflat⟩

end ValidationHarness

end TradingPlatform
