import TradingPlatform.Runtime.Phases

/-!
# The cap on open positions

The gate of an order counts the positions of the store, not the entries that wait in the queue. The
open positions of a run stay within their limit exactly when every cycle finds room for the entries
it fills.
-/

namespace TradingPlatform

namespace InMemoryStateStore

/-- The number of open positions is within its limit. -/
def WithinCap (s : InMemoryStateStore) : Prop :=
  (s.portfolio.openPositions.length : ℤ) ≤ s.risk.limits.maxOpenPositions

instance (s : InMemoryStateStore) : Decidable s.WithinCap := inferInstanceAs (Decidable (_ ≤ _))

variable {s : InMemoryStateStore} {t : StateTransitionEvent} {ts : List StateTransitionEvent}

/-- Neither a trade nor bookkeeping sets the limits. -/
theorem limits_apply (h : t.IsTrade ∨ t.IsBookkeeping) :
    (s.apply t).risk.limits = s.risk.limits := by
  rcases h with (⟨p, fill, cost, hpay⟩ | ⟨id, fill, pnl, reason, hpay⟩) |
    ⟨updates, hpay, -, hlimits, -⟩ | ⟨prices, hpay⟩
  · rw [apply_positionOpened hpay]
    rfl
  · rw [apply_positionClosed hpay]
    rfl
  · rw [apply_riskUpdated hpay, applyRiskUpdated, hlimits]
    rfl
  · rw [apply_markToMarket hpay]
    rfl

theorem limits_exec (h : ∀ t ∈ ts, t.IsTrade ∨ t.IsBookkeeping) :
    (Run.exec apply s ts).risk.limits = s.risk.limits :=
  Run.exec_frame (fun s : InMemoryStateStore => s.risk.limits) fun t ht _ => limits_apply (h t ht)

theorem length_apply_opening (h : t.IsOpening) :
    (s.apply t).portfolio.openPositions.length = s.portfolio.openPositions.length + 1 := by
  obtain ⟨p, fill, cost, hpay⟩ := h
  rw [apply_positionOpened hpay]
  exact List.length_append

/-- The transition opens nothing, and keeps the limits. -/
def Shrinking (t : StateTransitionEvent) : Prop := ∀ s : InMemoryStateStore,
  (s.apply t).portfolio.openPositions.length ≤ s.portfolio.openPositions.length ∧
    (s.apply t).risk.limits = s.risk.limits

theorem shrinking_closing (h : t.IsClosing) : Shrinking t := by
  intro s
  obtain ⟨id, fill, pnl, reason, hpay⟩ := h
  refine ⟨?_, limits_apply (.inl (.inr ⟨id, fill, pnl, reason, hpay⟩))⟩
  rw [apply_positionClosed hpay]
  exact List.length_filter_le _ _

theorem shrinking_bookkeeping (h : t.IsBookkeeping) : Shrinking t := by
  intro s
  refine ⟨?_, limits_apply (.inr h)⟩
  rcases h with ⟨updates, hpay, _⟩ | ⟨prices, hpay⟩
  · rw [apply_riskUpdated hpay]
    exact le_rfl
  · rw [apply_markToMarket hpay]
    exact (List.length_map _).le

end InMemoryStateStore

namespace PlatformRuntime

open InMemoryStateStore

variable {s : InMemoryStateStore} {ts : List StateTransitionEvent}

theorem withinCap_trailFrom_shrinking (ts : List StateTransitionEvent) (hs : s.WithinCap)
    (hts : ∀ t ∈ ts, Shrinking t) :
    (Run.exec apply s ts).WithinCap ∧ ∀ e ∈ trailFrom s ts, e.2.WithinCap := by
  induction ts generalizing s with
  | nil => exact ⟨hs, fun e he => absurd he List.not_mem_nil⟩
  | cons t ts ih =>
    have happly : (s.apply t).WithinCap := by
      obtain ⟨hle, hlimits⟩ := hts t List.mem_cons_self s
      unfold WithinCap at hs ⊢
      rw [hlimits]
      omega
    obtain ⟨hexec, htrail⟩ := ih happly fun t' ht' => hts t' (List.mem_cons_of_mem _ ht')
    refine ⟨hexec, fun e he => ?_⟩
    rcases List.mem_cons.mp he with rfl | he
    · exact happly
    · exact htrail e he

theorem withinCap_trailFrom_opening (hts : ∀ t ∈ ts, t.IsOpening)
    (hroom : (s.portfolio.openPositions.length + ts.length : ℤ) ≤ s.risk.limits.maxOpenPositions) :
    (Run.exec apply s ts).WithinCap ∧ ∀ e ∈ trailFrom s ts, e.2.WithinCap := by
  induction ts generalizing s with
  | nil => exact ⟨by unfold WithinCap; simpa using hroom, fun e he => absurd he List.not_mem_nil⟩
  | cons t ts ih =>
    have hlen := length_apply_opening (s := s) (hts t List.mem_cons_self)
    have hroom' : ((s.apply t).portfolio.openPositions.length + ts.length : ℤ) ≤
        (s.apply t).risk.limits.maxOpenPositions := by
      rw [limits_apply (.inl (.inl (hts t List.mem_cons_self))), hlen]
      push_cast [List.length_cons] at hroom ⊢
      omega
    obtain ⟨hexec, htrail⟩ := ih (fun t' ht' => hts t' (List.mem_cons_of_mem _ ht')) hroom'
    refine ⟨hexec, fun e he => ?_⟩
    rcases List.mem_cons.mp he with rfl | he
    · change ((s.apply t).portfolio.openPositions.length : ℤ) ≤
        (s.apply t).risk.limits.maxOpenPositions
      omega
    · exact htrail e he

/-- The last state of a trail is the state it leads to. -/
theorem exec_mem_trailFrom (hts : ts ≠ []) : ∃ t, (t, Run.exec apply s ts) ∈ trailFrom s ts := by
  induction ts generalizing s with
  | nil => exact absurd rfl hts
  | cons t ts ih =>
    by_cases hnil : ts = []
    · subst hnil
      exact ⟨t, List.mem_singleton_self _⟩
    · obtain ⟨t', ht'⟩ := ih (s := s.apply t) hnil
      exact ⟨t', List.mem_cons_of_mem _ ht'⟩

theorem length_exec_opening (hts : ∀ t ∈ ts, t.IsOpening) :
    (Run.exec apply s ts).portfolio.openPositions.length =
      s.portfolio.openPositions.length + ts.length := by
  induction ts generalizing s with
  | nil => rfl
  | cons t ts ih =>
    rw [Run.exec_cons, ih fun t' ht' => hts t' (List.mem_cons_of_mem _ ht'),
      length_apply_opening (hts t List.mem_cons_self), List.length_cons]
    omega

/-! ## The cap over a cycle -/

variable {rt r r' rt₁ : PlatformRuntime} {ctx ctx' : CycleCtx} {call : CycleCall}

/-- The store, and every store the run has gone through, is within the cap. -/
def Within (rt : PlatformRuntime) : Prop :=
  rt.stateStore.WithinCap ∧ ∀ e ∈ rt.trail, e.2.WithinCap

theorem Within.applied (h : r.Within) (happlied : Applied ts r r')
    (hts : (Run.exec apply r.stateStore ts).WithinCap ∧
      ∀ e ∈ trailFrom r.stateStore ts, e.2.WithinCap) : r'.Within := by
  refine ⟨happlied.stateStore ▸ hts.1, fun e he => ?_⟩
  rw [happlied.trail, List.mem_append] at he
  exact he.elim (h.2 e) (hts.2 e)

theorem Within.shrinking (h : r.Within) (happlied : Applied ts r r')
    (hts : ∀ t ∈ ts, Shrinking t) : r'.Within :=
  h.applied happlied (withinCap_trailFrom_shrinking _ h.1 hts)

theorem Within.quiet (h : r.Within) (hquiet : Quiet r r') : r'.Within :=
  h.shrinking hquiet.applied_nil fun _ ht => absurd ht List.not_mem_nil

theorem Within.books (h : r.Within) (hbooks : Books r r') : r'.Within := by
  obtain ⟨ts, happlied, hts⟩ := hbooks
  exact h.shrinking happlied fun t ht => shrinking_bookkeeping (hts t ht)

/-- The gate leaves room for the one position an execution opens. -/
theorem Within.sameBarExitAndExecute (h : r.Within) {decision : Decision} :
    (r.sameBarExitAndExecute ctx decision).2.Within := by
  obtain ⟨exits, entry, happlied, hexits, hentry, _⟩ := sameBarExitAndExecute_applied r ctx decision
  obtain ⟨hexec, htrail⟩ := withinCap_trailFrom_shrinking exits h.1
    fun t ht => shrinking_closing (hexits t ht).1
  have hlast : (Run.exec apply (Run.exec apply r.stateStore exits) entry).WithinCap ∧
      ∀ e ∈ trailFrom (Run.exec apply r.stateStore exits) entry, e.2.WithinCap := by
    rcases hentry with rfl | ⟨t, rfl, hopening, _, hlimit⟩
    · exact ⟨hexec, fun e he => absurd he List.not_mem_nil⟩
    · refine withinCap_trailFrom_opening ?_ ?_
      · intro t' ht'
        exact List.mem_singleton.mp ht' ▸ hopening
      · rw [List.length_singleton]
        omega
  refine h.applied happlied ⟨?_, fun e he => ?_⟩
  · rw [Run.exec_append]
    exact hlast.1
  · rw [trailFrom_append, List.mem_append] at he
    exact he.elim (htrail e) (hlast.2 e)

/-- The open positions and the entries a pre-decision pass fills are together within the limit. -/
def HasRoom (rt : PlatformRuntime) (symbol : String) : Prop :=
  (rt.stateStore.portfolio.openPositions.length +
    (rt.pendingEntries.filter (·.symbol = symbol)).length : ℤ) ≤
      rt.stateStore.risk.limits.maxOpenPositions

instance (rt : PlatformRuntime) (symbol : String) : Decidable (rt.HasRoom symbol) :=
  inferInstanceAs (Decidable (_ ≤ _))

theorem within_preDecisionEvaluate_iff (h : r.Within) :
    (r.preDecisionEvaluate ctx).2.Within ↔ r.HasRoom ctx.symbol := by
  obtain ⟨opens, closes, happlied, hlen, hopens, hcloses, _⟩ := preDecisionEvaluate_applied r ctx
  have hopening : ∀ t ∈ opens, t.IsOpening := fun t ht => (hopens t ht).1
  constructor
  · intro hwithin
    -- the state after the last fill has all of them open
    have hfilled : (Run.exec apply r.stateStore opens).WithinCap := by
      by_cases hnil : opens = []
      · rw [hnil]
        exact h.1
      · obtain ⟨t, ht⟩ := exec_mem_trailFrom (s := r.stateStore) hnil
        refine hwithin.2 (t, Run.exec apply r.stateStore opens) ?_
        rw [happlied.trail, trailFrom_append]
        exact List.mem_append_right _ (List.mem_append_left _ ht)
    unfold WithinCap at hfilled
    rw [length_exec_opening hopening,
      limits_exec fun t ht => .inl (.inl (hopening t ht))] at hfilled
    unfold HasRoom
    rw [← hlen]
    exact_mod_cast hfilled
  · intro hroom
    unfold HasRoom at hroom
    rw [← hlen] at hroom
    obtain ⟨hexec, htrail⟩ := withinCap_trailFrom_opening hopening hroom
    obtain ⟨hexec', htrail'⟩ := withinCap_trailFrom_shrinking closes hexec
      fun t ht => shrinking_closing (hcloses t ht).1
    refine h.applied happlied ⟨?_, fun e he => ?_⟩
    · rw [Run.exec_append]
      exact hexec'
    · rw [trailFrom_append, List.mem_append] at he
      exact he.elim (htrail e) (htrail' e)

/-- The states a cycle goes through are within the cap. -/
def KeepsCap (rt : PlatformRuntime) (call : CycleCall) : Prop :=
  ∀ e ∈ (rt.step call).trail, e.2.WithinCap

instance (rt : PlatformRuntime) (call : CycleCall) : Decidable (rt.KeepsCap call) :=
  inferInstanceAs (Decidable (∀ e ∈ (rt.step call).trail, _))

/-- A cycle that gets a bar has room for the entries queued for its symbol. -/
def RoomForQueued (rt : PlatformRuntime) (call : CycleCall) : Prop :=
  match rt.prepareBar call with
  | .ok (ctx, _) => rt.HasRoom ctx.symbol
  | .error _ => True

theorem Prepared.hasRoom_iff (h : Prepared call rt ctx rt₁) {symbol : String} :
    rt₁.HasRoom symbol ↔ rt.HasRoom symbol := by
  unfold HasRoom pendingEntries
  rw [show rt₁.stateStore = rt.stateStore from h.quiet.stateStore,
    show rt₁.executionEngine = rt.executionEngine from h.quiet.executionEngine]

theorem Prepared.within (h : Prepared call rt ctx rt₁) (hrt : rt.Within) : rt₁.Within :=
  have hclock : Within { rt₁ with clock := rt.clock } := hrt.quiet h.quiet
  hclock

theorem Within.step (h : rt.Within) (hroom : rt.RoomForQueued call) : (rt.step call).Within := by
  have hrule := step_rule rt call (I := fun _ r => r.Within)
    (fun _ _ _ hquiet hr => hr.quiet hquiet)
    (fun ctx rt₁ hprep => ?_) (fun _ r hr => hr.books (books_maybeResetDailyRisk r _ _))
    (fun _ r hr => hr.books (books_markToMarket r _))
    (fun _ _ _ _ r _ hr => hr.books (books_countApproved r _ _ _))
    (fun _ _ _ _ _ _ hr => hr.sameBarExitAndExecute)
  · rcases hrule with ⟨_, _, hsame⟩ | ⟨_, _, _, hwithin⟩
    · rwa [hsame]
    · exact hwithin
  · rw [within_preDecisionEvaluate_iff (hprep.within h), hprep.hasRoom_iff]
    simpa only [RoomForQueued, hprep.prepared] using hroom

theorem Applied.mem_trail {e : StateTransitionEvent × InMemoryStateStore}
    (happlied : Applied ts r r') (he : e ∈ r.trail) : e ∈ r'.trail := by
  rw [happlied.trail]
  exact List.mem_append_left _ he

theorem Books.mem_trail {e : StateTransitionEvent × InMemoryStateStore} (hbooks : Books r r')
    (he : e ∈ r.trail) : e ∈ r'.trail := by
  obtain ⟨ts, happlied, _⟩ := hbooks
  exact happlied.mem_trail he

/-- The trail of a cycle contains the trail of its pre-decision pass. -/
theorem trail_preDecisionEvaluate_subset (hprep : Prepared call rt ctx rt₁) :
    ∀ e ∈ (rt₁.preDecisionEvaluate ctx).2.trail, e ∈ (rt.step call).trail := by
  have hrule := step_rule rt call
    (I := fun ctx r => ∀ rt₁, Prepared call rt ctx rt₁ →
      ∀ e ∈ (rt₁.preDecisionEvaluate ctx).2.trail, e ∈ r.trail)
    (fun _ _ _ hquiet hr rt₁ h e he => hquiet.applied_nil.mem_trail (hr rt₁ h e he))
    (fun ctx rt₁ h rt₂ h' e he => ?_)
    (fun _ r hr rt₁ h e he => (books_maybeResetDailyRisk r _ _).mem_trail (hr rt₁ h e he))
    (fun _ r hr rt₁ h e he => (books_markToMarket r _).mem_trail (hr rt₁ h e he))
    (fun _ _ _ _ r _ hr rt₁ h e he => (books_countApproved r _ _ _).mem_trail (hr rt₁ h e he))
    (fun _ ctx' decision r _ _ hr rt₁ h e he => ?_)
  · rcases hrule with ⟨e, herr, _⟩ | ⟨ctx', rt₁', hprep', hsubset⟩
    · cases hprep.prepared.symm.trans herr
    · cases hprep.prepared.symm.trans hprep'.prepared
      exact hsubset rt₁ hprep
  · cases h.prepared.symm.trans h'.prepared
    exact he
  · obtain ⟨_, _, happlied, _⟩ := sameBarExitAndExecute_applied r ctx' decision
    exact happlied.mem_trail (hr rt₁ h e he)

/-- A store that transitions have led to is on the trail, unless nothing was applied. -/
theorem Within.of_trail (h : r.Within) (happlied : Applied ts r r')
    (htrail : ∀ e ∈ r'.trail, e.2.WithinCap) : r'.Within := by
  refine ⟨?_, htrail⟩
  rw [happlied.stateStore]
  by_cases hnil : ts = []
  · rw [hnil]
    exact h.1
  · obtain ⟨t, ht⟩ := exec_mem_trailFrom (s := r.stateStore) hnil
    refine htrail (t, Run.exec apply r.stateStore ts) ?_
    rw [happlied.trail]
    exact List.mem_append_right _ ht

theorem keepsCap_iff (h : rt.Within) (call : CycleCall) :
    rt.KeepsCap call ↔ rt.RoomForQueued call := by
  refine ⟨fun hkeeps => ?_, fun hroom => (h.step hroom).2⟩
  unfold RoomForQueued
  cases hprep : rt.prepareBar call with
  | error e => trivial
  | ok prepared =>
    obtain ⟨ctx, rt₁⟩ := prepared
    have hprepared := prepareBar_ok hprep
    obtain ⟨opens, closes, happlied, _⟩ := preDecisionEvaluate_applied rt₁ ctx
    have hwithin : (rt₁.preDecisionEvaluate ctx).2.Within :=
      (hprepared.within h).of_trail happlied fun e he =>
        hkeeps e (trail_preDecisionEvaluate_subset hprepared e he)
    exact hprepared.hasRoom_iff.mp
      ((within_preDecisionEvaluate_iff (hprepared.within h)).mp hwithin)

/-- The open positions of a run stay within their limit exactly when the limit is not negative and
every cycle that gets a bar has room for the entries it fills. -/
theorem along_keepsCap_iff (setup : RuntimeSetup) (calls : List CycleCall) :
    (setup.start.stateStore.WithinCap ∧ Run.Along step KeepsCap setup.start calls) ↔
      (0 ≤ setup.limits.maxOpenPositions ∧ Run.Along step RoomForQueued setup.start calls) := by
  refine and_congr_right_iff.mpr fun hstart => ?_
  refine Run.along_iff (I := Within) (D := fun _ _ => True) ?_
    (fun _ call h _ => keepsCap_iff h call) ⟨hstart, fun e he => absurd he List.not_mem_nil⟩
    Run.along_true
  exact fun _ call h _ hroom => h.step hroom

/-- With room for one position, a buy of each of two symbols waits for the next open: both are
filled. -/
theorem not_keepsCap_queued : ¬ Run.Along step KeepsCap
    { RuntimeSetup.solo .nextOpen with
      limits := { defaultLimits with maxOpenPositions := 1 } }.start
    [.flat "BTC" 0 100 .buy, .flat "ETH" 0 10 .buy, .flat "BTC" 3600 100 .hold,
      .flat "ETH" 3600 10 .hold] := by
  decide +kernel

end PlatformRuntime

end TradingPlatform
