import TradingPlatform.State.Store
import TradingPlatform.Lib.Keyed
import TradingPlatform.Lib.Run

/-!
# The audit of a run of transitions

The handlers keep cash, equity and exposure by three different incremental rules. `Audit` is what an
outside bookkeeper notes while a run of transitions is applied: the entry fees charged, the exposure
each open position added when it was opened, and the amount `carried` by which the equity has
departed from cash plus the value of the open positions since the last mark. `Audited` relates a
store to its audit, and `Audited.step` carries it over every transition the runtime and the
simulated engine produce (`Produced`).
-/

namespace TradingPlatform

/-- The value of an open position: the capital it locks and its unrealised result. -/
def PositionState.worth (p : PositionState) : ℚ := p.notional + p.unrealizedPnl

namespace InMemoryStateStore

variable {s : InMemoryStateStore}

def openIds (s : InMemoryStateStore) : List ℕ := s.portfolio.openPositions.map (·.positionId)

/-- The transitions the runtime and the simulated engine produce in state `s`: a position is opened
under a new id and costs its notional plus the entry fee, and only an open position is closed, for
its result at the fill price less the exit fee. -/
inductive Produced (s : InMemoryStateStore) : TransitionPayload → Prop
  | positionOpened {p : PositionState} {fill : Fill} (fresh : p.positionId ∉ s.openIds)
      (unmarked : p.unrealizedPnl = 0) :
      Produced s (.positionOpened p fill (p.notional + fill.fee))
  | positionClosed {p : PositionState} {fill : Fill} {reason : ExitReason}
      (isOpen : p ∈ s.portfolio.openPositions) :
      Produced s (.positionClosed p.positionId fill (p.grossPnl fill.price - fill.fee) reason)
  | riskUpdated {u : RiskUpdate} (exposure : u.openExposurePct = none) :
      Produced s (.riskUpdated u)
  | markToMarket {prices : List (String × ℚ)} : Produced s (.markToMarket prices)

/-! ## Opening a position -/

theorem openIds_applyPositionOpened {p : PositionState} {eventTime : ℤ} {cost : ℚ} :
    (s.applyPositionOpened eventTime p cost).openIds = s.openIds ++ [p.positionId] :=
  List.map_append

/-! ## Closing an open position -/

section Closed

variable {p : PositionState} {eventTime : ℤ} {pnl : ℚ}

theorem openPositions_applyPositionClosed {id : ℕ} :
    (s.applyPositionClosed eventTime id pnl).portfolio.openPositions =
      Keyed.remove (·.positionId) id s.portfolio.openPositions := rfl

theorem openIds_applyPositionClosed {id : ℕ} :
    (s.applyPositionClosed eventTime id pnl).openIds = s.openIds.filter fun k => decide (k ≠ id) :=
  Keyed.map_key_remove

theorem cash_applyPositionClosed (hnd : s.openIds.Nodup) (hp : p ∈ s.portfolio.openPositions) :
    (s.applyPositionClosed eventTime p.positionId pnl).portfolio.cash =
      s.portfolio.cash + pnl + p.notional := by
  have hfind := Keyed.find?_key_eq hnd hp
  simp only [applyPositionClosed, hfind]

theorem openExposurePct_applyPositionClosed (hnd : s.openIds.Nodup)
    (hp : p ∈ s.portfolio.openPositions) :
    (s.applyPositionClosed eventTime p.positionId pnl).risk.openExposurePct =
      max 0 (s.risk.openExposurePct - s.exposureOf p.notional) := by
  have hfind := Keyed.find?_key_eq hnd hp
  simp only [applyPositionClosed, hfind]

end Closed

/-! ## Marking to market -/

@[simp] theorem positionId_revalue (prices : List (String × ℚ)) (p : PositionState) :
    (revalue prices p).positionId = p.positionId := by unfold revalue; split <;> rfl

@[simp] theorem notional_revalue (prices : List (String × ℚ)) (p : PositionState) :
    (revalue prices p).notional = p.notional := by unfold revalue; split <;> rfl

theorem openIds_applyMarkToMarket (eventTime : ℤ) (prices : List (String × ℚ)) :
    (s.applyMarkToMarket eventTime prices).openIds = s.openIds := by
  simp [openIds, applyMarkToMarket, Function.comp_def]

end InMemoryStateStore

open InMemoryStateStore

/-! ## The audit -/

structure Audit where
  /-- Entry fees charged since the last mark and unrealised results of the positions closed
  since. -/
  carried : ℚ := 0
  /-- All entry fees charged. -/
  entryFees : ℚ := 0
  /-- The exposure each open position added when it was opened. -/
  contributions : List (ℕ × ℚ) := []
  deriving DecidableEq, Repr

/-- The unrealised result recorded on the open position with the id. -/
def InMemoryStateStore.unrealizedOf (s : InMemoryStateStore) (id : ℕ) : ℚ :=
  match s.portfolio.openPositions.find? (·.positionId = id) with
  | some p => p.unrealizedPnl
  | none => 0

/-- Note one transition, applied in state `s`. -/
def Audit.record (a : Audit) (s : InMemoryStateStore) : TransitionPayload → Audit
  | .positionOpened p fill _ => {
      carried := a.carried + fill.fee
      entryFees := a.entryFees + fill.fee
      contributions := a.contributions ++ [(p.positionId, s.exposureOf p.notional)] }
  | .positionClosed id _ _ _ => { a with
      carried := a.carried + s.unrealizedOf id
      contributions := Keyed.remove Prod.fst id a.contributions }
  | .markToMarket _ => { a with carried := 0 }
  | .portfolioUpdated _ | .riskUpdated _ => a

/-- A store with its audit. -/
structure Audited (initialCash : ℚ) (s : InMemoryStateStore) (a : Audit) : Prop where
  nodup : s.openIds.Nodup
  ids : a.contributions.map Prod.fst = s.openIds
  equity : s.portfolio.equity =
    s.portfolio.cash + (s.portfolio.openPositions.map (·.worth)).sum + a.carried
  cash : s.portfolio.cash = initialCash + s.portfolio.realizedPnl - a.entryFees -
    (s.portfolio.openPositions.map (·.notional)).sum

namespace Audited

variable {initialCash : ℚ} {s : InMemoryStateStore} {a : Audit} {t : StateTransitionEvent}

theorem init (initialCash : ℚ) (limits : RiskLimits) (now : ℤ) :
    Audited initialCash (InMemoryStateStore.init initialCash limits now) {} where
  nodup := List.nodup_nil
  ids := rfl
  equity := by simp [InMemoryStateStore.init]
  cash := by simp [InMemoryStateStore.init]

theorem unrealizedOf_eq (h : Audited initialCash s a) {p : PositionState}
    (hp : p ∈ s.portfolio.openPositions) : s.unrealizedOf p.positionId = p.unrealizedPnl := by
  have hfind := Keyed.find?_key_eq h.nodup hp
  simp only [unrealizedOf, hfind]

theorem opened (h : Audited initialCash s a) {p : PositionState} {fill : Fill}
    (fresh : p.positionId ∉ s.openIds) (unmarked : p.unrealizedPnl = 0) (eventTime : ℤ) :
    Audited initialCash (s.applyPositionOpened eventTime p (p.notional + fill.fee))
      (a.record s (.positionOpened p fill (p.notional + fill.fee))) := by
  obtain ⟨hnd, hids, heq, hcash⟩ := h
  refine ⟨?_, ?_, ?_, ?_⟩
  · rw [openIds_applyPositionOpened]
    refine List.nodup_append.mpr ⟨hnd, List.nodup_singleton _, ?_⟩
    rintro id hid _ hp rfl
    exact fresh (List.mem_singleton.mp hp ▸ hid)
  · simp [Audit.record, openIds_applyPositionOpened, hids]
  · simp only [applyPositionOpened, Audit.record, List.map_append, List.sum_append, List.map_cons,
      List.map_nil, List.sum_cons, List.sum_nil, PositionState.worth, unmarked] at heq ⊢
    rw [heq]
    ring
  · simp only [applyPositionOpened, Audit.record, List.map_append, List.sum_append, List.map_cons,
      List.map_nil, List.sum_cons, List.sum_nil]
    rw [hcash]
    ring

theorem closed (h : Audited initialCash s a) {p : PositionState}
    (hp : p ∈ s.portfolio.openPositions) (eventTime : ℤ) (fill : Fill) (pnl : ℚ)
    (reason : ExitReason) :
    Audited initialCash (s.applyPositionClosed eventTime p.positionId pnl)
      (a.record s (.positionClosed p.positionId fill pnl reason)) := by
  have hunreal := h.unrealizedOf_eq hp
  obtain ⟨hnd, hids, heq, hcash⟩ := h
  refine ⟨Keyed.nodup_remove hnd, ?_, ?_, ?_⟩
  · calc (Keyed.remove Prod.fst p.positionId a.contributions).map Prod.fst
      _ = s.openIds.filter fun id => decide (id ≠ p.positionId) := by
        rw [Keyed.map_key_remove, hids]
      _ = (s.applyPositionClosed eventTime p.positionId pnl).openIds :=
        openIds_applyPositionClosed.symm
  · rw [openPositions_applyPositionClosed, cash_applyPositionClosed hnd hp,
      Keyed.sum_map_remove _ hnd hp]
    change s.portfolio.equity + pnl = _ + (a.carried + s.unrealizedOf p.positionId)
    rw [heq, hunreal, PositionState.worth]
    ring
  · rw [openPositions_applyPositionClosed, cash_applyPositionClosed hnd hp,
      Keyed.sum_map_remove _ hnd hp, hcash]
    change _ = initialCash + (s.portfolio.realizedPnl + pnl) - a.entryFees - _
    ring

theorem marked (h : Audited initialCash s a) (eventTime : ℤ) (prices : List (String × ℚ)) :
    Audited initialCash (s.applyMarkToMarket eventTime prices)
      (a.record s (.markToMarket prices)) := by
  obtain ⟨hnd, hids, heq, hcash⟩ := h
  refine ⟨?_, ?_, ?_, ?_⟩
  · rwa [openIds_applyMarkToMarket]
  · rwa [openIds_applyMarkToMarket]
  · simp [applyMarkToMarket, Audit.record, PositionState.worth]
  · simpa [applyMarkToMarket, Audit.record, Function.comp_def] using hcash

/-- The audit stays in step with the store over every produced transition. -/
theorem step (h : Audited initialCash s a) (ht : Produced s t.payload) :
    Audited initialCash (s.apply t) (a.record s t.payload) := by
  cases hpay : t.payload with
  | positionOpened p fill cost =>
    rw [hpay] at ht
    rw [apply_positionOpened hpay]
    cases ht with
    | positionOpened fresh unmarked => exact h.opened fresh unmarked _
  | positionClosed id fill pnl reason =>
    rw [hpay] at ht
    rw [apply_positionClosed hpay]
    cases ht with
    | positionClosed isOpen => exact h.closed isOpen _ _ _ _
  | markToMarket prices =>
    rw [apply_markToMarket hpay]
    exact h.marked _ _
  | riskUpdated u =>
    rw [apply_riskUpdated hpay]
    exact ⟨h.nodup, h.ids, h.equity, h.cash⟩
  | portfolioUpdated u =>
    rw [hpay] at ht
    cases ht

end Audited

/-! ## The audit of a list of transitions -/

/-- The fee a transition charges for an entry. -/
def StateTransitionEvent.entryFee (t : StateTransitionEvent) : ℚ :=
  match t.payload with
  | .positionOpened _ fill _ => fill.fee
  | _ => 0

/-- The entry fees of all positions that the transitions open. -/
def entryFees (ts : List StateTransitionEvent) : ℚ := (ts.map (·.entryFee)).sum

/-- Note transitions that are applied in order, from state `s` on. -/
def Audit.recordAll (a : Audit) : InMemoryStateStore → List StateTransitionEvent → Audit
  | _, [] => a
  | s, t :: ts => (a.record s t.payload).recordAll (s.apply t) ts

theorem Audit.entryFees_record (a : Audit) (s : InMemoryStateStore) (t : StateTransitionEvent) :
    (a.record s t.payload).entryFees = a.entryFees + t.entryFee := by
  cases hpay : t.payload <;>
    simp [Audit.record, StateTransitionEvent.entryFee, hpay]

theorem Audit.entryFees_recordAll (a : Audit) (s : InMemoryStateStore)
    (ts : List StateTransitionEvent) :
    (a.recordAll s ts).entryFees = a.entryFees + TradingPlatform.entryFees ts := by
  induction ts generalizing a s with
  | nil => exact (add_zero _).symm
  | cons t ts ih =>
    rw [Audit.recordAll, ih, entryFees_record, TradingPlatform.entryFees,
      TradingPlatform.entryFees, List.map_cons, List.sum_cons, add_assoc]

/-- Each of the transitions is produced in the state it is applied in. -/
abbrev InMemoryStateStore.ProducedFrom (s : InMemoryStateStore)
    (ts : List StateTransitionEvent) : Prop :=
  Run.Along InMemoryStateStore.apply (fun s t => Produced s t.payload) s ts

theorem Audited.recordAll {initialCash : ℚ} {s : InMemoryStateStore} {a : Audit}
    {ts : List StateTransitionEvent} (h : Audited initialCash s a) (hts : s.ProducedFrom ts) :
    Audited initialCash (Run.exec InMemoryStateStore.apply s ts) (a.recordAll s ts) := by
  induction ts generalizing s a with
  | nil => exact h
  | cons t ts ih => exact ih (h.step hts.1) hts.2

/-! ## The cash identity -/

/-- The cash is the initial cash and the realised result, less the entry fees charged and the
capital that the open positions lock. -/
def InMemoryStateStore.CashIdentity (s : InMemoryStateStore) (initialCash fees : ℚ) : Prop :=
  s.portfolio.cash = initialCash + s.portfolio.realizedPnl - fees -
    (s.portfolio.openPositions.map fun p => p.entryPrice * p.quantity).sum

theorem Audited.cashIdentity {initialCash : ℚ} {s : InMemoryStateStore} {a : Audit}
    (h : Audited initialCash s a) : s.CashIdentity initialCash a.entryFees := h.cash

/-! ## The equity identity -/

/-- The equity is the cash plus the value of the open positions. -/
def InMemoryStateStore.EquityIdentity (s : InMemoryStateStore) : Prop :=
  s.portfolio.equity = s.portfolio.cash +
    (s.portfolio.openPositions.map fun p => p.entryPrice * p.quantity + p.unrealizedPnl).sum

instance (s : InMemoryStateStore) : Decidable s.EquityIdentity :=
  inferInstanceAs (Decidable (_ = _))

theorem Audited.equityIdentity_iff {initialCash : ℚ} {s : InMemoryStateStore} {a : Audit}
    (h : Audited initialCash s a) : s.EquityIdentity ↔ a.carried = 0 := by
  change s.portfolio.equity = s.portfolio.cash +
    (s.portfolio.openPositions.map (·.worth)).sum ↔ _
  rw [h.equity]
  exact add_eq_left

/-! ## The exposure identity -/

/-- The open exposure is the sum of what the open positions added when they were opened. -/
def InMemoryStateStore.ExposureIdentity (s : InMemoryStateStore) (a : Audit) : Prop :=
  s.risk.openExposurePct = (a.contributions.map Prod.snd).sum

instance (s : InMemoryStateStore) (a : Audit) : Decidable (s.ExposureIdentity a) :=
  inferInstanceAs (Decidable (_ = _))

namespace Audit

/-- What opening the position with the id added to the exposure. -/
def added (a : Audit) (id : ℕ) : ℚ :=
  match a.contributions.find? (·.1 = id) with
  | some e => e.2
  | none => 0

/-- What the openings of the other positions added. -/
def others (a : Audit) (id : ℕ) : ℚ :=
  ((Keyed.remove Prod.fst id a.contributions).map Prod.snd).sum

/-- Closing `p` in state `s` takes exactly its own contribution off the exposure: its share of the
equity is still what it was at the opening, or nothing else contributes and the clamp at 0 absorbs
the difference. -/
def Releases (a : Audit) (s : InMemoryStateStore) (p : PositionState) : Prop :=
  (s.exposureOf p.notional = a.added p.positionId ∧ 0 ≤ a.others p.positionId) ∨
    (a.others p.positionId = 0 ∧ a.added p.positionId ≤ s.exposureOf p.notional)

instance (a : Audit) (s : InMemoryStateStore) (p : PositionState) : Decidable (a.Releases s p) :=
  inferInstanceAs (Decidable (_ ∨ _))

end Audit

section Exposure

variable {initialCash : ℚ} {s : InMemoryStateStore} {a : Audit} {p : PositionState}

theorem InMemoryStateStore.ExposureIdentity.opened (h : s.ExposureIdentity a) (eventTime : ℤ)
    (fill : Fill)
    (cost : ℚ) : (s.applyPositionOpened eventTime p cost).ExposureIdentity
      (a.record s (.positionOpened p fill cost)) := by
  have hE : s.risk.openExposurePct = (a.contributions.map Prod.snd).sum := h
  simp [InMemoryStateStore.ExposureIdentity, applyPositionOpened, Audit.record, hE]

theorem Audited.sum_contributions (h : Audited initialCash s a)
    (hp : p ∈ s.portfolio.openPositions) :
    (a.contributions.map Prod.snd).sum = a.others p.positionId + a.added p.positionId := by
  have hmem : p.positionId ∈ a.contributions.map Prod.fst := by
    rw [h.ids]
    exact List.mem_map.mpr ⟨p, hp, rfl⟩
  obtain ⟨e, he, hid⟩ := List.mem_map.mp hmem
  have hnd : (a.contributions.map Prod.fst).Nodup := h.ids ▸ h.nodup
  have hadded : a.added p.positionId = e.2 := by
    have hfind := Keyed.find?_key_eq hnd he
    rw [hid] at hfind
    simp only [Audit.added, hfind]
  have hsum := Keyed.sum_map_remove Prod.snd hnd he
  rw [Audit.others, ← hid, hsum, hid, hadded]
  exact (sub_add_cancel _ _).symm

/-- Where the identity holds before a close, it holds after it exactly when the close releases the
position's own contribution. -/
theorem Audited.exposureIdentity_closed (h : Audited initialCash s a)
    (hexp : s.ExposureIdentity a) (hp : p ∈ s.portfolio.openPositions) (eventTime : ℤ)
    (fill : Fill) (pnl : ℚ) (reason : ExitReason) :
    (s.applyPositionClosed eventTime p.positionId pnl).ExposureIdentity
      (a.record s (.positionClosed p.positionId fill pnl reason)) ↔ a.Releases s p := by
  have hE : s.risk.openExposurePct = a.others p.positionId + a.added p.positionId := by
    rw [← h.sum_contributions hp]
    exact hexp
  change (s.applyPositionClosed eventTime p.positionId pnl).risk.openExposurePct =
    a.others p.positionId ↔ _
  rw [openExposurePct_applyPositionClosed h.nodup hp, hE, Audit.Releases]
  generalize a.others p.positionId = others, a.added p.positionId = added,
    s.exposureOf p.notional = drop
  constructor
  · intro hmax
    rcases le_total 0 (others + added - drop) with hpos | hneg
    · rw [max_eq_right hpos] at hmax
      exact .inl ⟨by linarith, by linarith⟩
    · rw [max_eq_left hneg] at hmax
      exact .inr ⟨hmax.symm, by linarith⟩
  · rintro (⟨rfl, hothers⟩ | ⟨rfl, hadded⟩)
    · rw [add_sub_cancel_right, max_eq_right hothers]
    · rw [zero_add, max_eq_left (by linarith)]

end Exposure

end TradingPlatform
