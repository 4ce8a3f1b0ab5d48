import TradingPlatform.Lib.Run
import TradingPlatform.State.Store

/-!
# The version of a snapshot

A snapshot carries the version of the portfolio. Every handler raises it but one:
`_apply_risk_updated` raises the version of the risk state only, so that the snapshots before and
after it have one version.
-/

namespace TradingPlatform

/-- What a risk state holds, but for its version and its time. -/
def RiskState.contents (r : RiskState) : RiskState := { r with version := 0, asOfEventTime := 0 }

/-- The update sets only what the risk state already holds. -/
structure RiskUpdate.Redundant (u : RiskUpdate) (r : RiskState) : Prop where
  dailyPnl : ∀ v ∈ u.dailyPnl, v = r.dailyPnl
  dailyDrawdownPct : ∀ v ∈ u.dailyDrawdownPct, v = r.dailyDrawdownPct
  dailyStartEquity : ∀ v ∈ u.dailyStartEquity, v = r.dailyStartEquity
  openExposurePct : ∀ v ∈ u.openExposurePct, v = r.openExposurePct
  consecutiveLosses : ∀ v ∈ u.consecutiveLosses, v = r.consecutiveLosses
  signalsToday : ∀ v ∈ u.signalsToday, v = r.signalsToday
  limits : ∀ v ∈ u.limits, v = r.limits

namespace InMemoryStateStore

variable {s : InMemoryStateStore} {t : StateTransitionEvent} {ts : List StateTransitionEvent}

theorem getD_eq_iff {α : Type} {o : Option α} {a : α} : o.getD a = a ↔ ∀ v ∈ o, v = a := by
  cases o <;> simp

/-- An update keeps the contents of the risk state exactly if it is redundant. -/
theorem contents_applyRiskUpdated {eventTime : ℤ} {u : RiskUpdate} :
    (s.applyRiskUpdated eventTime u).risk.contents = s.risk.contents ↔ u.Redundant s.risk := by
  simp only [applyRiskUpdated, RiskState.contents, RiskState.mk.injEq, and_true, getD_eq_iff]
  constructor
  · rintro ⟨hpnl, hdrawdown, hstart, hexposure, hlosses, hsignals, hlimits⟩
    exact ⟨hpnl, hdrawdown, hstart, hexposure, hlosses, hsignals, hlimits⟩
  · intro h
    exact ⟨h.dailyPnl, h.dailyDrawdownPct, h.dailyStartEquity, h.openExposurePct,
      h.consecutiveLosses, h.signalsToday, h.limits⟩

/-- The snapshot of a store, whatever its id and the correlation it is taken for. -/
def TakenOf (s : InMemoryStateStore) (snap : StateSnapshot) : Prop :=
  ∃ correlationId u, snap = (s.snapshot correlationId u).1

/-- In the run, snapshots of one version hold the same portfolio and the same risk contents. -/
def VersionsIdentify (s : InMemoryStateStore) (ts : List StateTransitionEvent) : Prop :=
  ∀ earlier later : List StateTransitionEvent, earlier <+: ts → later <+: ts →
    ∀ snap snap' : StateSnapshot, (Run.exec apply s earlier).TakenOf snap →
      (Run.exec apply s later).TakenOf snap' → snap.version = snap'.version →
      snap.portfolio = snap'.portfolio ∧ snap.risk.contents = snap'.risk.contents

/-- A risk update in the run is redundant in the store that it is applied to. -/
def UpdatesRedundant (s : InMemoryStateStore) (ts : List StateTransitionEvent) : Prop :=
  Run.Along apply (fun s t => ∀ u, t.payload = .riskUpdated u → u.Redundant s.risk) s ts

/-- A transition raises the version of the portfolio, unless it is a risk update, which keeps the
portfolio. -/
theorem version_apply (s : InMemoryStateStore) (t : StateTransitionEvent) :
    (s.apply t).portfolio.version = s.portfolio.version + 1 ∨
      ∃ u, t.payload = .riskUpdated u ∧ (s.apply t).portfolio = s.portfolio := by
  cases hpay : t.payload with
  | riskUpdated u => exact .inr ⟨u, rfl, by rw [apply_riskUpdated hpay]; rfl⟩
  | positionOpened p fill cost => exact .inl (by rw [apply_positionOpened hpay]; rfl)
  | positionClosed id fill pnl reason => exact .inl (by rw [apply_positionClosed hpay]; rfl)
  | portfolioUpdated u => exact .inl (by rw [apply, hpay]; rfl)
  | markToMarket prices => exact .inl (by rw [apply_markToMarket hpay]; rfl)

theorem version_le_exec (s : InMemoryStateStore) (ts : List StateTransitionEvent) :
    s.portfolio.version ≤ (Run.exec apply s ts).portfolio.version := by
  induction ts generalizing s with
  | nil => exact le_rfl
  | cons t ts ih =>
    refine le_trans ?_ (ih (s.apply t))
    rcases version_apply s t with hraised | ⟨_, _, hkept⟩
    · exact hraised ▸ Nat.le_succ _
    · rw [hkept]

/-- With redundant updates, a stretch that keeps the version keeps the portfolio and the
contents. -/
theorem eq_of_version_eq (h : s.UpdatesRedundant ts)
    (hversion : (Run.exec apply s ts).portfolio.version = s.portfolio.version) :
    (Run.exec apply s ts).portfolio = s.portfolio ∧
      (Run.exec apply s ts).risk.contents = s.risk.contents := by
  induction ts generalizing s with
  | nil => exact ⟨rfl, rfl⟩
  | cons t ts ih =>
    obtain ⟨hredundant, hrest⟩ := h
    have hlater := version_le_exec (s.apply t) ts
    rcases version_apply s t with hraised | ⟨u, hpay, hkept⟩
    · rw [Run.exec_cons] at hversion
      omega
    · obtain ⟨hportfolio, hcontents⟩ := ih hrest (hversion.trans (by rw [hkept]))
      refine ⟨hportfolio.trans hkept, hcontents.trans ?_⟩
      rw [apply_riskUpdated hpay]
      exact contents_applyRiskUpdated.mpr (hredundant u hpay)

/-- Snapshots of states with one version agree, the one of the two stretches being the longer. -/
theorem agree_of_later (h : s.UpdatesRedundant ts) {earlier later : List StateTransitionEvent}
    (hstart : earlier <+: later) (hlater : later <+: ts)
    (hversion : (Run.exec apply s earlier).portfolio.version =
      (Run.exec apply s later).portfolio.version) :
    (Run.exec apply s later).portfolio = (Run.exec apply s earlier).portfolio ∧
      (Run.exec apply s later).risk.contents = (Run.exec apply s earlier).risk.contents := by
  obtain ⟨between, rfl⟩ := hstart
  obtain ⟨rest, rfl⟩ := hlater
  obtain ⟨hup, -⟩ := Run.along_append.mp h
  obtain ⟨-, hbetween⟩ := Run.along_append.mp hup
  rw [Run.exec_append] at hversion ⊢
  exact eq_of_version_eq hbetween hversion.symm

/-- The version of a snapshot identifies the portfolio and the risk contents exactly if every risk
update of the run is redundant. -/
theorem versionsIdentify_iff (s : InMemoryStateStore) (ts : List StateTransitionEvent) :
    s.VersionsIdentify ts ↔ s.UpdatesRedundant ts := by
  constructor
  · refine fun h => Run.along_of_splits fun earlier t rest hts u hpay => ?_
    have hlater : Run.exec apply s (earlier ++ [t]) = (Run.exec apply s earlier).apply t :=
      Run.exec_append
    have hstart : earlier ++ [t] <+: ts := ⟨rest, by rw [hts, List.append_assoc]; rfl⟩
    have hagree := h earlier (earlier ++ [t]) ((List.prefix_append _ _).trans hstart) hstart
      _ _ ⟨none, 0, rfl⟩ ⟨none, 0, rfl⟩
    rw [hlater, apply_riskUpdated hpay] at hagree
    exact contents_applyRiskUpdated.mp (hagree rfl).2.symm
  · rintro h earlier later hearlier hlater snap snap' ⟨_, _, rfl⟩ ⟨_, _, rfl⟩ hversion
    rcases List.prefix_or_prefix_of_prefix hearlier hlater with hstart | hstart
    · obtain ⟨hportfolio, hrisk⟩ := agree_of_later h hstart hlater hversion
      exact ⟨hportfolio.symm, hrisk.symm⟩
    · exact agree_of_later h hstart hearlier hversion.symm

/-- The count of an approved signal changes the risk state, not the version of the snapshot. -/
theorem not_versionsIdentify : ∃ count : StateTransitionEvent,
    count.payload = .riskUpdated { signalsToday := some 1 } ∧
      ¬ (init 10000).VersionsIdentify [count] := by
  refine ⟨⟨0, .riskUpdated { signalsToday := some 1 }, 0, .cycle 0⟩, rfl, fun h => ?_⟩
  have hagree := h [] [_] List.nil_prefix List.prefix_rfl _ _ ⟨none, 0, rfl⟩ ⟨none, 0, rfl⟩ rfl
  exact absurd (congrArg RiskState.signalsToday hagree.2) (by decide)

end InMemoryStateStore

end TradingPlatform
