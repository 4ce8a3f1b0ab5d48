import TradingPlatform.Carry.Runner
import TradingPlatform.Lib.Run

/-!
# Funding

A snapshot is always taken to be at a funding time, and the state file does not say which settlement
was credited last, so every cycle that ends with a position accrues funding. A settlement is
credited at most once as long as at most one cycle between it and the settlement before ends so.
-/

namespace TradingPlatform

namespace CarryCycle

variable {c : CarryCycle} {file : Option CarryLiveState}

/-- The cycle is saved with a leg that is not empty: what it has booked of the plan is left in the
position it started with. -/
def endsHolding (c : CarryCycle) (file : Option CarryLiveState) : Bool :=
  match c.planned file with
  | .error _ => false
  | .ok (_, snap, plan) =>
    match (c.executor.execute plan snap.spotPx snap.perpMarkPx).1 with
    | .error _ => false
    | .ok none => (persisted file).inMarket
    | .ok (some report) =>
      decide (0 < (persisted file).spotQty + report.spotFillQty) ||
        decide (0 < (persisted file).perpQty + report.perpFillQty)

/-- Whether the cycle accrues funding that is saved. -/
def accrued (c : CarryCycle) (file : Option CarryLiveState) : Bool :=
  match (c.run file).1 with
  | .error _ => false
  | .ok (_, accrued) => accrued

/-- Every cycle that is saved with a position has accrued funding. -/
theorem accrued_eq_endsHolding : c.accrued file = c.endsHolding file := by
  simp only [accrued, endsHolding]
  cases hplanned : c.planned file with
  | error e => rw [run_of_not_planned hplanned]
  | ok planned =>
    obtain ⟨runner, snap, plan⟩ := planned
    obtain ⟨⟨baseline, hrunner⟩, hsnap, -⟩ := planned_ok hplanned
    have hstate := runner_state hrunner
    obtain ⟨baseline, hrun⟩ := run_of_planned hplanned
    rw [hrun]
    dsimp only
    have haccrues : ∀ r : CarryRunner, r.accrues snap = r.state.inMarket := fun r => by
      rw [CarryRunner.accrues, (MarketReplies.snapshot_ok hsnap).2, Bool.true_and]
    cases (c.executor.execute plan snap.spotPx snap.perpMarkPx).1 with
    | error e => rfl
    | ok report =>
      show (runner.book report).accrues snap = _
      rw [haccrues]
      cases report with
      | none => rw [CarryRunner.book, hstate]
      | some report =>
        rw [Bool.eq_iff_iff, CarryRunner.book, CarryPositionState.applyFill_inMarket, hstate]
        simp

end CarryCycle

/-! ## Histories -/

/-- The state file, the times of the cycles that have credited funding to it, and the times of the
cycles that have left a position in it. -/
structure FundingHistory where
  file : Option CarryLiveState := none
  credits : List ℤ := []
  held : List ℤ := []

namespace FundingHistory

def step (f : FundingHistory) (c : CarryCycle) : FundingHistory where
  file :=
    match (c.run f.file).1 with
    | .ok (saved, _) => some saved
    | .error _ => f.file
  credits := if c.accrued f.file then c.now :: f.credits else f.credits
  held := if c.endsHolding f.file then c.now :: f.held else f.held

variable {f : FundingHistory} {c : CarryCycle} {settled : ℤ → ℤ}

/-- No two credits fall between the same two settlements; `settled t` is the number of settlements
up to `t`. -/
def CreditsOnce (settled : ℤ → ℤ) (f : FundingHistory) : Prop := (f.credits.map settled).Nodup

instance : Decidable (f.CreditsOnce settled) := inferInstanceAs (Decidable (List.Nodup _))

/-- The cycle ends without a position, or as the first since the last settlement that ends with
one. -/
def FirstHolding (settled : ℤ → ℤ) (f : FundingHistory) (c : CarryCycle) : Prop :=
  c.endsHolding f.file = true → settled c.now ∉ f.held.map settled

/-- The credits are those of the cycles that left a position, and no two are for one settlement. -/
structure Credited (settled : ℤ → ℤ) (f : FundingHistory) : Prop where
  held : f.credits = f.held
  once : f.CreditsOnce settled

theorem credits_step (h : f.credits = f.held) : (f.step c).credits = (f.step c).held := by
  simp only [step, CarryCycle.accrued_eq_endsHolding, h]

theorem Credited.step_iff (h : f.Credited settled) :
    (f.step c).CreditsOnce settled ↔ f.FirstHolding settled c := by
  have hcredits := credits_step (c := c) h.held
  have honce := h.once
  rw [CreditsOnce, h.held] at honce
  rw [CreditsOnce, hcredits, FirstHolding]
  simp only [step]
  split
  · next hholding =>
    rw [List.map_cons, List.nodup_cons]
    exact ⟨fun hnodup _ => hnodup.1, fun hfirst => ⟨hfirst hholding, honce⟩⟩
  · next hflat => exact iff_of_true honce fun hholding => absurd hholding hflat

/-- In every history of cycles every settlement is credited at most once if and only if at most one
cycle between any two consecutive settlements ends with a position. -/
theorem along_creditsOnce_iff (settled : ℤ → ℤ) (cycles : List CarryCycle) :
    Run.Along step (fun f c => (f.step c).CreditsOnce settled) {} cycles ↔
      Run.Along step (FirstHolding settled) {} cycles :=
  Run.along_iff (I := Credited settled) (D := fun _ _ => True)
    (fun _ _ h _ hfirst => ⟨credits_step h.held, h.step_iff.mpr hfirst⟩) (fun _ _ h _ => h.step_iff)
    ⟨rfl, List.nodup_nil⟩ Run.along_true

/-- A cycle by hand a minute after a scheduled one credits the same eight hours again. -/
theorem not_along_creditsOnce : ¬ ∀ (settled : ℤ → ℤ) (cycles : List CarryCycle),
    Run.Along step (fun f c => (f.step c).CreditsOnce settled) {} cycles := by
  intro h
  have hrun := h (· / seconds 28800) [.quiet false 0, .quiet false (seconds 60)]
  revert hrun
  decide +kernel

end FundingHistory

end TradingPlatform
