import Mathlib.Logic.Function.Iterate

/-!
# Systems that come to rest

A system with a total step comes to rest when from some step on every state is one of rest. The
rules bound the number of steps: a state that is not at rest takes one step more than its successor.
-/

namespace Settling

variable {σ : Type*} (step : σ → σ) (Rests : σ → Prop)

/-- The system moves for `n` steps and rests from then on. -/
structure SettlesAfter (n : ℕ) (s : σ) : Prop where
  moves : ∀ m < n, ¬ Rests (step^[m] s)
  rests : ∀ m, n ≤ m → Rests (step^[m] s)

/-- The system comes to rest after at most `k` steps, in a state with `P`. -/
def SettlesWithin (P : σ → Prop) (k : ℕ) (s : σ) : Prop :=
  ∃ n ≤ k, SettlesAfter step Rests n s ∧ P (step^[n] s)

variable {step Rests} {I P : σ → Prop} {s : σ} {n k k' : ℕ}

/-- A state of an invariant set of resting states is at rest for good. -/
theorem SettlesWithin.now (hI : ∀ s, I s → I (step s)) (hrest : ∀ s, I s → Rests s) (h : I s)
    (hP : P s) : SettlesWithin step Rests P 0 s := by
  have hinv : ∀ m, I (step^[m] s) := fun m => by
    induction m with
    | zero => exact h
    | succ m ih =>
      rw [Function.iterate_succ_apply']
      exact hI _ ih
  exact ⟨0, Nat.le_refl 0,
    ⟨fun m hm => absurd hm (Nat.not_lt_zero m), fun m _ => hrest _ (hinv m)⟩, hP⟩

theorem SettlesAfter.succ (hmove : ¬ Rests s) (h : SettlesAfter step Rests n (step s)) :
    SettlesAfter step Rests (n + 1) s where
  moves m hm := by
    cases m with
    | zero => exact hmove
    | succ m => exact h.moves m (Nat.lt_of_succ_lt_succ hm)
  rests m hm := by
    cases m with
    | zero => exact absurd hm (Nat.not_succ_le_zero n)
    | succ m => exact h.rests m (Nat.le_of_succ_le_succ hm)

theorem SettlesWithin.succ (hmove : ¬ Rests s) (h : SettlesWithin step Rests P k (step s)) :
    SettlesWithin step Rests P (k + 1) s := by
  obtain ⟨n, hn, hsettles, hP⟩ := h
  exact ⟨n + 1, Nat.succ_le_succ hn, hsettles.succ hmove, hP⟩

theorem SettlesWithin.mono (h : SettlesWithin step Rests P k s) (hk : k ≤ k') :
    SettlesWithin step Rests P k' s := by
  obtain ⟨n, hn, hsettles⟩ := h
  exact ⟨n, Nat.le_trans hn hk, hsettles⟩

end Settling
