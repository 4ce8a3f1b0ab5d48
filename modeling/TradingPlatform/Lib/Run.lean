import Mathlib

/-!
# Runs of a deterministic machine

A machine is a total step function `step : σ → ι → σ`. `exec` is the state a list of inputs leads
to, and `Along P` says that `P` holds at every step of the run, each input taken together with the
state it is fed to.

The rules of the library are the frame rule `exec_frame`, the invariant rules `Along.of_inv` for a
property of the steps and `Along.exec_inv` for the state reached, and the exactness rule
`along_iff`: where an invariant makes a property `P` of one step equivalent to a condition `C` on
that step, and the condition preserves the invariant, the property holds along a run exactly when
the condition does. These take a side condition `D` on the steps, the domain the run is restricted
to. `exec_total` is the invariant rule for a run that counts: each step raises a number in the
invariant by what the step counts.
-/

namespace Run

variable {σ ι : Type*} (step : σ → ι → σ)

/-- The state reached from `s` on the inputs `is`. -/
def exec (s : σ) (is : List ι) : σ := is.foldl step s

/-- `P` holds at every step of the run of `is` from `s`. -/
def Along (P : σ → ι → Prop) : σ → List ι → Prop
  | _, [] => True
  | s, i :: is => P s i ∧ Along P (step s i) is

instance Along.decidable (P : σ → ι → Prop) [∀ s i, Decidable (P s i)] :
    ∀ s is, Decidable (Along step P s is)
  | _, [] => inferInstanceAs (Decidable True)
  | s, i :: is =>
    have := Along.decidable P (step s i) is
    inferInstanceAs (Decidable (P s i ∧ Along step P (step s i) is))

variable {step} {P Q C D : σ → ι → Prop} {s : σ} {i : ι} {is js : List ι}

@[simp] theorem exec_nil : exec step s [] = s := rfl

@[simp] theorem exec_cons : exec step s (i :: is) = exec step (step s i) is := rfl

theorem exec_append : exec step s (is ++ js) = exec step (exec step s is) js :=
  List.foldl_append

@[simp] theorem along_nil : Along step P s [] := trivial

@[simp] theorem along_cons :
    Along step P s (i :: is) ↔ P s i ∧ Along step P (step s i) is := Iff.rfl

theorem along_append :
    Along step P s (is ++ js) ↔ Along step P s is ∧ Along step P (exec step s is) js := by
  induction is generalizing s with
  | nil => simp
  | cons i is ih => simp [ih, and_assoc]

theorem Along.and (hP : Along step P s is) (hQ : Along step Q s is) :
    Along step (fun s i => P s i ∧ Q s i) s is := by
  induction is generalizing s with
  | nil => trivial
  | cons i is ih => exact ⟨⟨hP.1, hQ.1⟩, ih hP.2 hQ.2⟩

/-- What holds of every input holds at every step. -/
theorem along_of_forall (h : ∀ i ∈ is, ∀ s, P s i) : Along step P s is := by
  induction is generalizing s with
  | nil => trivial
  | cons i is ih =>
    exact ⟨h i List.mem_cons_self s, ih fun j hj => h j (List.mem_cons_of_mem _ hj)⟩

section Invariant

variable {I : σ → Prop}

/-- What an invariant implies of one step holds at every step of a run. -/
theorem Along.of_inv (hinv : ∀ s i, I s → D s i → I (step s i))
    (hP : ∀ s i, I s → D s i → P s i) (h0 : I s) (hD : Along step D s is) :
    Along step P s is := by
  induction is generalizing s with
  | nil => trivial
  | cons i is ih => exact ⟨hP _ _ h0 hD.1, ih (hinv _ _ h0 hD.1) hD.2⟩

/-- An invariant of the steps holds of the state a run leads to. -/
theorem Along.exec_inv (hD : Along step D s is) (hinv : ∀ s i, I s → D s i → I (step s i))
    (h0 : I s) : I (exec step s is) := by
  induction is generalizing s with
  | nil => exact h0
  | cons i is ih => exact ih hD.2 (hinv _ _ h0 hD.1)

/-- The exactness rule. At the first step where the condition fails the property fails as well, so
the invariant need only survive the steps that meet the condition. -/
theorem along_iff (hinv : ∀ s i, I s → D s i → C s i → I (step s i))
    (hiff : ∀ s i, I s → D s i → (P s i ↔ C s i)) (h0 : I s) (hD : Along step D s is) :
    Along step P s is ↔ Along step C s is := by
  induction is generalizing s with
  | nil => exact Iff.rfl
  | cons i is ih =>
    rw [along_cons, along_cons, hiff _ _ h0 hD.1]
    exact and_congr_right fun hC => ih (hinv _ _ h0 hD.1 hC) hD.2

end Invariant

/-! ## Counting along a run -/

/-- What the steps of a run count, each in the state its input is fed to. -/
def total (step : σ → ι → σ) (count : σ → ι → ℕ) : σ → List ι → ℕ
  | _, [] => 0
  | s, i :: is => count s i + total step count (step s i) is

/-- An invariant with a number that every step raises by what it counts. -/
theorem exec_total {count : σ → ι → ℕ} {I : ℕ → σ → Prop}
    (hinv : ∀ n s i, I n s → I (n + count s i) (step s i)) {n : ℕ} (h0 : I n s) :
    I (n + total step count s is) (exec step s is) := by
  induction is generalizing s n with
  | nil => exact h0
  | cons i is ih =>
    rw [total, ← add_assoc]
    exact ih (hinv n s i h0)

/-- A property of every step of the run, wherever the run is split. -/
theorem along_of_splits (h : ∀ earlier i later, is = earlier ++ i :: later →
    P (exec step s earlier) i) : Along step P s is := by
  induction is generalizing s with
  | nil => trivial
  | cons i is ih =>
    refine ⟨h [] i is rfl, ih fun earlier j later his => ?_⟩
    exact h (i :: earlier) j later (congrArg (i :: ·) his)

/-- Every step lies in the trivial domain. -/
theorem along_true : Along step (fun _ _ => True) s is := by
  induction is generalizing s with
  | nil => trivial
  | cons i is ih => exact ⟨trivial, ih⟩

/-- What no input of a run changes, the run does not change. -/
theorem exec_frame {τ : Type*} (f : σ → τ) (h : ∀ i ∈ is, ∀ s, f (step s i) = f s) :
    f (exec step s is) = f s := by
  induction is generalizing s with
  | nil => rfl
  | cons i is ih =>
    rw [exec_cons, ih fun j hj => h j (List.mem_cons_of_mem _ hj), h i List.mem_cons_self]

end Run
