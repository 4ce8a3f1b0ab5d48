import Mathlib

/-!
# Memo tables

Computations that may raise an error and share a table of results, which they fill as they go. A
result is looked up before it is computed, and an error leaves the table as it is.

`Answers` says that from every table whose entries are right a computation gives the result of one
without a table, and leaves the entries right. Computations that use the table through `fetch` only
compose, so the table cannot be told from its results, in whatever order its users come.
-/

/-- Results by key. -/
abbrev MemoTable {κ : Type} (β : κ → Type) := (k : κ) → Option (β k)

/-- Computations that share a table. -/
abbrev MemoM {κ : Type} (β : κ → Type) (ε : Type) := ExceptT ε (StateM (MemoTable β))

namespace MemoM

variable {κ : Type} {β : κ → Type} {ε α γ : Type}

/-- The outcome of a computation, and the table after it. -/
def runOn (x : MemoM β ε α) (table : MemoTable β) : Except ε α × MemoTable β :=
  StateT.run (ExceptT.run x) table

/-- The result of a key, computed where the table has none. -/
def fetch [DecidableEq κ] (compute : (k : κ) → Except ε (β k)) (k : κ) : MemoM β ε (β k) := do
  match (← get) k with
  | some v => return v
  | none =>
    let v ← compute k
    modify fun table => Function.update table k (some v)
    return v

/-- The outcomes of computations, one after the other. -/
def outcomes : List (MemoM β ε α) → MemoTable β → List (Except ε α)
  | [], _ => []
  | x :: xs, table => (x.runOn table).1 :: outcomes xs (x.runOn table).2

/-- The entries are what their keys compute to. -/
def Sound (compute : (k : κ) → Except ε (β k)) (table : MemoTable β) : Prop :=
  ∀ k v, table k = some v → compute k = .ok v

/-- The outcome does not depend on the entries there are. -/
def Answers (compute : (k : κ) → Except ε (β k)) (x : MemoM β ε α) (r : Except ε α) : Prop :=
  ∀ table, Sound compute table → (x.runOn table).1 = r ∧ Sound compute (x.runOn table).2

variable {compute : (k : κ) → Except ε (β k)} {table : MemoTable β}

theorem sound_empty : Sound compute fun _ => none := by
  intro k v h
  cases h

theorem Sound.update [DecidableEq κ] (h : Sound compute table) {k : κ} {v : β k}
    (hv : compute k = .ok v) : Sound compute (Function.update table k (some v)) := by
  intro k' v' h'
  rcases eq_or_ne k' k with rfl | hk
  · rw [Function.update_self] at h'
    cases h'
    exact hv
  · rw [Function.update_of_ne hk] at h'
    exact h k' v' h'

theorem runOn_lift (r : Except ε α) : runOn (liftM r : MemoM β ε α) table = (r, table) := rfl

theorem runOn_bind (x : MemoM β ε α) (f : α → MemoM β ε γ) : runOn (x >>= f) table =
    match (x.runOn table).1 with
    | .ok a => (f a).runOn (x.runOn table).2
    | .error e => (.error e, (x.runOn table).2) := by
  change StateT.run (ExceptT.run (x >>= f)) table = _
  rw [ExceptT.run_bind, StateT.run_bind]
  unfold runOn
  rcases StateT.run (ExceptT.run x) table with ⟨e | a, table'⟩ <;> rfl

theorem runOn_fetch [DecidableEq κ] (k : κ) : runOn (fetch compute k) table =
    match table k with
    | some v => (.ok v, table)
    | none =>
      match compute k with
      | .ok v => (.ok v, Function.update table k (some v))
      | .error e => (.error e, table) := by
  rw [fetch, runOn_bind]
  change runOn (match table k with | some v => _ | none => _) table = _
  cases table k with
  | some v => rfl
  | none =>
    change runOn (liftM (compute k) >>= _) table = _
    rw [runOn_bind, runOn_lift]
    cases compute k <;> rfl

theorem answers_lift (r : Except ε α) : Answers compute (liftM r) r :=
  fun _ h => ⟨rfl, h⟩

theorem Answers.bind {x : MemoM β ε α} {r : Except ε α} {f : α → MemoM β ε γ}
    {g : α → Except ε γ} (hx : Answers compute x r) (hf : ∀ a, Answers compute (f a) (g a)) :
    Answers compute (x >>= f) (r >>= g) := by
  intro table h
  obtain ⟨hr, h'⟩ := hx table h
  rw [runOn_bind, hr]
  cases r with
  | error e => exact ⟨rfl, h'⟩
  | ok a => exact hf a _ h'

theorem answers_fetch [DecidableEq κ] (k : κ) :
    Answers compute (fetch compute k) (compute k) := by
  intro table h
  rw [runOn_fetch]
  cases hk : table k with
  | some v => exact ⟨(h k v hk).symm, h⟩
  | none =>
    cases hv : compute k with
    | error e => exact ⟨rfl, h⟩
    | ok v => exact ⟨rfl, h.update hv⟩

/-- Computations that share a table do not notice each other. -/
theorem outcomes_eq {ι : Type} {f : ι → MemoM β ε α} {g : ι → Except ε α} {is : List ι}
    (h : ∀ i ∈ is, Answers compute (f i) (g i)) (hsound : Sound compute table) :
    outcomes (is.map f) table = is.map g := by
  induction is generalizing table with
  | nil => rfl
  | cons i is ih =>
    rw [List.forall_mem_cons] at h
    obtain ⟨hi, hsound⟩ := h.1 table hsound
    rw [List.map_cons, outcomes, hi, ih h.2 hsound, List.map_cons]

end MemoM
