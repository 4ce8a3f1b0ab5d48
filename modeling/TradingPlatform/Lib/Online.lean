import TradingPlatform.Lib.Series

/-!
# Columns without look-ahead

Two frames that agree on their first `n` rows are carried through the operations on columns: what is
computed of them row by row, by a machine that walks the rows, or over windows that end at the row,
agrees on the first `n` rows as well. The rules compose along a computation that may raise.
-/

namespace Online

/-! ## Columns that agree on their first rows -/

/-- Columns of `m` and `m'` rows with the same first `n` rows. -/
structure Agree {α : Type*} (n m m' : ℕ) (s t : List α) : Prop where
  length : s.length = m
  length' : t.length = m'
  take : s.take n = t.take n

/-- The outputs of a machine that walks the rows. -/
def walk {σ α β : Type*} (f : σ → α → σ × β) : σ → List α → List β
  | _, [] => []
  | x, row :: rest => (f x row).2 :: walk f (f x row).1 rest

section

variable {α β γ σ : Type*} {n m m' : ℕ}

@[simp] theorem length_walk {f : σ → α → σ × β} {x : σ} {s : List α} :
    (walk f x s).length = s.length := by
  induction s generalizing x with
  | nil => rfl
  | cons row rest ih => rw [walk, List.length_cons, ih, List.length_cons]

theorem take_walk {f : σ → α → σ × β} {x : σ} {s : List α} :
    (walk f x s).take n = walk f x (s.take n) := by
  induction s generalizing x n with
  | nil => rw [List.take_nil, walk, List.take_nil]
  | cons row rest ih =>
    cases n with
    | zero => rfl
    | succ n => rw [walk, List.take_succ_cons, List.take_succ_cons, walk, ih]

theorem getElem?_lagged {s : List α} (i : ℕ) : (Series.lagged s)[i]? =
    s[i]?.map fun row => (if i = 0 then none else s[i - 1]?, row) := by
  unfold Series.lagged List.zip
  rw [List.getElem?_zipWith]
  cases i with
  | zero => cases s <;> rfl
  | succ i =>
    rw [List.getElem?_cons_succ, List.getElem?_map]
    cases hrow : s[i + 1]? with
    | none => cases s[i]? <;> rfl
    | some row =>
      have hlt : i < s.length := by
        have := (List.getElem?_eq_some_iff.mp hrow).1
        omega
      simp [List.getElem?_eq_getElem hlt]

theorem take_lagged {s : List α} :
    (Series.lagged s).take n = Series.lagged (s.take n) := by
  refine List.ext_getElem? fun i => ?_
  rw [List.getElem?_take, getElem?_lagged, getElem?_lagged, List.getElem?_take, List.getElem?_take]
  by_cases h : i < n
  · have hbefore : i - 1 < n := (Nat.sub_le i 1).trans_lt h
    rw [if_pos h, if_pos h, if_pos hbefore]
  · rw [if_neg h, if_neg h]
    rfl

theorem take_rolling {w : ℕ} {f : List α → Option β} {s : List α} :
    (Series.rolling w f s).take n = Series.rolling w f (s.take n) := by
  refine List.ext_getElem? fun i => ?_
  rw [List.getElem?_take]
  by_cases hs : i < s.length
  · by_cases hn : i < n
    · have hlt : i < (s.take n).length := by
        rw [List.length_take]
        omega
      rw [if_pos hn, Series.getElem?_rolling hs, Series.getElem?_rolling hlt, List.take_take,
        min_eq_left (Nat.succ_le_of_lt hn)]
    · rw [if_neg hn, List.getElem?_eq_none]
      rw [Series.length_rolling, List.length_take]
      omega
  · rw [List.getElem?_eq_none (by rwa [Series.length_rolling, ← not_lt]), ite_self,
      List.getElem?_eq_none]
    rw [Series.length_rolling, List.length_take]
    omega

end

section

variable {K V : Type*} [Field K] [AddCommGroup V] [Module K V]

/-- A row of an exponentially weighted average. -/
def ewmStep (a : K) (minPeriods : ℕ) (x : Option (V × K) × ℕ) (row : Option V) :
    (Option (V × K) × ℕ) × Option V :=
  let state := Series.absorb a x.1 row
  let seen := if row.isSome then x.2 + 1 else x.2
  ((state, seen), if minPeriods ≤ seen then state.map Prod.fst else none)

theorem ewm_eq_walk (a : K) (minPeriods : ℕ) (s : Series V) :
    s.ewm a minPeriods = walk (ewmStep a minPeriods) (none, 0) s := by
  have hfrom (state : Option (V × K)) (seen : ℕ) :
      Series.ewmFrom a minPeriods state seen s = walk (ewmStep a minPeriods) (state, seen) s := by
    induction s generalizing state seen with
    | nil => rfl
    | cons row rest ih =>
      rw [Series.ewmFrom, walk]
      exact congrArg _ (ih ..)
  exact hfrom none 0

end

namespace Agree

variable {α β γ σ : Type*} {n m m' : ℕ} {s t : List α} {s' t' : List β}

theorem of_take (h : s.take n = t.take n) : Agree n s.length t.length s t := ⟨rfl, rfl, h⟩

/-- An operation that keeps the number of rows and commutes with taking the first ones. -/
theorem lift {f : List α → List β} (hlength : ∀ s, (f s).length = s.length)
    (htake : ∀ s, (f s).take n = f (s.take n)) (h : Agree n m m' s t) :
    Agree n m m' (f s) (f t) where
  length := (hlength s).trans h.length
  length' := (hlength t).trans h.length'
  take := by rw [htake, htake, h.take]

theorem map (f : α → β) (h : Agree n m m' s t) : Agree n m m' (s.map f) (t.map f) :=
  h.lift (fun _ => List.length_map f) fun _ => List.map_take.symm

theorem walk (f : σ → α → σ × β) (x : σ) (h : Agree n m m' s t) :
    Agree n m m' (Online.walk f x s) (Online.walk f x t) :=
  h.lift (fun _ => length_walk) fun _ => take_walk

theorem lagged (h : Agree n m m' s t) : Agree n m m' (Series.lagged s) (Series.lagged t) :=
  h.lift (fun _ => Series.length_lagged) fun _ => take_lagged

theorem rolling (w : ℕ) (f : List α → Option β) (h : Agree n m m' s t) :
    Agree n m m' (Series.rolling w f s) (Series.rolling w f t) :=
  h.lift (fun _ => Series.length_rolling) fun _ => take_rolling

theorem zipWith (f : α → β → γ) (h : Agree n m m' s t) (h' : Agree n m m' s' t') :
    Agree n m m' (s.zipWith f s') (t.zipWith f t') where
  length := by rw [List.length_zipWith, h.length, h'.length, min_self]
  length' := by rw [List.length_zipWith, h.length', h'.length', min_self]
  take := by rw [List.take_zipWith, List.take_zipWith, h.take, h'.take]

theorem lift₂ {s t : Series α} {s' t' : Series β} (f : α → β → Option γ) (h : Agree n m m' s t)
    (h' : Agree n m m' s' t') : Agree n m m' (s.lift₂ f s') (t.lift₂ f t') :=
  h.zipWith _ h'

theorem ewm {K V : Type*} [Field K] [AddCommGroup V] [Module K V] {s t : Series V} (a : K)
    (minPeriods : ℕ) (h : Agree n m m' s t) :
    Agree n m m' (s.ewm a minPeriods) (t.ewm a minPeriods) := by
  rw [ewm_eq_walk, ewm_eq_walk]
  exact h.walk _ _

/-- A column whose rows are computed of the rows up to them. -/
theorem prefixes (f : List α → β) (h : s.take n = t.take n) : Agree n s.length t.length
    ((List.range s.length).map fun i => f (s.take (i + 1)))
    ((List.range t.length).map fun i => f (t.take (i + 1))) where
  length := by rw [List.length_map, List.length_range]
  length' := by rw [List.length_map, List.length_range]
  take := by
    have hlength : min n s.length = min n t.length := by
      rw [← List.length_take, h, List.length_take]
    rw [← List.map_take, ← List.map_take, List.take_range, List.take_range, hlength]
    refine List.map_congr_left fun i hi => congrArg f ?_
    have hi : i + 1 ≤ n := (List.mem_range.mp hi).trans_le (min_le_left ..)
    rw [← min_eq_left hi, ← List.take_take, h, List.take_take]

theorem getElem? (h : Agree n m m' s t) {i : ℕ} (hi : i < n) : s[i]? = t[i]? := by
  rw [← List.getElem?_take_of_lt hi, h.take, List.getElem?_take_of_lt hi]

end Agree

/-! ## Computations that may raise -/

/-- What two computations return is related, if both return. -/
def Both {ε α β : Type} (R : α → β → Prop) (x : Except ε α) (y : Except ε β) : Prop :=
  ∀ a b, x = .ok a → y = .ok b → R a b

namespace Both

variable {ε α β γ δ : Type} {R : α → β → Prop} {S : γ → δ → Prop} {x : Except ε α}
  {y : Except ε β} {a : α} {b : β}

theorem ok (h : R a b) : Both R (.ok a : Except ε α) (.ok b : Except ε β) := by
  intro a' b' ha hb
  cases ha
  cases hb
  exact h

theorem bind {f : α → Except ε γ} {g : β → Except ε δ} (h : Both R x y)
    (hfg : ∀ a b, R a b → Both S (f a) (g b)) : Both S (x >>= f) (y >>= g) := by
  intro c d hc hd
  cases x with
  | error e => cases hc
  | ok a =>
    cases y with
    | error e => cases hd
    | ok b => exact hfg a b (h a b rfl rfl) c d hc hd

/-- A check that may raise. -/
theorem guard {x y : Except ε Unit} {f : Except ε γ} {g : Except ε δ} (h : Both S f g) :
    Both S (x >>= fun _ => f) (y >>= fun _ => g) :=
  bind (R := fun _ _ => True) (fun _ _ _ _ => trivial) fun _ _ _ => h

theorem ite {p : Prop} [Decidable p] {x' : Except ε α} {y' : Except ε β} (h : Both R x y)
    (h' : Both R x' y') : Both R (if p then x else x') (if p then y else y') := by
  split
  · exact h
  · exact h'

/-- Elements of one list, each computed twice. -/
theorem mapM {ι : Type} {f : ι → Except ε α} {g : ι → Except ε β} {l : List ι}
    (h : ∀ i ∈ l, Both R (f i) (g i)) : Both (List.Forall₂ R) (l.mapM f) (l.mapM g) := by
  induction l with
  | nil => exact ok .nil
  | cons i l ih =>
    rw [List.mapM_cons, List.mapM_cons]
    refine bind (h i List.mem_cons_self) fun a b hab => ?_
    refine bind (ih fun j hj => h j (List.mem_cons_of_mem i hj)) fun as bs hrest => ?_
    exact ok (.cons hab hrest)

theorem error {e : ε} : Both R (.error e) y := fun _ _ hx => by cases hx

end Both

/-- A function of frames whose rows are decided by the rows up to them. -/
def Adapted {ε α β : Type} (f : List α → Except ε (List β)) : Prop :=
  ∀ xs ys n, xs.take n = ys.take n → Both (Agree n xs.length ys.length) (f xs) (f ys)

/-- An adapted function gives a row for each row. -/
theorem Adapted.length_eq {ε α β : Type} {f : List α → Except ε (List β)} (h : Adapted f)
    {xs : List α} {column : List β} (hf : f xs = .ok column) : column.length = xs.length :=
  (h xs xs 0 rfl column column hf hf).length

end Online
