import Mathlib

/-!
# Series

The columns of a table, with a value or none in each row. A column is smoothed by averaging each
value with the average before it, windows of a fixed length move along a column, and the last value
there is may belong to an earlier row than the last one.

Averages with weights that are not negative stay in every convex set, so what holds of each row and
is kept by averaging two rows holds of the smoothed rows.
-/

/-- A column with a value or none in each row. -/
abbrev Series (α : Type*) := List (Option α)

namespace Series

/-! ## Smoothing -/

section Smoothing

variable {K V W : Type*} [Field K] [AddCommGroup V] [Module K V] [AddCommGroup W] [Module K W]

/-- A value averaged with the average of the ones before it. -/
def blend (a : K) (y x : V) : V := (1 - a) • y + a • x

/-- Each row averaged with the ones before it. -/
def smooth (a : K) : List V → List V
  | [] => []
  | x :: xs => xs.scanl (blend a) x

variable {a : K} {x : V} {xs ys : List V}

@[simp] theorem smooth_nil : smooth a ([] : List V) = [] := rfl

theorem smooth_cons : smooth a (x :: xs) = xs.scanl (blend a) x := rfl

@[simp] theorem length_smooth : (smooth a xs).length = xs.length := by
  cases xs with
  | nil => rfl
  | cons x xs => rw [smooth_cons, List.length_scanl, List.length_cons]

theorem map_blend (f : V →ₗ[K] W) (y x : V) : f (blend a y x) = blend a (f y) (f x) := by
  rw [blend, map_add, map_smul, map_smul]
  rfl

theorem map_scanl_blend (f : V →ₗ[K] W) :
    (xs.map f).scanl (blend a) (f x) = (xs.scanl (blend a) x).map f := by
  induction xs generalizing x with
  | nil => simp
  | cons x' xs ih =>
    rw [List.map_cons, List.scanl_cons, List.scanl_cons, List.map_cons, ← map_blend, ih]

/-- A linear part of the smoothed rows is that part smoothed. -/
theorem smooth_map (f : V →ₗ[K] W) : smooth a (xs.map f) = (smooth a xs).map f := by
  cases xs with
  | nil => rfl
  | cons x xs => exact map_scanl_blend f

theorem smooth_one : smooth (1 : K) xs = xs := by
  have hscanl (x : V) (xs : List V) : xs.scanl (blend (1 : K)) x = x :: xs := by
    induction xs generalizing x with
    | nil => simp
    | cons x' xs ih =>
      rw [List.scanl_cons, ih, blend, sub_self, zero_smul, one_smul, zero_add]
  cases xs with
  | nil => rfl
  | cons x xs => exact hscanl x xs

section Weights

variable [LinearOrder K] [IsStrictOrderedRing K]

/-- Smoothed rows stay in a convex set. -/
theorem smooth_mem_of_convex {S : Set V} (hS : Convex K S) (h₀ : 0 ≤ a) (h₁ : a ≤ 1)
    (h : ∀ x ∈ xs, x ∈ S) : ∀ y ∈ smooth a xs, y ∈ S := by
  have hscanl (x : V) (hx : x ∈ S) (xs : List V) (h : ∀ x ∈ xs, x ∈ S) :
      ∀ y ∈ xs.scanl (blend a) x, y ∈ S := by
    induction xs generalizing x with
    | nil => simpa using hx
    | cons x' xs ih =>
      rw [List.forall_mem_cons] at h
      rw [List.scanl_cons, List.forall_mem_cons]
      exact ⟨hx, ih _ (hS hx h.1 (sub_nonneg.mpr h₁) h₀ (sub_add_cancel 1 a)) h.2⟩
  cases xs with
  | nil => exact h
  | cons x xs =>
    rw [List.forall_mem_cons] at h
    exact hscanl x h.1 xs h.2

theorem smooth_eq_zero (h₀ : 0 ≤ a) (h₁ : a ≤ 1) (h : ∀ x ∈ xs, x = 0) :
    ∀ y ∈ smooth a xs, y = 0 :=
  smooth_mem_of_convex (convex_singleton (𝕜 := K) (0 : V)) h₀ h₁ h

/-- What is positive once stays positive. -/
theorem foldl_blend_pos {y : K} {xs : List K} (h₀ : 0 < a) (h₁ : a < 1) (hy : 0 ≤ y)
    (hxs : ∀ x ∈ xs, 0 ≤ x) (h : 0 < y ∨ ∃ x ∈ xs, 0 < x) : 0 < xs.foldl (blend a) y := by
  induction xs generalizing y with
  | nil => simpa using h
  | cons x xs ih =>
    rw [List.forall_mem_cons] at hxs
    have h₁' := sub_pos.mpr h₁
    refine ih (add_nonneg (mul_nonneg h₁'.le hy) (mul_nonneg h₀.le hxs.1)) hxs.2 ?_
    rcases h with hy | ⟨z, hz, hpos⟩
    · exact .inl (add_pos_of_pos_of_nonneg (mul_pos h₁' hy) (mul_nonneg h₀.le hxs.1))
    · rcases List.mem_cons.mp hz with rfl | hz
      · exact .inl (add_pos_of_nonneg_of_pos (mul_nonneg h₁'.le hy) (mul_pos h₀ hpos))
      · exact .inr ⟨z, hz, hpos⟩

theorem getLast_smooth_pos {xs : List K} (h₀ : 0 < a) (h₁ : a < 1) (hxs : ∀ x ∈ xs, 0 ≤ x)
    (h : ∃ x ∈ xs, 0 < x) : ∃ y, (smooth a xs).getLast? = some y ∧ 0 < y := by
  cases xs with
  | nil => simp at h
  | cons x xs =>
    rw [smooth_cons, List.getLast?_scanl]
    rw [List.forall_mem_cons] at hxs
    refine ⟨_, rfl, foldl_blend_pos h₀ h₁ hxs.1 hxs.2 ?_⟩
    obtain ⟨z, hz, hpos⟩ := h
    rcases List.mem_cons.mp hz with rfl | hz
    · exact .inl hpos
    · exact .inr ⟨z, hz, hpos⟩

end Weights

end Smoothing

/-! ## The last average -/

section Average

variable {K V : Type*} [Field K] [AddCommGroup V] [Module K V] {a : K} {c y : V} {xs : List V}

/-- The average of the last value, after an average. -/
def averageAfter (a : K) (y : V) (xs : List V) : V := xs.foldl (blend a) y

theorem blend_self : blend a y y = y := by
  rw [blend, ← add_smul, sub_add_cancel, one_smul]

/-- A price that stands still is its own average. -/
theorem averageAfter_replicate (n : ℕ) :
    averageAfter a y (List.replicate n y ++ xs) = averageAfter a y xs := by
  induction n with
  | zero => rfl
  | succ n ih =>
    rw [List.replicate_succ, List.cons_append, averageAfter, List.foldl_cons, blend_self]
    exact ih

/-- Averages move with the level of the values. -/
theorem averageAfter_add :
    averageAfter a (c + y) (xs.map (c + ·)) = c + averageAfter a y xs := by
  induction xs generalizing y with
  | nil => rfl
  | cons x xs ih =>
    have hblend : blend a (c + y) (c + x) = c + blend a y x := by
      rw [blend, blend]
      module
    rw [List.map_cons, averageAfter, List.foldl_cons, hblend]
    exact ih

/-- The last two averages. -/
theorem smooth_concat (x : V) : ∃ earlier, earlier.length = xs.length ∧
    smooth a (y :: (xs ++ [x])) =
      earlier ++ [averageAfter a y xs, averageAfter a y (xs ++ [x])] := by
  rw [smooth_cons]
  induction xs generalizing y with
  | nil => exact ⟨[], rfl, rfl⟩
  | cons x' xs ih =>
    obtain ⟨earlier, hlength, hsmooth⟩ := @ih (blend a y x')
    refine ⟨y :: earlier, congrArg (· + 1) hlength, ?_⟩
    rw [List.cons_append, List.scanl_cons, hsmooth]
    rfl

end Average

/-! ## The first rows -/

section Warm

variable {α β : Type*}

/-- The rows from the one on that is the `minPeriods`-th after `seen` others. -/
def warmFrom (minPeriods seen : ℕ) : List α → Series α
  | [] => []
  | x :: rest =>
    (if minPeriods ≤ seen + 1 then some x else none) :: warmFrom minPeriods (seen + 1) rest

/-- The rows from the `minPeriods`-th one on. -/
def warm (minPeriods : ℕ) (xs : List α) : Series α := warmFrom minPeriods 0 xs

variable {minPeriods seen : ℕ} {xs : List α}

theorem warmFrom_map (f : α → β) :
    warmFrom minPeriods seen (xs.map f) = (warmFrom minPeriods seen xs).map (Option.map f) := by
  induction xs generalizing seen with
  | nil => rfl
  | cons x xs ih =>
    rw [List.map_cons, warmFrom, warmFrom, List.map_cons, ih]
    split_ifs <;> rfl

theorem getElem?_warmFrom (i : ℕ) : (warmFrom minPeriods seen xs)[i]? =
    xs[i]?.map fun x => if minPeriods ≤ seen + i + 1 then some x else none := by
  induction xs generalizing seen i with
  | nil => rfl
  | cons x xs ih =>
    cases i with
    | zero => rfl
    | succ i =>
      rw [warmFrom, List.getElem?_cons_succ, List.getElem?_cons_succ, ih,
        Nat.add_right_comm seen 1 i]
      rfl

theorem getElem?_warm (i : ℕ) : (warm minPeriods xs)[i]? =
    xs[i]?.map fun x => if minPeriods ≤ i + 1 then some x else none := by
  rw [warm, getElem?_warmFrom]
  simp only [zero_add]

@[simp] theorem length_warm : (warm minPeriods xs).length = xs.length := by
  have hlength (seen : ℕ) : (warmFrom minPeriods seen xs).length = xs.length := by
    induction xs generalizing seen with
    | nil => rfl
    | cons x xs ih => rw [warmFrom, List.length_cons, ih, List.length_cons]
  exact hlength 0

theorem getLast?_warm (h : minPeriods ≤ xs.length) :
    (warm minPeriods xs).getLast? = xs.getLast?.map some := by
  rw [List.getLast?_eq_getElem?, List.getLast?_eq_getElem?, length_warm, getElem?_warm]
  cases xs with
  | nil => rfl
  | cons x xs =>
    rw [List.length_cons] at h ⊢
    simp only [Nat.add_sub_cancel, if_pos h]

theorem mem_of_mem_warm {x : α} (h : some x ∈ warm minPeriods xs) : x ∈ xs := by
  obtain ⟨i, hi⟩ := List.mem_iff_getElem?.mp h
  rw [getElem?_warm] at hi
  obtain ⟨y, hy, hx⟩ := Option.map_eq_some_iff.mp hi
  split_ifs at hx
  cases hx
  exact List.mem_of_getElem? hy

theorem mem_warm_one {x : α} (h : x ∈ xs) : some x ∈ warm 1 xs := by
  obtain ⟨i, hi⟩ := List.mem_iff_getElem?.mp h
  refine List.mem_of_getElem? (i := i) ?_
  rw [getElem?_warm, hi, Option.map_some, if_pos (Nat.le_add_left 1 i)]

theorem warm_map (f : α → β) :
    warm minPeriods (xs.map f) = (warm minPeriods xs).map (Option.map f) :=
  warmFrom_map f

theorem warm_zero (xs : List α) : warm 0 xs = xs.map some := by
  refine List.ext_getElem? fun i => ?_
  rw [getElem?_warm, List.getElem?_map]
  simp

/-- A column with a positive value has a positive average. -/
theorem exists_pos_warm_smooth {K : Type*} [Field K] [LinearOrder K] [IsStrictOrderedRing K]
    {xs : List K} (hperiods : 1 ≤ minPeriods) (hlength : minPeriods ≤ xs.length)
    (hxs : ∀ x ∈ xs, 0 ≤ x) (h : ∃ x ∈ xs, 0 < x) :
    ∃ y, some y ∈ warm minPeriods (smooth (1 / minPeriods : K) xs) ∧ 0 < y := by
  rcases hperiods.eq_or_lt with rfl | hlt
  · -- with one period the averages are the values themselves
    obtain ⟨x, hx, hpos⟩ := h
    rw [Nat.cast_one, div_one, smooth_one]
    exact ⟨x, mem_warm_one hx, hpos⟩
  · have hcast : (1 : K) < minPeriods := by exact_mod_cast hlt
    have hpos : (0 : K) < minPeriods := zero_lt_one.trans hcast
    obtain ⟨y, hy, hypos⟩ := getLast_smooth_pos (one_div_pos.mpr hpos) ((div_lt_one hpos).mpr hcast)
      hxs h
    refine ⟨y, List.mem_of_getLast? ?_, hypos⟩
    rw [getLast?_warm (by rwa [length_smooth]), hy]
    rfl

end Warm

/-! ## Columns with gaps -/

section Gaps

variable {K V W : Type*} [Field K] [AddCommGroup V] [Module K V]

/-- The average of a column and the weight of what is averaged, after one more row. A row without a
value lowers the weight. -/
def absorb (a : K) : Option (V × K) → Option V → Option (V × K)
  | none, none => none
  | none, some x => some (x, 1)
  | some (y, w), none => some (y, (1 - a) * w)
  | some (y, w), some x => some (((1 - a) * w + a)⁻¹ • (((1 - a) * w) • y + a • x), 1)

/-- The averages of the rows that follow, where `seen` values are averaged. -/
def ewmFrom (a : K) (minPeriods : ℕ) (state : Option (V × K)) (seen : ℕ) : Series V → Series V
  | [] => []
  | x :: rest =>
    let state := absorb a state x
    let seen := if x.isSome then seen + 1 else seen
    (if minPeriods ≤ seen then state.map Prod.fst else none) ::
      ewmFrom a minPeriods state seen rest

/-- The exponentially weighted averages, from the row on up to which there are `minPeriods`
values. -/
def ewm (a : K) (minPeriods : ℕ) (s : Series V) : Series V := ewmFrom a minPeriods none 0 s

variable {a : K} {minPeriods seen : ℕ} {x : V} {xs : List V}

theorem absorb_some (y x : V) : absorb a (some (y, 1)) (some x) = some (blend a y x, 1) := by
  rw [absorb, mul_one, sub_add_cancel, inv_one, one_smul]
  rfl

theorem warmFrom_scanl (y : V) : warmFrom minPeriods seen (xs.scanl (blend a) y) =
    (if minPeriods ≤ seen + 1 then some y else none) ::
      ewmFrom a minPeriods (some (y, 1)) (seen + 1) (xs.map some) := by
  induction xs generalizing y seen with
  | nil => simp [warmFrom, ewmFrom]
  | cons x xs ih =>
    rw [List.scanl_cons, warmFrom, ih, List.map_cons, ewmFrom, absorb_some]
    rfl

theorem ewm_cons_none {s : Series V} :
    ewm a minPeriods (none :: s) = none :: ewm a minPeriods s := by
  rw [ewm, ewmFrom, absorb, Option.map_none, ite_self]
  rfl

/-- A column without gaps is smoothed. -/
theorem ewm_map_some : ewm a minPeriods (xs.map some) = warm minPeriods (smooth a xs) := by
  cases xs with
  | nil => rfl
  | cons x xs =>
    rw [smooth_cons, warm, warmFrom_scanl]
    rfl

end Gaps

/-! ## Windows -/

section Windows

variable {α β γ : Type*}

/-- Each row with the one before it. -/
def lagged (xs : List α) : List (Option α × α) := (none :: xs.map some).zip xs

/-- `f` of the values of each two rows in a row. -/
def consecutive (f : α → α → β) (s : Series α) : Series β :=
  (lagged s).map fun x => x.1.join.bind fun previous => x.2.map (f previous)

/-- `f` of the `w` rows up to each row, from the first row on up to which there are so many. -/
def rolling (w : ℕ) (f : List α → Option β) (xs : List α) : Series β :=
  (List.range xs.length).map fun i =>
    if i + 1 < w then none else f ((xs.take (i + 1)).drop (i + 1 - w))

/-- A function of two columns, without a value where one of them has none. -/
def lift₂ (f : α → β → Option γ) (s : Series α) (t : Series β) : Series γ :=
  List.zipWith (fun x y => x.bind fun x => y.bind (f x)) s t

theorem lift₂_map {δ : Type*} (f : α → β → Option γ) (g : δ → α) (h : δ → β) (s : Series δ) :
    lift₂ f (s.map (Option.map g)) (s.map (Option.map h)) =
      s.map fun x => x.bind fun x => f (g x) (h x) := by
  rw [lift₂, List.zipWith_map, List.zipWith_self]
  refine List.map_congr_left fun x _ => ?_
  cases x <;> rfl

variable {w : ℕ} {f : List α → Option β} {xs : List α}

@[simp] theorem length_lagged : (lagged xs).length = xs.length := by
  rw [lagged, List.length_zip, List.length_cons, List.length_map]
  omega

@[simp] theorem length_rolling : (rolling w f xs).length = xs.length := by
  rw [rolling, List.length_map, List.length_range]

theorem getElem?_rolling {i : ℕ} (h : i < xs.length) : (rolling w f xs)[i]? =
    some (if i + 1 < w then none else f ((xs.take (i + 1)).drop (i + 1 - w))) := by
  rw [rolling, List.getElem?_map, List.getElem?_range h]
  rfl

theorem rolling_map (g : γ → α) (f : List α → Option β) (xs : List γ) :
    rolling w f (xs.map g) = rolling w (fun window => f (window.map g)) xs := by
  rw [rolling, rolling, List.length_map]
  refine List.map_congr_left fun i _ => ?_
  rw [List.map_drop, List.map_take]

theorem lift₂_rolling {δ : Type*} (h : β → γ → Option δ) (f : List α → Option β)
    (g : List α → Option γ) : lift₂ h (rolling w f xs) (rolling w g xs) =
      rolling w (fun window => (f window).bind fun x => (g window).bind (h x)) xs := by
  rw [lift₂, rolling, rolling, rolling, List.zipWith_map, List.zipWith_self]
  refine List.map_congr_left fun i _ => ?_
  split_ifs <;> rfl

end Windows

/-! ## The last value -/

section Last

variable {α : Type*} {s : Series α} {v : α}

/-- The last value there is, `dropna().iloc[-1]`. -/
def lastValid (s : Series α) : Option α := s.reduceOption.getLast?

/-- The value in the last row. -/
def current (s : Series α) : Option α := s.getLast?.join

theorem current_rolling {β : Type*} {w : ℕ} {f : List β → Option α} {xs : List β} (hne : xs ≠ [])
    (h : w ≤ xs.length) : current (rolling w f xs) = f (xs.drop (xs.length - w)) := by
  have hpos := List.length_pos_iff.mpr hne
  rw [current, List.getLast?_eq_getElem?, length_rolling, getElem?_rolling (by omega),
    Nat.sub_add_cancel hpos, if_neg (by omega), List.take_length]
  rfl

theorem lastValid_append_some : lastValid (s ++ [some v]) = some v := by
  rw [lastValid, List.reduceOption_append, List.reduceOption_singleton, Option.toList_some,
    List.getLast?_concat]

theorem lastValid_eq_of_current (h : current s = some v) : lastValid s = some v := by
  obtain rfl | ⟨s, x, rfl⟩ := s.eq_nil_or_concat'
  · cases h
  · rw [current, List.getLast?_concat, Option.join_some] at h
    rw [h]
    exact lastValid_append_some

theorem mem_of_lastValid (h : lastValid s = some v) : some v ∈ s :=
  List.reduceOption_mem_iff.mp (List.mem_of_getLast? h)

theorem lastValid_eq_none_iff : lastValid s = none ↔ ∀ x ∈ s, x = none := by
  rw [lastValid, List.getLast?_eq_none_iff, List.reduceOption, List.filterMap_eq_nil_iff]
  rfl

theorem exists_lastValid (h : some v ∈ s) : ∃ w, lastValid s = some w := by
  cases hlast : lastValid s with
  | none => cases lastValid_eq_none_iff.mp hlast _ h
  | some w => exact ⟨w, rfl⟩

theorem reduceOption_map_some (xs : List α) : (xs.map some).reduceOption = xs := by
  rw [List.reduceOption, List.filterMap_map]
  exact List.filterMap_some

theorem current_consecutive {β : Type*} {f : α → α → β} {xs rest : List α} {prev curr : α}
    (h : xs.reverse = curr :: prev :: rest) :
    current (consecutive f (xs.map some)) = some (f prev curr) := by
  have hxs : xs = rest.reverse ++ [prev, curr] := by
    rw [← List.reverse_reverse xs, h]
    simp
  have hlast : (lagged (xs.map some)).getLast? = some (some (some prev), some curr) := by
    rw [List.getLast?_eq_getElem?, length_lagged, lagged, List.getElem?_zip_eq_some, hxs]
    simp
  rw [current, consecutive, List.getLast?_map, hlast]
  rfl

/-- The last value there is belongs to the last row. -/
def UpToDate (s : Series α) : Prop := ∀ v, lastValid s = some v → current s = some v

/-- A column is up to date exactly when its last row has a value or none has. -/
theorem upToDate_iff : UpToDate s ↔ (∃ v, current s = some v) ∨ ∀ x ∈ s, x = none := by
  constructor
  · intro h
    cases hlast : lastValid s with
    | none => exact .inr (lastValid_eq_none_iff.mp hlast)
    | some v => exact .inl ⟨v, h v hlast⟩
  · rintro (⟨w, hw⟩ | hnone) v hv
    · rw [lastValid_eq_of_current hw] at hv
      rw [hw, hv]
    · rw [lastValid_eq_none_iff.mpr hnone] at hv
      cases hv

theorem current_map_some (xs : List α) : current (xs.map some) = xs.getLast? := by
  rw [current, List.getLast?_map]
  cases xs.getLast? <;> rfl

theorem upToDate_map_some (xs : List α) : UpToDate (xs.map some) := by
  rw [upToDate_iff, current_map_some]
  cases h : xs.getLast? with
  | some v => exact .inl ⟨v, rfl⟩
  | none =>
    rw [List.getLast?_eq_none_iff.mp h]
    exact .inr (List.forall_mem_nil _)

theorem current_warm {minPeriods : ℕ} {xs : List α} (h : minPeriods ≤ xs.length) :
    current (warm minPeriods xs) = xs.getLast? := by
  rw [current, getLast?_warm h]
  cases xs.getLast? <;> rfl

theorem upToDate_warm {minPeriods : ℕ} {xs : List α} (h : minPeriods ≤ xs.length) :
    UpToDate (warm minPeriods xs) := by
  rw [upToDate_iff, current_warm h]
  cases hlast : xs.getLast? with
  | some v => exact .inl ⟨v, rfl⟩
  | none =>
    rw [List.getLast?_eq_none_iff.mp hlast]
    exact .inr (List.forall_mem_nil _)

theorem upToDate_cons_none : UpToDate (none :: s) ↔ UpToDate s := by
  obtain rfl | ⟨s, x, rfl⟩ := s.eq_nil_or_concat'
  · refine iff_of_true ?_ ?_ <;> exact fun v hv => by cases hv
  · have hcurrent : current (none :: (s ++ [x])) = current (s ++ [x]) := by
      rw [current, current, ← List.cons_append, List.getLast?_concat, List.getLast?_concat]
    rw [upToDate_iff, upToDate_iff, List.forall_mem_cons, hcurrent, and_iff_right rfl]

/-- A column over windows is up to date where the length of a window decides on the value. -/
theorem upToDate_rolling {β : Type*} {w : ℕ} {xs : List β} {f : List β → Option α}
    (hlength : w ≤ xs.length)
    (hf : (∀ window, window.length = w → ∃ v, f window = some v) ∨
      ∀ window, window.length = w → f window = none) : UpToDate (rolling w f xs) := by
  rw [upToDate_iff]
  rcases hf with hsome | hnone
  · rcases eq_or_ne xs [] with rfl | hne
    · exact .inr fun x hx => by cases hx
    · rw [current_rolling hne hlength]
      exact .inl (hsome _ (by rw [List.length_drop]; omega))
  · refine .inr fun x hx => ?_
    obtain ⟨i, hi, rfl⟩ := List.mem_map.mp hx
    rw [List.mem_range] at hi
    split_ifs with hw
    · rfl
    · exact hnone _ (by rw [List.length_drop, List.length_take]; omega)

theorem current_map_bind {β : Type*} (f : α → Option β) :
    current (s.map (·.bind f)) = (current s).bind f := by
  rw [current, current, List.getLast?_map]
  rcases s.getLast? with _ | _ | v <;> rfl

theorem exists_pos_map {K V : Type*} [Zero K] [PartialOrder K] {xs : List V} {g : V → K}
    (hxs : ∀ x ∈ xs, 0 ≤ g x) (h : ∃ x ∈ xs, g x ≠ 0) :
    (∀ y ∈ xs.map g, 0 ≤ y) ∧ ∃ y ∈ xs.map g, 0 < y := by
  refine ⟨fun y hy => ?_, ?_⟩
  · obtain ⟨x, hx, rfl⟩ := List.mem_map.mp hy
    exact hxs x hx
  · obtain ⟨x, hx, hne⟩ := h
    exact ⟨g x, List.mem_map_of_mem hx, (hxs x hx).lt_of_ne' hne⟩

section Averages

variable {K V : Type*} [Field K] [LinearOrder K] [IsStrictOrderedRing K] [AddCommGroup V]
  [Module K V] {xs : List V} {n : ℕ} {g : V →ₗ[K] K}

theorem exists_warm_ne_zero (hn : 1 ≤ n) (hlength : n ≤ xs.length) (hxs : ∀ x ∈ xs, 0 ≤ g x)
    (h : ∃ x ∈ xs, g x ≠ 0) : ∃ r, some r ∈ warm n (smooth (1 / n : K) xs) ∧ g r ≠ 0 := by
  obtain ⟨hnonneg, hpos⟩ := exists_pos_map hxs h
  obtain ⟨y, hy, hypos⟩ := exists_pos_warm_smooth hn (by rwa [List.length_map]) hnonneg hpos
  rw [smooth_map, warm_map] at hy
  obtain ⟨o, ho, hsome⟩ := List.mem_map.mp hy
  obtain ⟨r, rfl, rfl⟩ := Option.map_eq_some_iff.mp hsome
  exact ⟨r, ho, hypos.ne'⟩

/-- The last average is zero only where each average is its own value. -/
theorem getLast_smooth_ne_zero (hn : 1 < n) (hxs : ∀ x ∈ xs, 0 ≤ g x) (h : ∃ x ∈ xs, g x ≠ 0) :
    ∃ r, (smooth (1 / n : K) xs).getLast? = some r ∧ g r ≠ 0 := by
  have hcast : (1 : K) < n := by exact_mod_cast hn
  have hpos : (0 : K) < n := zero_lt_one.trans hcast
  obtain ⟨hnonneg, hsome⟩ := exists_pos_map hxs h
  obtain ⟨y, hy, hypos⟩ := getLast_smooth_pos (one_div_pos.mpr hpos)
    ((div_lt_one hpos).mpr hcast) hnonneg hsome
  rw [smooth_map, List.getLast?_map] at hy
  obtain ⟨r, hr, rfl⟩ := Option.map_eq_some_iff.mp hy
  exact ⟨r, hr, hypos.ne'⟩

/-- A column of averages, with a value where a part of the average is not zero, is up to date unless
each average is a value of its own, the part of the last one is zero, and that of another is not. -/
theorem upToDate_averages_iff (hn : 1 ≤ n) (hlength : n ≤ xs.length) (hxs : ∀ x ∈ xs, 0 ≤ g x)
    {f : V → Option α} (hf : ∀ x, f x = none ↔ g x = 0) :
    UpToDate ((warm n (smooth (1 / n : K) xs)).map (·.bind f)) ↔
      ¬ (n = 1 ∧ (∃ x, xs.getLast? = some x ∧ g x = 0) ∧ ∃ x ∈ xs, g x ≠ 0) := by
  have hvalue {x : V} (h : g x ≠ 0) : ∃ v, f x = some v :=
    Option.ne_none_iff_exists'.mp fun hnone => h ((hf x).mp hnone)
  rw [upToDate_iff, current_map_bind, current_warm (by rwa [length_smooth])]
  by_cases hsome : ∃ x ∈ xs, g x ≠ 0
  · obtain ⟨r, hr, hne⟩ := exists_warm_ne_zero hn hlength hxs hsome
    have hall : ¬ ∀ x ∈ (warm n (smooth (1 / n : K) xs)).map (·.bind f), x = none := by
      intro hall
      exact hne ((hf r).mp (hall _ (List.mem_map_of_mem hr)))
    rw [or_iff_left hall, and_iff_left hsome]
    rcases hn.eq_or_lt with rfl | hlt
    · -- the averages are the values themselves
      have hlast : xs ≠ [] := List.ne_nil_of_length_pos (by omega)
      rw [Nat.cast_one, div_one, smooth_one, List.getLast?_eq_some_getLast hlast]
      simp only [Option.bind_some, true_and, Option.some.injEq, exists_eq_left', ← hf,
        Option.ne_none_iff_exists', ← ne_eq]
    · obtain ⟨r, hr, hne⟩ := getLast_smooth_ne_zero hlt hxs hsome
      rw [hr, Option.bind_some]
      exact iff_of_true (hvalue hne) fun h => hlt.ne' h.1
  · refine iff_of_true (.inr fun x hx => ?_) fun h => hsome h.2.2
    obtain ⟨o, ho, rfl⟩ := List.mem_map.mp hx
    cases o with
    | none => rfl
    | some r =>
      refine (hf r).mpr ?_
      have hmem : g r ∈ smooth (1 / n : K) (xs.map g) := by
        rw [smooth_map]
        exact List.mem_map_of_mem (mem_of_mem_warm ho)
      have hcast : (1 : K) ≤ n := by exact_mod_cast hn
      refine smooth_eq_zero (by positivity) ((div_le_one (zero_lt_one.trans_le hcast)).mpr hcast)
        (fun y hy => ?_) _ hmem
      obtain ⟨x, hx, rfl⟩ := List.mem_map.mp hy
      exact by_contra fun hne => hsome ⟨x, hx, hne⟩

end Averages

/-- A column over windows, with a value where not all of the window is `p`, is up to date unless the
last window is all `p` and not all rows are. -/
theorem upToDate_windows_iff {β : Type*} {xs : List β} {w : ℕ} {p : β → Prop} (hw : 1 ≤ w)
    (hlength : w ≤ xs.length) (hs : s.length = xs.length)
    (hrow : ∀ i o, s[i]? = some o →
      (o = none ↔ i + 1 < w ∨ ∀ x ∈ (xs.take (i + 1)).drop (i + 1 - w), p x)) :
    UpToDate s ↔ ¬ ((∀ x ∈ xs.drop (xs.length - w), p x) ∧ ∃ x ∈ xs, ¬ p x) := by
  have hcurrent : (∃ v, current s = some v) ↔ ¬ ∀ x ∈ xs.drop (xs.length - w), p x := by
    have hne : s ≠ [] := List.ne_nil_of_length_pos (by omega)
    have hlast := List.getLast?_eq_some_getLast hne
    have hnone := hrow (s.length - 1) _ (List.getLast?_eq_getElem?.symm.trans hlast)
    rw [hs, Nat.sub_add_cancel (by omega), List.take_length, or_iff_right (by omega)] at hnone
    rw [current, hlast, Option.join_some, ← Option.ne_none_iff_exists', ne_eq, hnone]
  have hall : (∀ x ∈ s, x = none) ↔ ∀ x ∈ xs, p x := by
    constructor
    · intro h x hx
      -- the first complete window with the row
      obtain ⟨j, hj, rfl⟩ := List.mem_iff_getElem.mp hx
      have hi : max j (w - 1) < s.length := by omega
      have hnone := h _ (List.getElem_mem hi)
      rw [hrow _ _ (List.getElem?_eq_getElem hi), or_iff_right (by omega)] at hnone
      refine hnone _ (List.mem_iff_getElem?.mpr ⟨j - (max j (w - 1) + 1 - w), ?_⟩)
      rw [List.getElem?_drop, List.getElem?_take_of_lt (by omega)]
      exact List.getElem?_eq_some_iff.mpr ⟨by omega, by congr 1; omega⟩
    · intro h x hx
      obtain ⟨i, hi⟩ := List.mem_iff_getElem?.mp hx
      exact (hrow i x hi).mpr
        (.inr fun y hy => h y (List.mem_of_mem_take (List.mem_of_mem_drop hy)))
  rw [upToDate_iff, hcurrent, hall, not_and_or]
  push Not
  rfl

end Last

end Series
