import Mathlib

/-!
# Falls from a peak

A fall of a curve goes from a positive value to one at the same place or later, and is measured in
percent of the value it goes from. A single pass that keeps the greatest value so far finds the
greatest fall of a curve of values that are not negative: none goes deeper than the one from the
peak.
-/

namespace Drawdown

variable {K : Type*} [Field K]

/-- A fall in percent of the value it goes from. -/
def fall (a b : K) : K := (a - b) / a * 100

theorem fall_self (a : K) : fall a a = 0 := by simp [fall]

variable [LinearOrder K]

/-- The falls of a curve. -/
def falls (curve : List K) : Set K :=
  {x | ∃ i j : ℕ, i ≤ j ∧ ∃ a ∈ curve[i]?, ∃ b ∈ curve[j]?, 0 < a ∧ x = fall a b}

/-- The peak and the greatest fall, after one value more. -/
def step (s : K × K) (value : K) : K × K :=
  (max s.1 value, if 0 < max s.1 value then max s.2 (fall (max s.1 value) value) else s.2)

/-- The peak is the greatest value of the curve, and the other number its greatest fall. -/
structure Tracks (curve : List K) (s : K × K) : Prop where
  peak : IsGreatest {a | a ∈ curve} s.1
  fall : IsGreatest (insert 0 (falls curve)) s.2

variable {curve rest : List K} {s : K × K} {a value x : K}

/-- A fall of a longer curve is one of the curve or goes to the last value. -/
theorem mem_falls_concat : x ∈ falls (curve ++ [value]) ↔
    x ∈ falls curve ∨ ∃ a ∈ curve ++ [value], 0 < a ∧ x = fall a value := by
  constructor
  · rintro ⟨i, j, hij, a, ha, b, hb, hpos, rfl⟩
    rcases lt_or_ge j curve.length with hj | hj
    · rw [List.getElem?_append_left (hij.trans_lt hj)] at ha
      rw [List.getElem?_append_left hj] at hb
      exact .inl ⟨i, j, hij, a, ha, b, hb, hpos, rfl⟩
    · rw [List.getElem?_append_right hj, Option.mem_def, List.getElem?_singleton] at hb
      split at hb
      · cases hb
        exact .inr ⟨a, List.mem_of_getElem? ha, hpos, rfl⟩
      · cases hb
  · rintro (⟨i, j, hij, a, ha, b, hb, hpos, rfl⟩ | ⟨a, ha, hpos, rfl⟩)
    · have hlt : ∀ {k : ℕ} {c : K}, c ∈ curve[k]? → c ∈ (curve ++ [value])[k]? := fun hc =>
        (List.getElem?_append_left (List.getElem?_eq_some_iff.mp hc).1).trans hc
      exact ⟨i, j, hij, a, hlt ha, b, hlt hb, hpos, rfl⟩
    · obtain ⟨i, hi⟩ := List.mem_iff_getElem?.mp ha
      have hle := (List.getElem?_eq_some_iff.mp hi).1
      rw [List.length_append, List.length_singleton] at hle
      exact ⟨i, curve.length, by omega, a, hi, value, by simp, hpos, rfl⟩

theorem tracks_singleton (a : K) : Tracks [a] (a, 0) := by
  refine ⟨by simp [IsGreatest, upperBounds], .inl rfl, ?_⟩
  rintro x (rfl | ⟨i, j, -, b, hb, c, hc, -, rfl⟩)
  · exact le_rfl
  · rw [List.mem_singleton.mp (List.mem_of_getElem? hb),
      List.mem_singleton.mp (List.mem_of_getElem? hc), fall_self]

/-- The greatest fall is a fall as soon as some value is positive, and zero otherwise. -/
theorem Tracks.greatest (h : Tracks curve s) :
    ((falls curve).Nonempty → IsGreatest (falls curve) s.2) ∧ (falls curve = ∅ → s.2 = 0) := by
  constructor
  · rintro ⟨x, i, j, hij, a, ha, b, hb, hpos, rfl⟩
    have hzero : (0 : K) ∈ falls curve := ⟨i, i, le_rfl, a, ha, a, ha, hpos, (fall_self a).symm⟩
    rw [← Set.insert_eq_of_mem hzero]
    exact h.fall
  · intro hnone
    have hmem := h.fall.1
    rw [hnone] at hmem
    simpa using hmem

section

variable [IsStrictOrderedRing K]

/-- A fall to a value that is not negative is greater from a greater value. -/
theorem fall_le_fall {a' : K} (hvalue : 0 ≤ value) (ha : 0 < a) (hle : a ≤ a') :
    fall a value ≤ fall a' value := by
  have hdiv : value / a' ≤ value / a := div_le_div_of_nonneg_left hvalue ha hle
  rw [fall, fall, sub_div, sub_div, div_self ha.ne', div_self (ha.trans_le hle).ne']
  linarith

theorem Tracks.step (h : Tracks curve s) (hvalue : 0 ≤ value) :
    Tracks (curve ++ [value]) (step s value) := by
  have hpeak : IsGreatest {a | a ∈ curve ++ [value]} (max s.1 value) := by
    constructor
    · rcases max_choice s.1 value with hmax | hmax
      · rw [hmax]
        exact List.mem_append_left _ h.peak.1
      · rw [hmax]
        exact List.mem_append_right _ List.mem_cons_self
    · intro a ha
      rcases List.mem_append.mp ha with hold | hnew
      · exact (h.peak.2 hold).trans (le_max_left _ _)
      · rw [List.mem_singleton.mp hnew]
        exact le_max_right _ _
  have hkept : s.2 ∈ insert 0 (falls (curve ++ [value])) :=
    Set.insert_subset_insert (fun x hx => mem_falls_concat.mpr (.inl hx)) h.fall.1
  refine ⟨hpeak, ?_⟩
  unfold Drawdown.step
  dsimp only
  split
  · next hpos =>
    constructor
    · rcases max_choice s.2 (Drawdown.fall (max s.1 value) value) with hmax | hmax
      · rw [hmax]
        exact hkept
      · rw [hmax]
        exact .inr (mem_falls_concat.mpr (.inr ⟨_, hpeak.1, hpos, rfl⟩))
    · rintro x (rfl | hx)
      · exact (h.fall.2 (.inl rfl)).trans (le_max_left _ _)
      rcases mem_falls_concat.mp hx with hold | ⟨a, ha, hapos, rfl⟩
      · exact (h.fall.2 (.inr hold)).trans (le_max_left _ _)
      · exact (fall_le_fall hvalue hapos (hpeak.2 ha)).trans (le_max_right _ _)
  · next hnone =>
    refine ⟨hkept, ?_⟩
    rintro x (rfl | hx)
    · exact h.fall.2 (.inl rfl)
    rcases mem_falls_concat.mp hx with hold | ⟨a, ha, hapos, rfl⟩
    · exact h.fall.2 (.inr hold)
    · -- without a positive peak no value is positive
      exact absurd (hapos.trans_le (hpeak.2 ha)) hnone

theorem Tracks.foldl (h : Tracks curve s) (hrest : ∀ v ∈ rest, 0 ≤ v) :
    Tracks (curve ++ rest) (rest.foldl Drawdown.step s) := by
  induction rest generalizing curve s with
  | nil => rwa [List.append_nil]
  | cons value rest ih =>
    rw [List.foldl_cons, List.append_cons]
    exact ih (h.step (hrest value List.mem_cons_self)) fun v hv =>
      hrest v (List.mem_cons_of_mem _ hv)

/-- A pass over the whole curve from its first value. -/
theorem tracks_foldl (hvalues : ∀ v ∈ a :: rest, 0 ≤ v) :
    Tracks (a :: rest) ((a :: rest).foldl Drawdown.step (a, 0)) := by
  have hfirst : Drawdown.step (a, 0) a = (a, 0) := by simp [Drawdown.step, fall_self]
  rw [List.foldl_cons, hfirst]
  exact (tracks_singleton a).foldl fun v hv => hvalues v (List.mem_cons_of_mem _ hv)

end

end Drawdown
