import Mathlib

/-!
# Averages

The average of a list of values under weights, and the bounds it inherits from the values.
-/

namespace List

variable {ι α : Type*} [Field α] [LinearOrder α] [IsStrictOrderedRing α]

/-- The average of the values under the weights. -/
def weightedMean (l : List ι) (value weight : ι → α) : α :=
  (l.map fun i => value i * weight i).sum / (l.map weight).sum

variable {l l' : List ι} {value weight : ι → α} {b : α}

omit [LinearOrder α] [IsStrictOrderedRing α] in
/-- Under equal weights the average is the sum over the number. -/
theorem weightedMean_one : l.weightedMean value (fun _ => 1) = (l.map value).sum / l.length := by
  simp [weightedMean]

omit [LinearOrder α] [IsStrictOrderedRing α] in
theorem weightedMean_perm (h : l.Perm l') : l.weightedMean value weight =
    l'.weightedMean value weight := by
  rw [weightedMean, weightedMean, (h.map _).sum_eq, (h.map _).sum_eq]

omit [LinearOrder α] [IsStrictOrderedRing α] in
theorem sum_map_mul_const : (l.map fun i => b * weight i).sum = b * (l.map weight).sum :=
  List.sum_map_mul_left ..

theorem weightedMean_le (hw : ∀ i ∈ l, 0 ≤ weight i) (hpos : 0 < (l.map weight).sum)
    (hb : ∀ i ∈ l, value i ≤ b) : l.weightedMean value weight ≤ b := by
  rw [weightedMean, div_le_iff₀ hpos, ← sum_map_mul_const]
  exact List.sum_le_sum fun i hi => mul_le_mul_of_nonneg_right (hb i hi) (hw i hi)

theorem le_weightedMean (hw : ∀ i ∈ l, 0 ≤ weight i) (hpos : 0 < (l.map weight).sum)
    (hb : ∀ i ∈ l, b ≤ value i) : b ≤ l.weightedMean value weight := by
  rw [weightedMean, le_div_iff₀ hpos, ← sum_map_mul_const]
  exact List.sum_le_sum fun i hi => mul_le_mul_of_nonneg_right (hb i hi) (hw i hi)

/-- Some weight is positive when the weights sum to a positive number. -/
theorem exists_pos_weight (hpos : 0 < (l.map weight).sum) : ∃ i ∈ l, 0 < weight i := by
  by_contra hno
  push Not at hno
  have hsum : (l.map weight).sum ≤ (l.map fun _ => (0 : α)).sum := List.sum_le_sum hno
  rw [List.sum_map_zero] at hsum
  exact absurd hpos (not_lt_of_ge hsum)

theorem sum_weight_pos (hw : ∀ i ∈ l, 0 ≤ weight i) (hpos : ∃ i ∈ l, 0 < weight i) :
    0 < (l.map weight).sum := by
  have hsum : (l.map fun _ => (0 : α)).sum < (l.map weight).sum := List.sum_lt_sum _ _ hw hpos
  rwa [List.sum_map_zero] at hsum

theorem weightedMean_lt (hw : ∀ i ∈ l, 0 ≤ weight i) (hpos : 0 < (l.map weight).sum)
    (hb : ∀ i ∈ l, value i < b) : l.weightedMean value weight < b := by
  obtain ⟨i, hi, hweight⟩ := exists_pos_weight hpos
  rw [weightedMean, div_lt_iff₀ hpos, ← sum_map_mul_const]
  exact List.sum_lt_sum _ _ (fun i hi => mul_le_mul_of_nonneg_right (hb i hi).le (hw i hi))
    ⟨i, hi, mul_lt_mul_of_pos_right (hb i hi) hweight⟩

theorem lt_weightedMean (hw : ∀ i ∈ l, 0 ≤ weight i) (hpos : 0 < (l.map weight).sum)
    (hb : ∀ i ∈ l, b < value i) : b < l.weightedMean value weight := by
  obtain ⟨i, hi, hweight⟩ := exists_pos_weight hpos
  rw [weightedMean, lt_div_iff₀ hpos, ← sum_map_mul_const]
  exact List.sum_lt_sum _ _ (fun i hi => mul_le_mul_of_nonneg_right (hb i hi).le (hw i hi))
    ⟨i, hi, mul_lt_mul_of_pos_right (hb i hi) hweight⟩

end List
