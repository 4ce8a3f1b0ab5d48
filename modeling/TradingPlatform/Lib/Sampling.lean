import Mathlib

/-!
# Sampling a list

A sample of a list is taken at regular distances, and what it is short of is drawn at random from
the rest. The elements at regular distances are never too few when the distance is the number of
elements for each one wanted.
-/

namespace Sampling

variable {α : Type*}

/-- The elements at the indices `0`, `stride`, `2 * stride` and so on. -/
def strided (stride : ℕ) (l : List α) : List α :=
  (List.range ((l.length + stride - 1) / stride)).filterMap fun i => l[i * stride]?

/-- A source of random numbers, which draws an index of a list of length `n`. -/
structure Source where
  State : Type
  below : State → (n : ℕ) → 0 < n → Fin n × State

section

variable [DecidableEq α]

/-- The elements that are not among the ones picked before, until these are `limit` at least. -/
def pickFresh (limit : ℤ) (picked : List α) : List α → List α
  | [] => picked
  | a :: rest =>
    let picked := if a ∈ picked then picked else picked ++ [a]
    if limit ≤ picked.length then picked else pickFresh limit picked rest

/-- The elements picked, and drawn ones of the rest while there are less than `limit`. -/
def topUp (source : Source) (limit : ℤ) (picked rest : List α) (state : source.State) : List α :=
  if h : picked.length < limit ∧ 0 < rest.length then
    let drawn := source.below state rest.length h.2
    let choice := rest.get drawn.1
    if choice ∈ picked then topUp source limit picked (rest.erase choice) drawn.2
    else topUp source limit (picked ++ [choice]) (rest.erase choice) drawn.2
  else picked
termination_by rest.length
decreasing_by
  all_goals
    rw [List.length_erase_of_mem (List.get_mem _ _)]
    omega

end

section

variable {stride : ℕ} {l : List α}

theorem mul_lt_of_lt_ceil {i n : ℕ} (hstride : 0 < stride) (h : i < (n + stride - 1) / stride) :
    i * stride < n := by
  have hle : (i + 1) * stride ≤ n + stride - 1 := (Nat.le_div_iff_mul_le hstride).mp h
  rw [Nat.add_mul, one_mul] at hle
  omega

theorem length_strided (hstride : 0 < stride) :
    (strided stride l).length = (l.length + stride - 1) / stride := by
  rw [strided, List.length_filterMap_eq_countP, List.countP_eq_length.mpr, List.length_range]
  intro i hi
  have hlt := mul_lt_of_lt_ceil hstride (List.mem_range.mp hi)
  rw [List.getElem?_eq_getElem hlt]
  rfl

theorem mem_of_mem_strided {a : α} (h : a ∈ strided stride l) : a ∈ l := by
  obtain ⟨_, _, hget⟩ := List.mem_filterMap.mp h
  exact List.mem_of_getElem? hget

theorem nodup_strided (hstride : 0 < stride) (hl : l.Nodup) : (strided stride l).Nodup := by
  refine List.Nodup.filterMap (fun i j a hi hj => ?_) List.nodup_range
  have hlt := (List.getElem?_eq_some_iff.mp hi).1
  have hsame := (List.getElem?_inj hlt hl).mp (hi.trans hj.symm)
  exact Nat.eq_of_mul_eq_mul_right hstride hsame

/-- The elements at increasing indices come in the order of the list. -/
theorem filterMap_getElem?_sublist {is : List ℕ} {k : ℕ} (his : is.Pairwise (· < ·))
    (hk : ∀ i ∈ is, k ≤ i) : (is.filterMap fun i => l[i]?).Sublist (l.drop k) := by
  induction is generalizing k with
  | nil => exact List.nil_sublist _
  | cons i is ih =>
    obtain ⟨hlt, his⟩ := List.pairwise_cons.mp his
    have hrest := ih his hlt
    have hdrop : (l.drop i).Sublist (l.drop k) :=
      List.drop_sublist_drop_left l (hk i List.mem_cons_self)
    refine List.Sublist.trans ?_ hdrop
    cases hget : l[i]? with
    | none =>
      rw [List.filterMap_cons_none hget]
      exact hrest.trans (List.drop_sublist_drop_left l (Nat.le_succ i))
    | some a =>
      rw [List.filterMap_cons_some hget]
      obtain ⟨hi, rfl⟩ := List.getElem?_eq_some_iff.mp hget
      rw [List.drop_eq_getElem_cons hi]
      exact hrest.cons_cons _

theorem strided_sublist (hstride : 0 < stride) : (strided stride l).Sublist l := by
  have hindices : strided stride l = ((List.range ((l.length + stride - 1) / stride)).map
      (· * stride)).filterMap fun i => l[i]? := by
    rw [List.filterMap_map]
    rfl
  rw [hindices]
  refine filterMap_getElem?_sublist ?_ fun i _ => Nat.zero_le i
  exact List.pairwise_map.mpr (List.pairwise_lt_range.imp fun hij =>
    Nat.mul_lt_mul_of_pos_right hij hstride)

/-- The first element is always among the ones at regular distances. -/
theorem head?_strided (hstride : 0 < stride) : (strided stride l).head? = l.head? := by
  cases l with
  | nil => rw [List.sublist_nil.mp (strided_sublist hstride)]
  | cons a l =>
    have hceil : 0 < ((a :: l).length + stride - 1) / stride :=
      Nat.div_pos (by rw [List.length_cons]; omega) hstride
    obtain ⟨n, hn⟩ := Nat.exists_eq_add_one_of_ne_zero hceil.ne'
    rw [strided, hn, List.range_succ_eq_map, List.filterMap_cons_some (b := a)]
    · rfl
    · rw [Nat.zero_mul]
      rfl

/-- With a stride greater than `l.length / limit` there are no more than `limit` of them. -/
theorem length_strided_le {limit : ℕ} (hstride : 0 < stride) (h : l.length < limit * stride) :
    (strided stride l).length ≤ limit := by
  rw [length_strided hstride, ← Nat.lt_succ_iff, Nat.div_lt_iff_lt_mul hstride, Nat.succ_mul]
  omega

/-- A part of a list that ends with another element than the list leaves out the last one. -/
theorem sublist_dropLast {l' : List α} (h : l'.Sublist l) (hlast : l'.getLast? ≠ l.getLast?) :
    l'.Sublist l.dropLast := by
  rcases List.eq_nil_or_concat' l with rfl | ⟨init, last, rfl⟩
  · exact absurd (congrArg List.getLast? (List.sublist_nil.mp h)) hlast
  · rw [List.dropLast_concat]
    obtain ⟨front, back, rfl, hfront, hback⟩ := List.sublist_append_iff.mp h
    rcases List.sublist_singleton.mp hback with rfl | rfl
    · rwa [List.append_nil]
    · rw [List.getLast?_concat, List.getLast?_concat] at hlast
      exact absurd rfl hlast

/-- As many elements as the stride was made for are there. -/
theorem le_length_strided {limit : ℕ} (hstride : 0 < stride) (h : limit * stride ≤ l.length) :
    limit ≤ (strided stride l).length := by
  rw [length_strided hstride, Nat.le_div_iff_mul_le hstride]
  omega

end

variable [DecidableEq α] {limit : ℤ} {picked l : List α}

/-- Of elements that are all new the first ones are picked. -/
theorem pickFresh_eq (hpicked : (picked.length : ℤ) < limit) (hnodup : (picked ++ l).Nodup) :
    pickFresh limit picked l = (picked ++ l).take limit.toNat := by
  induction l generalizing picked with
  | nil =>
    rw [List.append_nil, List.take_of_length_le (by omega)]
    rfl
  | cons a rest ih =>
    have hnew : a ∉ picked := fun h =>
      (List.nodup_append.mp hnodup).2.2 a h a List.mem_cons_self rfl
    rw [pickFresh, if_neg hnew]
    rw [List.append_cons picked a rest] at hnodup ⊢
    split_ifs with hfull
    · rw [List.take_append_of_le_length (by omega), List.take_of_length_le]
      rw [List.length_append, List.length_singleton] at hfull ⊢
      omega
    · exact ih (not_le.mp hfull) hnodup

theorem topUp_of_full (source : Source) (rest : List α) (state : source.State)
    (h : limit ≤ picked.length) : topUp source limit picked rest state = picked := by
  rw [topUp, dif_neg fun hshort => absurd hshort.1 (not_lt.mpr h)]

end Sampling
