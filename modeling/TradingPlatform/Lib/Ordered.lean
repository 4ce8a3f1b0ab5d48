import Mathlib

/-!
# Ordered lists

In a list ordered by a key, no key is greater than that of the last element, and the elements up to
a bound are an initial stretch.
-/

namespace Ordered

variable {α β : Type*} [Preorder β] {key : α → β} {l : List α} {last x : α}

theorem key_le_getLast (hsorted : l.Pairwise fun a b => key a ≤ key b)
    (hlast : l.getLast? = some last) (hx : x ∈ l) : key x ≤ key last := by
  obtain ⟨init, rfl⟩ := List.getLast?_eq_some_iff.mp hlast
  rcases List.mem_append.mp hx with hinit | hsame
  · exact (List.pairwise_append.mp hsorted).2.2 x hinit last (List.mem_singleton_self last)
  · rw [List.mem_singleton.mp hsame]

/-- Where all that precedes an element with `p` has it, none past the initial stretch has it. -/
theorem not_of_mem_dropWhile {p : α → Bool} (hsorted : l.Pairwise fun a b => p b → p a)
    (hx : x ∈ l.dropWhile p) : ¬ p x := by
  induction l with
  | nil => cases hx
  | cons a l ih =>
    obtain ⟨hfirst, hrest⟩ := List.pairwise_cons.mp hsorted
    by_cases ha : p a
    · rw [List.dropWhile_cons_of_pos ha] at hx
      exact ih hrest hx
    · rw [List.dropWhile_cons_of_neg ha] at hx
      rcases List.mem_cons.mp hx with rfl | hx
      · exact ha
      · exact fun hpx => ha (hfirst x hx hpx)

theorem takeWhile_eq_filter {p : α → Bool} (hsorted : l.Pairwise fun a b => p b → p a) :
    l.takeWhile p = l.filter p := by
  have hearly : (l.takeWhile p).filter p = l.takeWhile p :=
    List.filter_eq_self.mpr fun _ hx => List.mem_takeWhile_imp hx
  have hlate : (l.dropWhile p).filter p = [] :=
    List.filter_eq_nil_iff.mpr fun _ hx => not_of_mem_dropWhile hsorted hx
  calc l.takeWhile p
      = (l.takeWhile p ++ l.dropWhile p).filter p := by
        rw [List.filter_append, hearly, hlate, List.append_nil]
    _ = l.filter p := by rw [List.takeWhile_append_dropWhile]

/-- Sorting a list puts its greatest element last. -/
theorem getLast?_insertionSort {γ : Type*} [LinearOrder γ] {l : List γ} {greatest : γ}
    (hmem : greatest ∈ l) (hmax : ∀ x ∈ l, x ≤ greatest) :
    (l.insertionSort (· ≤ ·)).getLast? = some greatest := by
  have hin : greatest ∈ l.insertionSort (· ≤ ·) := (List.mem_insertionSort _).mpr hmem
  obtain ⟨last, hlast⟩ := Option.isSome_iff_exists.mp
    (List.getLast?_isSome.mpr (List.ne_nil_of_mem hin))
  have hle : greatest ≤ last :=
    key_le_getLast (List.pairwise_insertionSort (· ≤ ·) l) hlast hin
  have hge : last ≤ greatest :=
    hmax last ((List.mem_insertionSort _).mp (List.mem_of_getLast? hlast))
  rw [hlast, le_antisymm hle hge]

section

variable {γ : Type*} [LinearOrder γ] {l l' : List γ}

theorem pairwise_lt_insertionSort (h : l.Nodup) : (l.insertionSort (· ≤ ·)).Pairwise (· < ·) :=
  (List.pairwise_insertionSort (· ≤ ·) l).imp₂ (fun _ _ hle hne => lt_of_le_of_ne hle hne)
    ((List.perm_insertionSort (· ≤ ·) l).nodup_iff.mpr h)

/-- A list without duplicates is sorted into what its members alone decide. -/
theorem insertionSort_congr (hl : l.Nodup) (hl' : l'.Nodup) (h : ∀ x, x ∈ l ↔ x ∈ l') :
    l.insertionSort (· ≤ ·) = l'.insertionSort (· ≤ ·) :=
  (pairwise_lt_insertionSort hl).eq_of_mem_iff (pairwise_lt_insertionSort hl') fun x => by
    rw [List.mem_insertionSort, List.mem_insertionSort, h x]

end

end Ordered
