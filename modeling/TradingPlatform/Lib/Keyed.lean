import Mathlib

/-!
# Lists with distinct keys

A list whose elements have pairwise distinct keys behaves like a finite map: looking a key up finds
the one element that has it, and removing a key splits the list, up to order, into that element and
the rest.
-/

namespace Keyed

variable {α κ : Type*} {key : α → κ} {l : List α} {x : α}

theorem eq_of_key_eq (h : (l.map key).Nodup) {y : α} (hx : x ∈ l) (hy : y ∈ l)
    (hk : key x = key y) : x = y := List.inj_on_of_nodup_map h hx hy hk

variable [DecidableEq κ] {k : κ}

/-- The elements whose key is not `k`. -/
def remove (key : α → κ) (k : κ) (l : List α) : List α := l.filter fun x => decide (key x ≠ k)

theorem mem_remove : x ∈ remove key k l ↔ x ∈ l ∧ key x ≠ k := by simp [remove]

theorem map_key_remove :
    (remove key k l).map key = (l.map key).filter fun k' => decide (k' ≠ k) := by
  rw [remove, List.filter_map]
  rfl

theorem nodup_remove (h : (l.map key).Nodup) : ((remove key k l).map key).Nodup :=
  h.sublist (List.filter_sublist.map key)

/-- Removing an absent key changes nothing. -/
theorem remove_of_not_mem (h : k ∉ l.map key) : remove key k l = l := by
  refine List.filter_eq_self.mpr fun x hx => decide_eq_true fun hk => h ?_
  exact List.mem_map.mpr ⟨x, hx, hk⟩

theorem find?_key_eq (h : (l.map key).Nodup) (hx : x ∈ l) :
    l.find? (fun y => decide (key y = key x)) = some x := by
  cases hf : l.find? (fun y => decide (key y = key x)) with
  | none =>
    have := List.find?_eq_none.mp hf x hx
    simp at this
  | some y =>
    have hy := List.mem_of_find?_eq_some hf
    have hk : key y = key x := by simpa using List.find?_some hf
    rw [eq_of_key_eq h hy hx hk]

/-- The element with the key comes out of the list. -/
theorem perm_cons_remove (h : (l.map key).Nodup) (hx : x ∈ l) :
    l.Perm (x :: remove key (key x) l) := by
  induction l with
  | nil => cases hx
  | cons y l ih =>
    rw [List.map_cons, List.nodup_cons] at h
    by_cases hk : key y = key x
    · have hxy : y = x := by
        rcases List.mem_cons.mp hx with rfl | hx
        · rfl
        · exact absurd (List.mem_map.mpr ⟨x, hx, hk.symm⟩) h.1
      subst hxy
      have hrest : remove key (key y) (y :: l) = remove key (key y) l := by simp [remove]
      rw [hrest, remove_of_not_mem h.1]
    · have hx' : x ∈ l := by
        rcases List.mem_cons.mp hx with rfl | hx
        · exact absurd rfl hk
        · exact hx
      have hrest : remove key (key x) (y :: l) = y :: remove key (key x) l := by
        simp [remove, hk]
      rw [hrest]
      exact ((ih h.2 hx').cons y).trans (.swap x y _)

variable {M : Type*} [AddCommGroup M]

theorem sum_map_remove (g : α → M) (h : (l.map key).Nodup) (hx : x ∈ l) :
    ((remove key (key x) l).map g).sum = (l.map g).sum - g x := by
  have := ((perm_cons_remove h hx).map g).sum_eq
  rw [List.map_cons, List.sum_cons] at this
  rw [this, add_sub_cancel_left]

end Keyed
