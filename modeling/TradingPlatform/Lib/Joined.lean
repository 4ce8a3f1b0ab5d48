import Mathlib

/-!
# Texts joined at a separator

A text whose parts do not contain the separator comes apart in one way: at its first or last
separator into a front and a rest, and at every separator into the list of the parts.
-/

namespace Joined

section Lists

variable {α : Type*} {c : α} {a b x y : List α} {ls ms : List (List α)}

theorem append_cons_inj (ha : c ∉ a) (hb : c ∉ b) (h : a ++ c :: x = b ++ c :: y) :
    a = b ∧ x = y := by
  induction a generalizing b with
  | nil =>
    cases b with
    | nil => exact ⟨rfl, (List.cons.inj h).2⟩
    | cons d b => exact absurd ((List.cons.inj h).1 ▸ List.mem_cons_self) hb
  | cons d a ih =>
    cases b with
    | nil => exact absurd ((List.cons.inj h).1 ▸ List.mem_cons_self) ha
    | cons d' b =>
      obtain ⟨rfl, hrest⟩ := List.cons.inj h
      obtain ⟨rfl, hxy⟩ := ih (List.not_mem_of_not_mem_cons ha) (List.not_mem_of_not_mem_cons hb)
        hrest
      exact ⟨rfl, hxy⟩

/-- The same at the last separator. -/
theorem append_cons_inj_of_last (hx : c ∉ x) (hy : c ∉ y) (h : a ++ c :: x = b ++ c :: y) :
    a = b ∧ x = y := by
  have hreversed := congrArg List.reverse h
  simp only [List.reverse_append, List.reverse_cons, List.append_assoc, List.singleton_append]
    at hreversed
  obtain ⟨hxy, hab⟩ := append_cons_inj (mt List.mem_reverse.mp hx) (mt List.mem_reverse.mp hy)
    hreversed
  exact ⟨List.reverse_injective hab, List.reverse_injective hxy⟩

/-- A part: it is not empty, and the separator is not in it. -/
def IsPart (c : α) (l : List α) : Prop := l ≠ [] ∧ c ∉ l

theorem intercalate_cons {l : List α} :
    [c].intercalate (l :: ls) = if ls = [] then l else l ++ c :: [c].intercalate ls := by
  cases ls with
  | nil => simp
  | cons l' ls => simp

theorem intercalate_inj (hls : ∀ l ∈ ls, IsPart c l) (hms : ∀ m ∈ ms, IsPart c m)
    (h : [c].intercalate ls = [c].intercalate ms) : ls = ms := by
  induction ls generalizing ms with
  | nil =>
    cases ms with
    | nil => rfl
    | cons m ms =>
      rw [intercalate_cons] at h
      have hm := (hms m List.mem_cons_self).1
      split at h
      · exact absurd h.symm hm
      · exact absurd h.symm (by simp)
  | cons l ls ih =>
    obtain ⟨⟨hne, hl⟩, hlRest⟩ := List.forall_mem_cons.mp hls
    cases ms with
    | nil =>
      rw [intercalate_cons] at h
      split at h
      · exact absurd h hne
      · exact absurd h (by simp)
    | cons m ms =>
      obtain ⟨⟨-, hm⟩, hmRest⟩ := List.forall_mem_cons.mp hms
      rw [intercalate_cons, intercalate_cons] at h
      split at h <;> split at h
      · next hnil hnil' => rw [h, hnil, hnil']
      · exact absurd (h ▸ List.mem_append_right m List.mem_cons_self) hl
      · exact absurd (h ▸ List.mem_append_right l List.mem_cons_self) hm
      · obtain ⟨rfl, hrest⟩ := append_cons_inj hl hm h
        rw [ih hlRest hmRest hrest]

end Lists

section Texts

variable {c : Char} {sep a b x y : String} {ls ms : List String}

/-- A text splits at its first separator in one way. -/
theorem text_inj (hsep : sep.toList = [c]) (ha : c ∉ a.toList) (hb : c ∉ b.toList)
    (h : a ++ sep ++ x = b ++ sep ++ y) : a = b ∧ x = y := by
  have hlists := congrArg String.toList h
  simp only [String.toList_append, hsep, List.append_assoc, List.singleton_append] at hlists
  obtain ⟨hab, hxy⟩ := append_cons_inj ha hb hlists
  exact ⟨String.toList_injective hab, String.toList_injective hxy⟩

/-- The same at the last separator. -/
theorem text_inj_of_last (hsep : sep.toList = [c]) (hx : c ∉ x.toList) (hy : c ∉ y.toList)
    (h : a ++ sep ++ x = b ++ sep ++ y) : a = b ∧ x = y := by
  have hlists := congrArg String.toList h
  simp only [String.toList_append, hsep, List.append_assoc, List.singleton_append] at hlists
  obtain ⟨hab, hxy⟩ := append_cons_inj_of_last hx hy hlists
  exact ⟨String.toList_injective hab, String.toList_injective hxy⟩

/-- A text is joined from its parts in one way. -/
theorem join_inj (hsep : sep.toList = [c]) (hls : ∀ l ∈ ls, IsPart c l.toList)
    (hms : ∀ m ∈ ms, IsPart c m.toList) (h : sep.intercalate ls = sep.intercalate ms) :
    ls = ms := by
  have hlists := congrArg String.toList h
  rw [String.toList_intercalate, String.toList_intercalate, hsep] at hlists
  have hparts := intercalate_inj (List.forall_mem_map.mpr hls) (List.forall_mem_map.mpr hms) hlists
  exact List.map_injective_iff.mpr (fun _ _ => String.toList_injective) hparts

end Texts

end Joined
