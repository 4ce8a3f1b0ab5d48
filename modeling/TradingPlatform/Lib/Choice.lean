import Mathlib

/-!
# The choice of a greatest element

`List.argmax` takes the first of the elements whose value is greatest.
-/

namespace List

variable {α β γ : Type*} [LinearOrder β]

theorem argmax_map (g : γ → α) (f : α → β) (l : List γ) :
    (l.map g).argmax f = (l.argmax (f ∘ g)).map g := by
  induction l using List.reverseRecOn with
  | nil => rfl
  | append_singleton l a ih =>
    rw [List.map_append, List.map_singleton, List.argmax_concat, List.argmax_concat, ih]
    cases l.argmax (f ∘ g) with
    | none => rfl
    | some m =>
      change (if f (g m) < f (g a) then some (g a) else some (g m)) =
        Option.map g (if f (g m) < f (g a) then some a else some m)
      split <;> rfl

/-- Where the elements with `p` share the greatest value, the first of them is the choice. -/
theorem argmax_eq_find? [DecidableEq α] {l : List α} {f : α → β} {p : α → Bool} {c : β}
    (hp : ∀ a ∈ l, p a → f a = c) (hn : ∀ a ∈ l, ¬ p a → f a < c) (hsome : ∃ a ∈ l, p a) :
    l.argmax f = l.find? p := by
  obtain ⟨q, hq⟩ := Option.isSome_iff_exists.mp (List.find?_isSome.mpr hsome)
  rw [hq]
  obtain ⟨hpq, before, after, rfl, hbefore⟩ := List.find?_eq_some_iff_append.mp hq
  have hmem : q ∈ before ++ q :: after := List.mem_append_right _ List.mem_cons_self
  refine List.argmax_eq_some_iff.mpr ⟨hmem, fun a ha => ?_, fun a ha hle => ?_⟩
  · rw [hp q hmem hpq]
    by_cases hpa : p a
    · exact (hp a ha hpa).le
    · exact (hn a ha hpa).le
  · have hpa : p a := by
      by_contra hpa
      exact absurd ((hp q hmem hpq).symm.trans_le hle) (hn a ha hpa).not_ge
    have hnot : ∀ b, p b → b ∉ before := fun b hb hin => by simpa [hb] using hbefore b hin
    rw [List.idxOf_append_of_notMem (hnot q hpq), List.idxOf_append_of_notMem (hnot a hpa),
      List.idxOf_cons_self]
    omega

end List
