import Mathlib.Data.Nat.Notation
import Mathlib.Logic.Relation

/-!
# Causes that come first

A relation in which every cause is of a lower rank than its effect has no cycle. Where moreover each
member of a set is a root or has a cause in the set, each is reached from a root.
-/

namespace Causality

variable {α : Type*} {r : α → α → Prop} (rank : α → ℕ)

/-- Along a path the rank goes up. -/
theorem rank_lt_of_transGen (hrank : ∀ a b, r a b → rank a < rank b) {a b : α}
    (h : Relation.TransGen r a b) : rank a < rank b := by
  induction h with
  | single hab => exact hrank _ _ hab
  | tail _ hbc ih => exact Nat.lt_trans ih (hrank _ _ hbc)

theorem acyclic (hrank : ∀ a b, r a b → rank a < rank b) (a : α) : ¬ Relation.TransGen r a a :=
  fun h => Nat.lt_irrefl _ (rank_lt_of_transGen rank hrank h)

/-- Going back from cause to cause ends at a root. -/
theorem exists_root {s root : α → Prop} (hrank : ∀ a b, r a b → rank a < rank b)
    (hcause : ∀ b, s b → root b ∨ ∃ a, s a ∧ r a b) {b : α} (hb : s b) :
    ∃ a, s a ∧ root a ∧ Relation.ReflTransGen r a b := by
  induction hn : rank b using Nat.strongRecOn generalizing b with
  | _ n ih =>
    rcases hcause b hb with hroot | ⟨a, ha, hab⟩
    · exact ⟨b, hb, hroot, .refl⟩
    · obtain ⟨a₀, ha₀, hroot, hpath⟩ := ih (rank a) (hn ▸ hrank a b hab) ha rfl
      exact ⟨a₀, ha₀, hroot, hpath.tail hab⟩

end Causality
