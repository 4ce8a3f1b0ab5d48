import TradingPlatform.Lib.Dict

/-!
# Counting into a dictionary

A tally maps each key to how often it has come. Two tallies agree exactly when the lists they count
are permutations of each other. Where one labelling of a list differs from another only by moving
items into a class of labels, the two tallies agree only if the labellings do.
-/

namespace Dict

variable {κ : Type*} [DecidableEq κ]

/-- One more of a key. -/
def bump (d : Dict κ ℕ) (k : κ) : Dict κ ℕ := d.set k (d.getD k 0 + 1)

/-- How often each key occurs. -/
def tally (ks : List κ) : Dict κ ℕ := ks.foldl bump ∅

/-- The same counts, in whatever order the keys came. -/
def SameCounts (d d' : Dict κ ℕ) : Prop := ∀ k, d.getD k 0 = d'.getD k 0

variable {d : Dict κ ℕ} {k : κ} {ks ks' : List κ}

theorem getD_bump (k' : κ) : (d.bump k').getD k 0 = d.getD k 0 + if k' = k then 1 else 0 := by
  rw [bump, getD, get?_set]
  split
  · next h => rw [h, Option.getD_some]
  · rfl

theorem getD_foldl_bump : (ks.foldl bump d).getD k 0 = d.getD k 0 + ks.count k := by
  induction ks generalizing d with
  | nil => rfl
  | cons k' ks ih =>
    rw [List.foldl_cons, ih, getD_bump, List.count_cons]
    simp only [beq_iff_eq]
    omega

@[simp] theorem getD_tally : (tally ks).getD k 0 = ks.count k :=
  getD_foldl_bump.trans (Nat.zero_add _)

theorem sameCounts_tally_iff : SameCounts (tally ks) (tally ks') ↔ ks.Perm ks' := by
  simp only [SameCounts, getD_tally, List.perm_iff_count]

/-- A labelling that takes items out of a class of labels never, and into it wherever it differs
from another one, has the same tally only if it does not differ. -/
theorem sameCounts_labels_iff {α : Type*} {f g : α → κ} {p : κ → Bool} {l : List α}
    (hmoved : ∀ x ∈ l, f x = g x ∨ p (f x) = true ∧ p (g x) = false) :
    SameCounts (tally (l.map f)) (tally (l.map g)) ↔ ∀ x ∈ l, f x = g x := by
  rw [sameCounts_tally_iff]
  refine ⟨fun hperm => ?_, fun h => by rw [List.map_congr_left h]⟩
  have hcount : ∀ l : List α, (∀ x ∈ l, f x = g x ∨ p (f x) = true ∧ p (g x) = false) →
      (l.map g).countP p + (l.countP fun x => decide (¬ f x = g x)) = (l.map f).countP p := by
    intro l hl
    induction l with
    | nil => rfl
    | cons x l ih =>
      have htail := ih fun y hy => hl y (List.mem_cons_of_mem _ hy)
      simp only [List.map_cons, List.countP_cons]
      rcases hl x List.mem_cons_self with hsame | ⟨hf, hg⟩
      · simp only [hsame, not_true_eq_false, decide_false, Bool.false_eq_true, if_false]
        omega
      · have hne : ¬ f x = g x := fun h => by simp [h, hg] at hf
        simp only [hf, hg, hne, not_false_eq_true, decide_true, if_true, Bool.false_eq_true,
          if_false]
        omega
  have hnone : (l.countP fun x => decide (¬ f x = g x)) = 0 := by
    have := hcount l hmoved
    have := hperm.countP_eq p
    omega
  intro x hx
  have hsame := List.countP_eq_zero.mp hnone x hx
  simpa using hsame

end Dict
