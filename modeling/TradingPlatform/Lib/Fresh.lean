import Mathlib

/-!
# Fresh candidates

A list of marks and candidates is read once. A marked value counts as seen from its mark on, a
candidate that has not been seen is taken and counts as seen, and the reading may stop once enough
candidates are taken.
-/

/-- A value marked as seen, or offered as a candidate. -/
inductive Offer (α : Type*)
  | mark (a : α)
  | candidate (a : α)

namespace Offer

variable {α : Type*}

/-- The marked values. -/
def marks (items : List (Offer α)) : List α :=
  items.filterMap fun
    | mark a => some a
    | candidate _ => none

/-- The offered values. -/
def candidates (items : List (Offer α)) : List α :=
  items.filterMap fun
    | mark _ => none
    | candidate a => some a

section

variable {a : α} {items before after : List (Offer α)}

@[simp] theorem marks_nil : marks ([] : List (Offer α)) = [] := rfl

@[simp] theorem marks_mark : marks (mark a :: items) = a :: marks items := rfl

@[simp] theorem marks_candidate : marks (candidate a :: items) = marks items := rfl

@[simp] theorem marks_append : marks (before ++ after) = marks before ++ marks after :=
  List.filterMap_append

@[simp] theorem candidates_nil : candidates ([] : List (Offer α)) = [] := rfl

@[simp] theorem candidates_mark : candidates (mark a :: items) = candidates items := rfl

@[simp] theorem candidates_candidate : candidates (candidate a :: items) = a :: candidates items :=
  rfl

@[simp] theorem candidates_append :
    candidates (before ++ after) = candidates before ++ candidates after :=
  List.filterMap_append

@[simp] theorem marks_map_candidate {l : List α} : marks (l.map candidate) = [] := by
  induction l with
  | nil => rfl
  | cons _ _ ih => exact ih

@[simp] theorem candidates_map_candidate {l : List α} : candidates (l.map candidate) = l := by
  induction l with
  | nil => rfl
  | cons a _ ih => exact congrArg (a :: ·) ih

end

variable [DecidableEq α]

/-- The candidates taken, when `seen` has been seen before. -/
def fresh (seen : List α) : List (Offer α) → List α
  | [] => []
  | mark a :: rest => fresh (a :: seen) rest
  | candidate a :: rest => if a ∈ seen then fresh seen rest else a :: fresh (a :: seen) rest

/-- The candidates taken after those `taken` already, until they are `limit` at least. -/
def collect (limit : ℤ) (seen taken : List α) : List (Offer α) → List α
  | [] => taken
  | mark a :: rest => collect limit (a :: seen) taken rest
  | candidate a :: rest =>
    if a ∈ seen then collect limit seen taken rest
    else
      let taken := taken ++ [a]
      if limit ≤ taken.length then taken else collect limit (a :: seen) taken rest

variable {a : α} {items before after : List (Offer α)} {seen taken : List α} {limit : ℤ}

/-- Stopping at the limit keeps the first of the candidates taken otherwise; one is always taken if
there is one. -/
theorem collect_eq : collect limit seen taken items =
    taken ++ (fresh seen items).take (max 1 (limit - taken.length)).toNat := by
  induction items generalizing seen taken with
  | nil => simp [collect, fresh]
  | cons item rest ih =>
    cases item with
    | mark a => exact ih
    | candidate a =>
      unfold collect fresh
      split
      · exact ih
      · dsimp only
        have hlength : ((taken ++ [a]).length : ℤ) = taken.length + 1 := by simp
        split
        · next hlimit =>
          have hone : (max 1 (limit - taken.length)).toNat = 1 := by omega
          rw [hone, List.take_succ_cons, List.take_zero]
        · next hlimit =>
          have hmore : (max 1 (limit - taken.length)).toNat =
              (max 1 (limit - (taken ++ [a]).length)).toNat + 1 := by omega
          rw [ih, hmore, List.take_succ_cons, List.append_assoc, List.singleton_append]

theorem not_mem_seen_of_mem_fresh (h : a ∈ fresh seen items) : a ∉ seen := by
  induction items generalizing seen with
  | nil => cases h
  | cons item rest ih =>
    cases item with
    | mark b => exact fun hs => ih h (List.mem_cons_of_mem _ hs)
    | candidate b =>
      unfold fresh at h
      split at h
      · exact ih h
      · next hb =>
        rcases List.mem_cons.mp h with rfl | h
        · exact hb
        · exact fun hs => ih h (List.mem_cons_of_mem _ hs)

theorem nodup_fresh : (fresh seen items).Nodup := by
  induction items generalizing seen with
  | nil => exact List.nodup_nil
  | cons item rest ih =>
    cases item with
    | mark b => exact ih
    | candidate b =>
      unfold fresh
      split
      · exact ih
      · exact List.nodup_cons.mpr
          ⟨fun h => not_mem_seen_of_mem_fresh h List.mem_cons_self, ih⟩

/-- What is taken depends only on which values have been seen. -/
theorem fresh_congr {seen' : List α} (h : ∀ b, b ∈ seen ↔ b ∈ seen') :
    fresh seen items = fresh seen' items := by
  induction items generalizing seen seen' with
  | nil => rfl
  | cons item rest ih =>
    have hcons (a b : α) : b ∈ a :: seen ↔ b ∈ a :: seen' := by
      simp only [List.mem_cons, h]
    cases item with
    | mark a => exact ih (hcons a)
    | candidate a =>
      unfold fresh
      simp only [h a]
      split
      · exact ih h
      · rw [ih (hcons a)]

/-- After a part of the list, its marks and its candidates have been seen. -/
theorem fresh_append : fresh seen (before ++ after) =
    fresh seen before ++ fresh (seen ++ marks before ++ candidates before) after := by
  induction before generalizing seen with
  | nil => simp [fresh]
  | cons item rest ih =>
    cases item with
    | mark a =>
      rw [List.cons_append, fresh, fresh, ih]
      congr 1
      refine fresh_congr fun b => ?_
      simp only [marks_mark, candidates_mark, List.mem_append, List.mem_cons]
      tauto
    | candidate a =>
      have hsame (seen' : List α) (hseen' : ∀ b, b ∈ seen' ↔ b = a ∨ b ∈ seen) :
          fresh (seen' ++ marks rest ++ candidates rest) after =
            fresh (seen ++ marks (candidate a :: rest) ++ candidates (candidate a :: rest))
              after := by
        refine fresh_congr fun b => ?_
        simp only [marks_candidate, candidates_candidate, List.mem_append, List.mem_cons, hseen']
        tauto
      rw [List.cons_append, fresh, fresh]
      split
      · next ha =>
        rw [ih, hsame seen fun b => ⟨.inr, fun h => h.elim (fun e => e ▸ ha) id⟩]
      · rw [ih, hsame (a :: seen) fun b => List.mem_cons, List.cons_append]

/-- A candidate that is never marked is taken. -/
theorem mem_fresh_of_candidate (h : a ∈ candidates items) (hseen : a ∉ seen)
    (hmarks : a ∉ marks items) : a ∈ fresh seen items := by
  induction items generalizing seen with
  | nil => cases h
  | cons item rest ih =>
    cases item with
    | mark b =>
      rw [marks_mark, List.mem_cons, not_or] at hmarks
      refine ih h ?_ hmarks.2
      rw [List.mem_cons, not_or]
      exact ⟨hmarks.1, hseen⟩
    | candidate b =>
      unfold fresh
      by_cases hab : a = b
      · subst hab
        rw [if_neg hseen]
        exact List.mem_cons_self
      · have hrest : a ∈ candidates rest := (List.mem_cons.mp h).resolve_left hab
        split
        · exact ih hrest hseen hmarks
        · refine List.mem_cons_of_mem _ (ih hrest ?_ hmarks)
          rw [List.mem_cons, not_or]
          exact ⟨hab, hseen⟩

/-- A candidate that is taken is offered where it has been neither marked nor offered before. -/
theorem exists_offer_of_mem_fresh (h : a ∈ fresh seen items) : ∃ before after,
    items = before ++ candidate a :: after ∧ a ∉ marks before ∧ a ∉ candidates before := by
  induction items generalizing seen with
  | nil => cases h
  | cons item rest ih =>
    cases item with
    | mark b =>
      have htaken : a ∈ fresh (b :: seen) rest := h
      have hb : a ≠ b := fun hab =>
        not_mem_seen_of_mem_fresh htaken (hab ▸ List.mem_cons_self)
      obtain ⟨before, after, rfl, hmarks, hcandidates⟩ := ih htaken
      exact ⟨mark b :: before, after, rfl, by simp [hb, hmarks], hcandidates⟩
    | candidate b =>
      by_cases hab : a = b
      · subst hab
        exact ⟨[], rest, rfl, List.not_mem_nil, List.not_mem_nil⟩
      · have hrest : ∃ seen', a ∈ fresh seen' rest := by
          unfold fresh at h
          split at h
          · exact ⟨_, h⟩
          · exact ⟨_, (List.mem_cons.mp h).resolve_left hab⟩
        obtain ⟨seen', hmem⟩ := hrest
        obtain ⟨before, after, rfl, hmarks, hcandidates⟩ := ih hmem
        exact ⟨candidate b :: before, after, rfl, hmarks, by simp [hab, hcandidates]⟩

/-- A candidate offered where it has been neither marked nor offered before is taken there. -/
theorem fresh_of_offer (hmarks : a ∉ marks before) (hcandidates : a ∉ candidates before) :
    ∃ later, fresh [] (before ++ candidate a :: after) = fresh [] before ++ a :: later := by
  have hseen : a ∉ [] ++ marks before ++ candidates before := by
    simp only [List.nil_append, List.mem_append, not_or]
    exact ⟨hmarks, hcandidates⟩
  exact ⟨_, by rw [fresh_append, fresh, if_neg hseen]⟩

theorem mem_candidates_of_mem_fresh (h : a ∈ fresh seen items) : a ∈ candidates items := by
  obtain ⟨before, after, rfl, _⟩ := exists_offer_of_mem_fresh h
  simp

/-- The candidates that are never marked, each once. -/
def unmarked (all items : List (Offer α)) : List α :=
  ((candidates items).filter (· ∉ marks all)).dedup

theorem mem_unmarked {all : List (Offer α)} :
    a ∈ unmarked all items ↔ a ∈ candidates items ∧ a ∉ marks all := by
  simp [unmarked]

/-- Every value that is marked and yet offered first is offered only after enough others. -/
def MarksLate (enough : ℕ) (items : List (Offer α)) : Prop :=
  ∀ before a after, items = before ++ candidate a :: after → a ∉ marks before → a ∈ marks after →
    enough ≤ (unmarked items before).length

theorem length_le_unmarked {all : List (Offer α)} {l : List α} (hl : l.Nodup)
    (h : ∀ b ∈ l, b ∈ fresh [] items ∧ b ∉ marks all) : l.length ≤ (unmarked all items).length :=
  (hl.subperm fun b hb =>
    mem_unmarked.mpr ⟨mem_candidates_of_mem_fresh (h b hb).1, (h b hb).2⟩).length_le

omit [DecidableEq α] in
theorem mem_take_of_split {l front back : List α} {n : ℕ} (h : l = front ++ a :: back)
    (hn : front.length < n) : a ∈ l.take n := by
  obtain ⟨k, rfl⟩ := Nat.exists_eq_add_of_lt hn
  rw [h, add_assoc, List.take_length_add_append]
  exact List.mem_append_right _ List.mem_cons_self

omit [DecidableEq α] in
/-- A list with a member of a kind splits at the first one. -/
theorem exists_first {l : List α} {p : α → Prop} (h : ∃ b ∈ l, p b) :
    ∃ front b back, l = front ++ b :: back ∧ p b ∧ ∀ c ∈ front, ¬ p c := by
  classical
  obtain ⟨b, hb, hp⟩ := h
  obtain ⟨c, hc⟩ : ∃ c, l.find? (fun b => decide (p b)) = some c :=
    Option.isSome_iff_exists.mp (List.find?_isSome.mpr ⟨b, hb, decide_eq_true hp⟩)
  obtain ⟨hpc, front, back, hl, hfront⟩ := List.find?_eq_some_iff_append.mp hc
  exact ⟨front, c, back, hl, of_decide_eq_true hpc, fun d hd => by simpa using hfront d hd⟩

/-- None of the first candidates taken is ever marked, exactly when the marked values are offered
late. -/
theorem take_fresh_disjoint_iff {enough : ℕ} :
    (∀ a ∈ (fresh [] items).take enough, a ∉ marks items) ↔ MarksLate enough items := by
  constructor
  · rintro hdisjoint before a after rfl hbefore hafter
    by_contra hfew
    rw [not_le] at hfew
    have hmark : a ∈ marks (before ++ candidate a :: after) := by simp [hafter]
    by_cases hmarked : ∃ b ∈ fresh [] before, b ∈ marks (before ++ candidate a :: after)
    · -- the first marked value that is taken comes after too few others
      obtain ⟨front, b, back, hsplit, hb, hfront⟩ := exists_first hmarked
      have hnodup : (front ++ b :: back).Nodup := hsplit ▸ nodup_fresh
      have hlength := length_le_unmarked (List.nodup_append.mp hnodup).1 fun c hc =>
        ⟨hsplit ▸ List.mem_append_left _ hc, hfront c hc⟩
      obtain ⟨later, htaken⟩ : ∃ later,
          fresh [] (before ++ candidate a :: after) = front ++ b :: later :=
        ⟨_, by rw [fresh_append, hsplit, List.append_assoc, List.cons_append]⟩
      exact hdisjoint b (mem_take_of_split htaken (hlength.trans_lt hfew)) hb
    · -- no marked value has been taken when the candidate comes, so it is taken
      have hnone : ∀ b ∈ fresh [] before, b ∉ marks (before ++ candidate a :: after) :=
        fun b hb hmarkb => hmarked ⟨b, hb, hmarkb⟩
      have hnew : a ∉ candidates before := fun ha =>
        hnone a (mem_fresh_of_candidate ha List.not_mem_nil hbefore) hmark
      obtain ⟨later, htaken⟩ := @fresh_of_offer α _ a before after hbefore hnew
      have hlength := length_le_unmarked nodup_fresh fun b hb => ⟨hb, hnone b hb⟩
      exact hdisjoint a (mem_take_of_split htaken (hlength.trans_lt hfew)) hmark
  · intro hlate a ha hmark
    -- the first marked value that is taken
    obtain ⟨front, b, back, hsplit, hb, hfront⟩ :=
      exists_first (p := (· ∈ marks items)) ⟨a, List.mem_of_mem_take ha, hmark⟩
    have hshort : front.length < enough := by
      by_contra hlong
      rw [hsplit, List.take_append_of_le_length (not_lt.mp hlong)] at ha
      exact hfront a (List.mem_of_mem_take ha) hmark
    have hmem : b ∈ fresh [] items := hsplit ▸ List.mem_append_right _ List.mem_cons_self
    obtain ⟨before, after, rfl, hbefore, hcandidates⟩ := exists_offer_of_mem_fresh hmem
    obtain ⟨later, htaken⟩ := @fresh_of_offer α _ b before after hbefore hcandidates
    have hafter : b ∈ marks after := by simpa [hbefore] using hb
    have hnodup : (front ++ b :: back).Nodup := hsplit ▸ nodup_fresh
    have hback : b ∉ back := (List.nodup_cons.mp (List.nodup_append.mp hnodup).2.1).1
    have hfront_eq : front = fresh [] before :=
      ((List.append_cons_inj_of_notMem (fun h => hfront b h hb) hback).mp
        (hsplit.symm.trans htaken)).1
    have hsub : (unmarked (before ++ candidate b :: after) before).length ≤ front.length := by
      refine ((List.nodup_dedup _).subperm fun c hc => ?_).length_le
      obtain ⟨hc, hnot⟩ := mem_unmarked.mp hc
      rw [marks_append, List.mem_append, not_or] at hnot
      exact hfront_eq ▸ mem_fresh_of_candidate hc List.not_mem_nil hnot.1
    exact absurd (hlate before b after rfl hbefore hafter) (not_le_of_gt (hsub.trans_lt hshort))

end Offer
