import Mathlib
import TradingPlatform.Lib.Outcome

/-!
# Reports of a count

A count that only grows is reported now and then, at times as it was a while ago.
`Reported.pairwise_concat_iff` says when such a report keeps the reports in order, and
`Reported.append_tracked` that work done one item after the other with a report before and one after
each always does.
-/

namespace Tracking

variable {α E β ε ι : Type*}

/-! ## Reports -/

section

variable [PartialOrder α] {origin count c : α} {reports : List α}

/-- What has been reported of a count since it was at its origin: nothing above it, and the count
itself once it has moved. -/
structure Reported (origin : α) (reports : List α) (count : α) : Prop where
  le : ∀ c ∈ reports, c ≤ count
  reached : count = origin ∨ count ∈ reports

theorem Reported.nil : Reported origin [] origin where
  le _ hc := absurd hc List.not_mem_nil
  reached := .inl rfl

/-- A report of an earlier count is in order exactly when the count has not moved since. -/
theorem Reported.pairwise_concat_iff (h : Reported origin reports count) (hlow : origin ≤ c)
    (hhigh : c ≤ count) :
    (reports ++ [c]).Pairwise (· ≤ ·) ↔ reports.Pairwise (· ≤ ·) ∧ c = count := by
  simp only [List.pairwise_append, List.pairwise_singleton, List.mem_singleton, forall_eq,
    true_and]
  refine and_congr_right fun _ => ⟨fun hle => hhigh.antisymm ?_, fun heq => heq ▸ h.le⟩
  rcases h.reached with hcount | hcount
  · exact hcount ▸ hlow
  · exact hle count hcount

theorem Reported.concat (h : Reported origin reports count) (hhigh : c ≤ count) :
    Reported origin (reports ++ [c]) count where
  le d hd := by
    rcases List.mem_append.mp hd with hd | hd
    · exact h.le d hd
    · exact List.mem_singleton.mp hd ▸ hhigh
  reached := h.reached.imp_right fun hcount => List.mem_append_left _ hcount

/-- The count moves on, or stays, and is reported. -/
theorem Reported.moved (h : Reported origin reports count) (hc : count ≤ c) :
    Reported origin (reports ++ [c]) c where
  le d hd := by
    rcases List.mem_append.mp hd with hd | hd
    · exact (h.le d hd).trans hc
    · exact (List.mem_singleton.mp hd).le
  reached := .inr (List.mem_append_right _ (List.mem_singleton_self c))

theorem Reported.pairwise_moved_iff (h : Reported origin reports count) (hc : count ≤ c) :
    (reports ++ [c]).Pairwise (· ≤ ·) ↔ reports.Pairwise (· ≤ ·) := by
  simp only [List.pairwise_append, List.pairwise_singleton, List.mem_singleton, forall_eq,
    true_and]
  exact and_iff_left fun d hd => (h.le d hd).trans hc

/-- Reports of a count that stays keep the order. -/
theorem Reported.stayed {more : List α} (h : Reported origin reports count)
    (hmore : ∀ c ∈ more, c = count) : Reported origin (reports ++ more) count ∧
      ((reports ++ more).Pairwise (· ≤ ·) ↔ reports.Pairwise (· ≤ ·)) := by
  induction more generalizing reports with
  | nil =>
    rw [List.append_nil]
    exact ⟨h, Iff.rfl⟩
  | cons c more ih =>
    obtain ⟨rfl, hmore⟩ := List.forall_mem_cons.mp hmore
    obtain ⟨hreported, hordered⟩ := ih (h.moved le_rfl) hmore
    rw [List.append_assoc, List.singleton_append] at hreported hordered
    exact ⟨hreported, hordered.trans (h.pairwise_moved_iff le_rfl)⟩

end

/-! ## Tracked work -/

/-- Work on one item after the other, with an event before and one after each that have the number
of items done: the events, and the results unless an item fails. -/
def tracked (before : ℕ → ι → E) (work : ι → Except ε β) (after : ℕ → β → E) :
    ℕ → List ι → List E × Except ε (List β)
  | _, [] => ([], .ok [])
  | n, a :: as =>
    match work a with
    | .error e => ([before n a], .error e)
    | .ok b =>
      let (events, results) := tracked before work after (n + 1) as
      (before n a :: after (n + 1) b :: events, results.map (b :: ·))

section

variable {before : ℕ → ι → E} {work : ι → Except ε β} {after : ℕ → β → E} {n : ℕ} {a : ι} {b : β}
  {e : ε} {as : List ι}

theorem tracked_error (h : work a = .error e) :
    tracked before work after n (a :: as) = ([before n a], .error e) := by
  simp only [tracked, h]

theorem tracked_ok (h : work a = .ok b) : tracked before work after n (a :: as) =
    (before n a :: after (n + 1) b :: (tracked before work after (n + 1) as).1,
      (tracked before work after (n + 1) as).2.map (b :: ·)) := by
  simp only [tracked, h]

/-- The events do not change what the work comes to. -/
theorem snd_tracked (n : ℕ) (as : List ι) :
    (tracked before work after n as).2 = as.mapM work := by
  induction as generalizing n with
  | nil => rfl
  | cons a as ih =>
    rw [List.mapM_cons]
    cases hwork : work a with
    | error e =>
      rw [tracked_error hwork]
      rfl
    | ok b =>
      rw [tracked_ok hwork, ih]
      cases as.mapM work <;> rfl

theorem mem_tracked {event : E} (h : event ∈ (tracked before work after n as).1) :
    (∃ m a, event = before m a) ∨ ∃ m b, event = after m b := by
  induction as generalizing n with
  | nil => cases h
  | cons a as ih =>
    cases hwork : work a with
    | error e =>
      rw [tracked_error hwork] at h
      exact .inl ⟨n, a, List.mem_singleton.mp h⟩
    | ok b =>
      rw [tracked_ok hwork] at h
      rcases List.mem_cons.mp h with rfl | h
      · exact .inl ⟨n, a, rfl⟩
      · rcases List.mem_cons.mp h with rfl | h
        · exact .inr ⟨n + 1, b, rfl⟩
        · exact ih h

variable [PartialOrder α] {origin : α} {reports : List α} {place : ℕ → α} {read : E → α}

/-- The reports of tracked work keep the order and end with the number of items done. -/
theorem Reported.append_tracked (hplace : Monotone place)
    (hbefore : ∀ n a, read (before n a) = place n) (hafter : ∀ n b, read (after n b) = place n)
    (h : Reported origin reports (place n)) : ∃ done ≤ as.length,
      (∀ results, (tracked before work after n as).2 = .ok results → done = as.length) ∧
      Reported origin (reports ++ (tracked before work after n as).1.map read)
        (place (n + done)) ∧
      ((reports ++ (tracked before work after n as).1.map read).Pairwise (· ≤ ·) ↔
        reports.Pairwise (· ≤ ·)) := by
  induction as generalizing n reports with
  | nil =>
    refine ⟨0, le_rfl, fun _ _ => rfl, ?_, ?_⟩
    · simpa only [tracked, List.map_nil, List.append_nil, Nat.add_zero] using h
    · simp only [tracked, List.map_nil, List.append_nil]
  | cons a as ih =>
    have hstarted := h.moved le_rfl
    have hstart := h.pairwise_moved_iff (le_refl (place n))
    cases hwork : work a with
    | error e =>
      rw [tracked_error hwork]
      refine ⟨0, Nat.zero_le _, (fun _ hok => by cases hok), ?_, ?_⟩
      · simpa only [List.map_cons, List.map_nil, hbefore, Nat.add_zero] using hstarted
      · simpa only [List.map_cons, List.map_nil, hbefore] using hstart
    | ok b =>
      have hstep : place n ≤ place (n + 1) := hplace n.le_succ
      obtain ⟨done, hdone, hall, hreported, hordered⟩ := ih (hstarted.moved hstep)
      have hsplit : reports ++ (tracked before work after n (a :: as)).1.map read =
          reports ++ [place n] ++ [place (n + 1)] ++
            (tracked before work after (n + 1) as).1.map read := by
        rw [tracked_ok hwork]
        simp only [List.map_cons, hbefore, hafter, List.append_assoc, List.cons_append,
          List.nil_append]
      rw [hsplit]
      refine ⟨done + 1, Nat.succ_le_succ hdone, fun results hok => ?_, ?_, ?_⟩
      · rw [tracked_ok hwork] at hok
        obtain ⟨rest, hrest, _⟩ := Except.map_eq_ok.mp hok
        rw [hall rest hrest, List.length_cons]
      · rwa [Nat.add_right_comm n 1 done] at hreported
      · exact hordered.trans ((hstarted.pairwise_moved_iff hstep).trans hstart)

end

end Tracking
