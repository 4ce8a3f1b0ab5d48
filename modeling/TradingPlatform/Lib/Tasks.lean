import Mathlib
import TradingPlatform.Lib.Outcome

/-!
# Tasks behind a semaphore

Tasks are created all at once, take the places of a semaphore in the order of their creation and
end in any order. `work n a` is what the task with the argument `a` comes to as the `n`-th task to
end. Results are kept by task, so they are in the order of the tasks; a task that fails ends the
others.

`Pool.outcome_of_after` says what the outcome is after any order of events: the results of the work
in the order of the tasks, numbered by a permutation, or the failure of one task.
`length_le_of_after` and `exists_step` say that the tasks end, whatever the order.
-/

namespace Tasks

variable {α β ε : Type*}

/-- What happens next: the first waiting task takes a place, or the task at a place ends. -/
inductive Event
  | acquire
  | complete (place : ℕ)
  deriving DecidableEq

/-- Tasks with their arguments and numbers, the numbers of those that ended in the order they did,
and the results by number. -/
structure Pool (α β ε : Type*) where
  waiting : List (α × ℕ)
  running : List (α × ℕ) := []
  ended : List ℕ := []
  results : List (Option β)
  raised : Option ε := none

namespace Pool

def start (as : List α) : Pool α β ε where
  waiting := as.zipIdx
  results := List.replicate as.length none

variable (work : ℕ → α → Except ε β) (places : ℕ)

def step (s : Pool α β ε) : Event → Option (Pool α β ε)
  | .acquire =>
    match s.raised, s.waiting with
    | none, t :: rest =>
      if s.running.length < places then
        some { s with waiting := rest, running := s.running ++ [t] }
      else none
    | _, _ => none
  | .complete place =>
    match s.raised, s.running[place]? with
    | none, some (a, i) =>
      match work s.ended.length a with
      | .ok b => some { s with
          running := s.running.eraseIdx place
          ended := s.ended ++ [i]
          results := s.results.set i (some b) }
      | .error e => some { s with running := s.running.eraseIdx place, raised := some e }
    | _, _ => none

/-- The tasks after some events, if these can happen in their order. -/
def after (s : Pool α β ε) (events : List Event) : Option (Pool α β ε) :=
  events.foldlM (step work places) s

/-- The results in the order of the tasks, once all have ended, or the error of the one that
failed. -/
def outcome (s : Pool α β ε) : Option (Except ε (List β)) :=
  match s.raised, s.waiting, s.running with
  | some e, _, _ => some (.error e)
  | none, [], [] => some (.ok (s.results.filterMap id))
  | none, _, _ => none

/-! ## Steps -/

/-- What a step can do. -/
inductive Moves (s : Pool α β ε) : Pool α β ε → Prop
  | acquired {t : α × ℕ} {rest : List (α × ℕ)} (hwaiting : s.waiting = t :: rest)
    (hplace : s.running.length < places) :
    Moves s { s with waiting := rest, running := s.running ++ [t] }
  | completed {before later : List (α × ℕ)} {a : α} {i : ℕ} {b : β}
    (hrunning : s.running = before ++ (a, i) :: later) (hwork : work s.ended.length a = .ok b) :
    Moves s { s with
      running := before ++ later, ended := s.ended ++ [i], results := s.results.set i (some b) }
  | failed {before later : List (α × ℕ)} {a : α} {i : ℕ} {e : ε}
    (hrunning : s.running = before ++ (a, i) :: later) (hwork : work s.ended.length a = .error e) :
    Moves s { s with running := before ++ later, raised := some e }

variable {work places} {s s' : Pool α β ε} {event : Event} {events later : List Event}
  {as : List α}

theorem step_acquire (h : step work places s .acquire = some s') :
    s.raised = none ∧ s.running.length < places ∧ ∃ t rest, s.waiting = t :: rest ∧
      s' = { s with waiting := rest, running := s.running ++ [t] } := by
  simp only [step] at h
  split at h
  · next t rest hraised hwaiting =>
    split at h
    · next hplace =>
      cases h
      exact ⟨hraised, hplace, t, rest, hwaiting, rfl⟩
    · cases h
  · cases h

theorem step_complete {place : ℕ} (h : step work places s (.complete place) = some s') :
    s.raised = none ∧ ∃ a i, s.running[place]? = some (a, i) ∧
      ((∃ b, work s.ended.length a = .ok b ∧ s' = { s with
        running := s.running.eraseIdx place
        ended := s.ended ++ [i]
        results := s.results.set i (some b) }) ∨
      ∃ e, work s.ended.length a = .error e ∧
        s' = { s with running := s.running.eraseIdx place, raised := some e }) := by
  simp only [step] at h
  split at h
  · next a i hraised hplace =>
    refine ⟨hraised, a, i, hplace, ?_⟩
    split at h
    · next b hwork => exact .inl ⟨b, hwork, (Option.some.inj h).symm⟩
    · next e hwork => exact .inr ⟨e, hwork, (Option.some.inj h).symm⟩
  · cases h

theorem moves_of_step (h : step work places s event = some s') :
    s.raised = none ∧ Moves work places s s' := by
  cases event with
  | acquire =>
    obtain ⟨hraised, hplace, t, rest, hwaiting, rfl⟩ := step_acquire h
    exact ⟨hraised, .acquired hwaiting hplace⟩
  | complete place =>
    obtain ⟨hraised, a, i, hget, h⟩ := step_complete h
    obtain ⟨hlt, hget⟩ := List.getElem?_eq_some_iff.mp hget
    have hsplit : s.running = s.running.take place ++ (a, i) :: s.running.drop (place + 1) := by
      rw [← hget, ← List.drop_eq_getElem_cons hlt, List.take_append_drop]
    rw [List.eraseIdx_eq_take_drop_succ] at h
    rcases h with ⟨b, hwork, rfl⟩ | ⟨e, hwork, rfl⟩
    · exact ⟨hraised, .completed hsplit hwork⟩
    · exact ⟨hraised, .failed hsplit hwork⟩

theorem after_cons :
    after work places s (event :: events) =
      (step work places s event).bind fun s' => after work places s' events := rfl

theorem after_append :
    after work places s (events ++ later) =
      (after work places s events).bind fun s' => after work places s' later :=
  List.foldlM_append

/-- What the steps preserve holds after any order of events. -/
theorem inv_of_after {I : Pool α β ε → Prop}
    (hinv : ∀ s s', I s → s.raised = none → Moves work places s s' → I s') (h0 : I s)
    (h : after work places s events = some s') : I s' := by
  induction events generalizing s with
  | nil => exact Option.some.inj h ▸ h0
  | cons event events ih =>
    rw [after_cons] at h
    obtain ⟨s₁, hstep, h⟩ := Option.bind_eq_some_iff.mp h
    obtain ⟨hraised, hmoves⟩ := moves_of_step hstep
    exact ih (hinv s s₁ h0 hraised hmoves) h

/-! ## The tasks end -/

/-- How many steps there are left at most. -/
def remaining (s : Pool α β ε) : ℕ := 2 * s.waiting.length + s.running.length

theorem remaining_lt (h : Moves work places s s') : s'.remaining < s.remaining := by
  cases h with
  | acquired hwaiting hplace =>
    simp only [remaining, hwaiting, List.length_cons, List.length_append, List.length_nil]
    omega
  | completed hrunning hwork =>
    simp only [remaining, hrunning, List.length_cons, List.length_append]
    omega
  | failed hrunning hwork =>
    simp only [remaining, hrunning, List.length_cons, List.length_append]
    omega

theorem remaining_of_after (h : after work places s events = some s') :
    events.length + s'.remaining ≤ s.remaining := by
  induction events generalizing s with
  | nil =>
    cases h
    exact (Nat.zero_add _).le
  | cons event events ih =>
    rw [after_cons] at h
    obtain ⟨s₁, hstep, h⟩ := Option.bind_eq_some_iff.mp h
    have hlt := remaining_lt (moves_of_step hstep).2
    have hle := ih h
    rw [List.length_cons]
    omega

theorem length_le_of_after (h : after work places (start as) events = some s) :
    events.length ≤ 2 * as.length := by
  have hle := remaining_of_after h
  simp only [remaining, start, List.length_zipIdx, List.length_nil] at hle
  omega

/-- Where there are places, tasks without an outcome can go on. -/
theorem exists_step (hplaces : 0 < places) (h : s.outcome = none) :
    ∃ event, (step work places s event).isSome := by
  cases hraised : s.raised with
  | some e => simp [outcome, hraised] at h
  | none =>
    cases hrunning : s.running with
    | cons t rest =>
      refine ⟨.complete 0, ?_⟩
      simp only [step, hraised, hrunning, List.getElem?_cons_zero]
      cases work s.ended.length t.1 <;> rfl
    | nil =>
      cases hwaiting : s.waiting with
      | cons t rest => exact ⟨.acquire, by simp [step, hraised, hwaiting, hrunning, hplaces]⟩
      | nil => simp [outcome, hraised, hrunning, hwaiting] at h

theorem step_of_outcome (h : s.outcome.isSome) : step work places s event = none := by
  cases hstep : step work places s event with
  | none => rfl
  | some s' =>
    obtain ⟨hraised, hmoves⟩ := moves_of_step hstep
    cases hmoves with
    | acquired hwaiting hplace => simp [outcome, hraised, hwaiting] at h
    | completed hrunning hwork | failed hrunning hwork =>
      simp only [outcome, hraised, hrunning] at h
      split at h <;> simp_all

/-- Tasks that have started come to an outcome. -/
theorem exists_outcome (hplaces : 0 < places) (s : Pool α β ε) :
    ∃ events s', after work places s events = some s' ∧ s'.outcome.isSome := by
  induction hn : s.remaining using Nat.strong_induction_on generalizing s with
  | _ n ih =>
    subst hn
    cases hout : s.outcome with
    | some r => exact ⟨[], s, rfl, by rw [hout]; rfl⟩
    | none =>
      obtain ⟨event, hevent⟩ : ∃ event, (step work places s event).isSome :=
        exists_step hplaces hout
      obtain ⟨s₁, hstep⟩ := Option.isSome_iff_exists.mp hevent
      obtain ⟨events, s', hafter, hdone⟩ := ih _ (remaining_lt (moves_of_step hstep).2) s₁ rfl
      refine ⟨event :: events, s', ?_, hdone⟩
      rw [after_cons, hstep]
      exact hafter

/-! ## The results -/

/-- Each task waits, runs or has ended with the result of its work, and no other has. -/
structure Regular (work : ℕ → α → Except ε β) (as : List α) (s : Pool α β ε) : Prop where
  order : (s.ended ++ (s.running ++ s.waiting).map Prod.snd).Perm (List.range as.length)
  pending : ∀ t ∈ s.running ++ s.waiting, as[t.2]? = some t.1
  length : s.results.length = as.length
  results : ∀ i ∈ s.ended, ∃ a b, as[i]? = some a ∧ work (s.ended.idxOf i) a = .ok b ∧
    s.results[i]? = some (some b)

theorem regular_start (work : ℕ → α → Except ε β) (as : List α) :
    Regular work as (start as) where
  order := by
    simp only [start, List.nil_append, List.zipIdx_map_snd]
    exact List.Perm.of_eq (List.range_eq_range').symm
  pending := fun t ht => by
    simpa [start] using List.mem_zipIdx_iff_getElem?.mp ht
  length := List.length_replicate
  results := fun i hi => by cases hi

theorem Regular.acquired (h : Regular work as s) {t : α × ℕ} {rest : List (α × ℕ)}
    (hwaiting : s.waiting = t :: rest) :
    Regular work as { s with waiting := rest, running := s.running ++ [t] } := by
  have htasks : s.running ++ [t] ++ rest = s.running ++ s.waiting := by
    rw [hwaiting, List.append_assoc, List.singleton_append]
  exact { h with
    order := by
      rw [htasks]
      exact h.order
    pending := by
      rw [htasks]
      exact h.pending }

theorem Regular.completed (h : Regular work as s) {before later : List (α × ℕ)} {a : α} {i : ℕ}
    {b : β} (hrunning : s.running = before ++ (a, i) :: later)
    (hwork : work s.ended.length a = .ok b) :
    Regular work as { s with
      running := before ++ later
      ended := s.ended ++ [i]
      results := s.results.set i (some b) } := by
  have hin : (a, i) ∈ s.running ++ s.waiting := by simp [hrunning]
  have hget := h.pending _ hin
  have hnodup := h.order.nodup_iff.mpr List.nodup_range
  have hnew : i ∉ s.ended := fun hi =>
    List.disjoint_of_nodup_append hnodup hi (List.mem_map_of_mem hin)
  have hlt : i < s.results.length := h.length ▸ (List.getElem?_eq_some_iff.mp hget).1
  refine ⟨List.Perm.trans ?_ h.order, fun t ht => h.pending t ?_, ?_, fun j hj => ?_⟩
  · rw [hrunning]
    simp only [List.map_append, List.map_cons, List.append_assoc, List.cons_append,
      List.nil_append]
    exact List.Perm.append_left _ List.perm_middle.symm
  · rw [hrunning]
    simp only [List.mem_append, List.mem_cons] at ht ⊢
    tauto
  · rw [List.length_set]
    exact h.length
  · rcases List.mem_append.mp hj with hj | hj
    · obtain ⟨a', b', ha', hwork', hresult⟩ := h.results j hj
      have hne : i ≠ j := fun hij => hnew (hij ▸ hj)
      refine ⟨a', b', ha', ?_, ?_⟩
      · rwa [List.idxOf_append_of_mem hj]
      · rwa [List.getElem?_set_ne hne]
    · obtain rfl := List.mem_singleton.mp hj
      refine ⟨a, b, hget, ?_, List.getElem?_set_self hlt⟩
      rwa [List.idxOf_append_of_notMem hnew, List.idxOf_cons_self, Nat.add_zero]

/-- Either all is regular, or a task has failed. -/
def Consistent (work : ℕ → α → Except ε β) (as : List α) (s : Pool α β ε) : Prop :=
  match s.raised with
  | none => Regular work as s
  | some e => ∃ a ∈ as, ∃ n, work n a = .error e

theorem Consistent.moves (h : Consistent work as s) (hraised : s.raised = none)
    (hmoves : Moves work places s s') : Consistent work as s' := by
  have hregular : Regular work as s := by simpa only [Consistent, hraised] using h
  cases hmoves with
  | acquired hwaiting hplace => simpa only [Consistent, hraised] using hregular.acquired hwaiting
  | completed hrunning hwork =>
    simpa only [Consistent, hraised] using hregular.completed hrunning hwork
  | @failed before later a i e hrunning hwork =>
    have hget : as[i]? = some a := hregular.pending (a, i) (by simp [hrunning])
    exact ⟨a, List.mem_of_getElem? hget, _, hwork⟩

/-! ## The numbers of the tasks -/

/-- The place of a task in the order in which the tasks ended. -/
def numbering (ended : List ℕ) (i : ℕ) : ℕ := if i ∈ ended then ended.idxOf i else i

theorem numbering_bijective {ended : List ℕ} {n : ℕ} (h : ended.Perm (List.range n)) :
    Function.Bijective (numbering ended) := by
  have hmem : ∀ i, i ∈ ended ↔ i < n := fun i => h.mem_iff.trans List.mem_range
  have hlength : ended.length = n := h.length_eq.trans List.length_range
  have hnodup : ended.Nodup := h.nodup_iff.mpr List.nodup_range
  have hbound : ∀ i ∈ ended, ended.idxOf i < n := fun i hi =>
    hlength ▸ List.idxOf_lt_length_of_mem hi
  refine ⟨fun i j hij => ?_, fun j => ?_⟩
  · unfold numbering at hij
    split at hij <;> split at hij
    · next hi hj => exact (List.idxOf_inj hi).mp hij
    · next hi hj => exact absurd ((hmem j).mpr (hij ▸ hbound i hi)) hj
    · next hi hj => exact absurd ((hmem i).mpr (hij ▸ hbound j hj)) hi
    · exact hij
  · by_cases hj : j < n
    · have hlt : j < ended.length := hlength ▸ hj
      refine ⟨ended[j], ?_⟩
      rw [numbering, if_pos (List.getElem_mem hlt), hnodup.idxOf_getElem]
    · exact ⟨j, if_neg fun hin => hj ((hmem j).mp hin)⟩

/-- The results of tasks that have all ended are those of their work, in the order of the tasks. -/
theorem Regular.mapM_eq (h : Regular work as s) (hend : s.running ++ s.waiting = []) :
    ∃ σ : Equiv.Perm ℕ, (∀ i, as.length ≤ i → σ i = i) ∧
      as.zipIdx.mapM (fun (a, i) => work (σ i) a) = .ok (s.results.filterMap id) := by
  have horder : s.ended.Perm (List.range as.length) := by
    simpa only [hend, List.map_nil, List.append_nil] using h.order
  have hmem : ∀ i, i ∈ s.ended ↔ i < as.length := fun i => horder.mem_iff.trans List.mem_range
  have hsome : ∀ o ∈ s.results, o ∈ Set.range some := fun o ho => by
    obtain ⟨i, hi, rfl⟩ := List.mem_iff_getElem.mp ho
    obtain ⟨_, b, _, _, hresult⟩ := h.results i ((hmem i).mpr (h.length ▸ hi))
    exact ⟨b, (List.getElem_eq_iff hi).mpr hresult |>.symm⟩
  obtain ⟨bs, hbs⟩ : s.results ∈ Set.range (List.map some) := Set.range_list_map some ▸ hsome
  refine ⟨.ofBijective _ (numbering_bijective horder), fun i hi => ?_, ?_⟩
  · exact if_neg fun hin => absurd ((hmem i).mp hin) hi.not_gt
  · have hlength : as.length = bs.length := by rw [← h.length, ← hbs, List.length_map]
    rw [← hbs, List.filterMap_map, Function.id_comp, List.filterMap_some, Except.mapM_eq_ok,
      List.forall₂_iff_get]
    refine ⟨by rw [List.length_zipIdx, hlength], fun i hi hi' => ?_⟩
    rw [List.length_zipIdx] at hi
    obtain ⟨a, b, ha, hwork, hresult⟩ := h.results i ((hmem i).mpr hi)
    obtain ⟨_, rfl⟩ := List.getElem?_eq_some_iff.mp ha
    rw [← hbs, List.getElem?_map, List.getElem?_eq_getElem hi'] at hresult
    cases hresult
    simpa [numbering, (hmem i).mpr hi] using hwork

/-- The outcome after any order of events: the results of the work in the order of the tasks, up to
the numbers of the tasks, or the error of a task. -/
theorem outcome_of_after {r : Except ε (List β)}
    (h : after work places (start as) events = some s) (hout : s.outcome = some r) :
    (∃ σ : Equiv.Perm ℕ, (∀ i, as.length ≤ i → σ i = i) ∧
      as.zipIdx.mapM (fun (a, i) => work (σ i) a) = r) ∨
      ∃ a ∈ as, ∃ n e, work n a = .error e ∧ r = .error e := by
  have h0 : Consistent work as (start as) := regular_start work as
  have hconsistent : Consistent work as s :=
    inv_of_after (fun _ _ hs hraised hmoves => hs.moves hraised hmoves) h0 h
  cases hraised : s.raised with
  | some e =>
    obtain ⟨a, ha, n, hwork⟩ : ∃ a ∈ as, ∃ n, work n a = .error e := by
      simpa only [Consistent, hraised] using hconsistent
    simp only [outcome, hraised, Option.some.injEq] at hout
    exact .inr ⟨a, ha, n, e, hwork, hout.symm⟩
  | none =>
    have hregular : Regular work as s := by simpa only [Consistent, hraised] using hconsistent
    cases hrunning : s.running <;> cases hwaiting : s.waiting <;>
      simp only [outcome, hraised, hrunning, hwaiting, reduceCtorEq, Option.some.injEq] at hout
    obtain ⟨σ, hfix, hmap⟩ := hregular.mapM_eq (by rw [hrunning, hwaiting]; rfl)
    exact .inl ⟨σ, hfix, hmap.trans hout⟩

end Pool

end Tasks
