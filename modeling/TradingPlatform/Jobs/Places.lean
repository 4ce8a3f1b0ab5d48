import TradingPlatform.Jobs.Queue

/-!
# Where a job is

A job is in the queue, on the processing list, or carried by a reaper between its `LREM` and its
`LPUSH`, and never in two of these places. While it is carried it is in neither list: a run keeps
every unacked job in a list as long as no reaper takes one off the processing list, and not longer.
-/

namespace TradingPlatform

namespace JobQueue

variable {q q' : JobQueue} {s : QueueStep} {job job' : JobId} {i : ℕ}

/-! ## Places -/

inductive Place
  | queue
  | processing
  | carried (worker : ℕ)

def At (q : JobQueue) (job : JobId) : Place → Prop
  | .queue => job ∈ q.redis.queue
  | .processing => job ∈ q.redis.processing
  | .carried i => ∃ rest, q.position i = .pushing job rest

instance (q : JobQueue) (job : JobId) : Decidable (q.At job .queue) :=
  inferInstanceAs (Decidable (job ∈ q.redis.queue))

instance (q : JobQueue) (job : JobId) : Decidable (q.At job .processing) :=
  inferInstanceAs (Decidable (job ∈ q.redis.processing))

/-- Every job has one place at most, and once in it; the ids to come are in no place and in
nobody's hands. -/
structure Placed (q : JobQueue) : Prop where
  queue_nodup : q.redis.queue.Nodup
  processing_nodup : q.redis.processing.Nodup
  unique : ∀ {job p p'}, q.At job p → q.At job p' → p = p'
  drawn : ∀ {job p}, q.At job p → job < q.uuid
  held : ∀ h ∈ q.holdings, h.job < q.uuid

theorem Placed.ne_of_at (h : q.Placed) {p p' : Place} (hp : q.At job p) (hp' : q.At job' p')
    (hne : p ≠ p') : job' ≠ job :=
  fun heq => hne (h.unique hp (heq ▸ hp'))

/-- One job moves to a place of its own; the others stay where they are, or leave. -/
theorem Placed.move (h : q.Placed) {t : Place} (hqueue : q'.redis.queue.Nodup)
    (hprocessing : q'.redis.processing.Nodup) (huuid : q.uuid ≤ q'.uuid) (hjob : job < q'.uuid)
    (hat : ∀ {job' p}, q'.At job' p → q.At job' p ∧ job' ≠ job ∨ job' = job ∧ p = t)
    (hheld : ∀ h ∈ q'.holdings, h.job = job ∨ ∃ h' ∈ q.holdings, h'.job = h.job) : q'.Placed where
  queue_nodup := hqueue
  processing_nodup := hprocessing
  unique hp hp' := by
    rcases hat hp with ⟨hp, hne⟩ | ⟨rfl, rfl⟩
    · rcases hat hp' with ⟨hp', _⟩ | ⟨heq, _⟩
      · exact h.unique hp hp'
      · exact absurd heq hne
    · rcases hat hp' with ⟨_, hne⟩ | ⟨_, rfl⟩
      · exact absurd rfl hne
      · rfl
  drawn hp := by
    rcases hat hp with ⟨hp, _⟩ | ⟨rfl, _⟩
    · exact (h.drawn hp).trans_le huuid
    · exact hjob
  held holding hh := by
    rcases hheld holding hh with heq | ⟨holding', hh', heq⟩
    · rwa [heq]
    · exact heq ▸ (h.held holding' hh').trans_le huuid

/-- Jobs stay where they are, or leave. -/
theorem Placed.stay (h : q.Placed) (hqueue : q'.redis.queue.Nodup)
    (hprocessing : q'.redis.processing.Nodup) (huuid : q'.uuid = q.uuid)
    (hat : ∀ {job p}, q'.At job p → q.At job p)
    (hheld : ∀ h ∈ q'.holdings, ∃ h' ∈ q.holdings, h'.job = h.job) : q'.Placed where
  queue_nodup := hqueue
  processing_nodup := hprocessing
  unique hp hp' := h.unique (hat hp) (hat hp')
  drawn hp := huuid ▸ h.drawn (hat hp)
  held holding hh := by
    obtain ⟨holding', hh', heq⟩ := hheld holding hh
    exact heq ▸ huuid ▸ h.held holding' hh'

/-- A worker moves to a position at which it carries nothing. -/
theorem At.of_moveTo {at' : WorkerAt} {p : Place} (hp : (q.moveTo i at').At job p)
    (hat' : ∀ job rest, at' ≠ .pushing job rest) : q.At job p := by
  cases p with
  | queue => exact hp
  | processing => exact hp
  | carried i' =>
    obtain ⟨rest, hp⟩ := hp
    exact ⟨rest, position_of_moveTo hp (hat' _ _)⟩

theorem loop_ne_pushing {jobs : List JobId} {rest : List JobId} :
    WorkerAt.loop jobs ≠ .pushing job rest := by
  cases jobs <;> simp [WorkerAt.loop]

theorem mem_setLeased {holdings : List Holding} {h : Holding}
    (hh : h ∈ holdings.map (Holding.setLeased i job)) :
    ∃ h' ∈ holdings, h'.worker = h.worker ∧ h'.job = h.job ∧ h'.dequeuedAt = h.dequeuedAt ∧
      (h.leased → h'.leased ∨ h.job = job) := by
  obtain ⟨h', hh', rfl⟩ := List.mem_map.mp hh
  refine ⟨h', hh', ?_⟩
  simp only [Holding.setLeased]
  split
  · next heq => exact ⟨rfl, rfl, rfl, fun _ => .inr heq.2⟩
  · exact ⟨rfl, rfl, rfl, .inl⟩

/-- A new job is on the queue and nowhere else. -/
theorem Placed.of_enqueue (h : q.Placed) :
    { q with redis := q.redis.lpush q.uuid, uuid := q.uuid + 1 }.Placed := by
  have hfresh : ∀ {p}, ¬ q.At q.uuid p := fun hp => lt_irrefl _ (h.drawn hp)
  refine h.move (t := .queue) (List.nodup_cons.mpr ⟨hfresh (p := .queue), h.queue_nodup⟩)
    h.processing_nodup (Nat.le_succ _) (Nat.lt_succ_self _) ?_ fun h' hh' => .inr ⟨h', hh', rfl⟩
  intro job p hp
  have hold : ∀ {p}, q.At job p → q.At job p ∧ job ≠ q.uuid ∨ job = q.uuid ∧ p = .queue :=
    fun hp => .inl ⟨hp, fun heq => hfresh (heq ▸ hp)⟩
  cases p with
  | queue =>
    rcases List.mem_cons.mp hp with rfl | hp
    · exact .inr ⟨rfl, rfl⟩
    · exact hold (p := .queue) hp
  | processing => exact hold (p := .processing) hp
  | carried i => exact hold (p := .carried i) hp

/-- A job that is dequeued moves to the processing list. -/
theorem Placed.of_dequeue (h : q.Placed) {rest : List JobId}
    (hqueue : q.redis.queue = rest ++ [job]) :
    (q.dequeued i job
      { q.redis with queue := rest, processing := job :: q.redis.processing }).Placed := by
  have hin : q.At job .queue := by simp [At, hqueue]
  have hnodup : (rest ++ [job]).Nodup := hqueue ▸ h.queue_nodup
  have hrest : job ∉ rest := fun hmem =>
    (List.nodup_append.mp hnodup).2.2 _ hmem _ (List.mem_singleton_self job) rfl
  have hnew : ¬ q.At job .processing := fun hp => nomatch h.unique hin hp
  refine h.move (t := .processing) (List.nodup_append.mp hnodup).1
    (List.nodup_cons.mpr ⟨hnew, h.processing_nodup⟩) le_rfl (h.drawn hin) ?_ ?_
  · intro job' p hp
    cases p with
    | queue =>
      have hp : job' ∈ rest := hp
      exact .inl ⟨by simp [At, hqueue, hp], fun heq => hrest (heq ▸ hp)⟩
    | processing =>
      rcases List.mem_cons.mp hp with rfl | hp
      · exact .inr ⟨rfl, rfl⟩
      · exact .inl ⟨hp, fun heq => hnew (heq ▸ hp)⟩
    | carried i' =>
      have hp : q.At job' (.carried i') := At.of_moveTo hp (by simp)
      exact .inl ⟨hp, h.ne_of_at hin hp (by simp)⟩
  · intro h' hh'
    rcases List.mem_cons.mp hh' with rfl | hh'
    · exact .inl rfl
    · exact .inr ⟨h', hh', rfl⟩

/-- A job that is taken off the processing list is carried by the worker that reclaims it. -/
theorem Placed.of_remove (h : q.Placed) {rest : List JobId} (hmem : job ∈ q.redis.processing) :
    ({ q with redis := q.redis.lrem job }.moveTo i (.pushing job rest)).Placed := by
  have hin : q.At job .processing := hmem
  refine h.move (t := .carried i) h.queue_nodup (h.processing_nodup.erase _) le_rfl
    (h.drawn hin) ?_ fun h' hh' => .inr ⟨h', hh', rfl⟩
  intro job' p hp
  cases p with
  | queue =>
    have hp : q.At job' .queue := hp
    exact .inl ⟨hp, h.ne_of_at hin hp (by simp)⟩
  | processing =>
    have hp := (h.processing_nodup.mem_erase_iff).mp hp
    exact .inl ⟨hp.2, hp.1⟩
  | carried i' =>
    obtain ⟨rest', hp⟩ := hp
    rw [position_moveTo] at hp
    split at hp
    · next heq =>
      cases hp
      exact .inr ⟨rfl, by rw [heq]⟩
    · have hp : q.At job' (.carried i') := ⟨rest', hp⟩
      exact .inl ⟨hp, h.ne_of_at hin hp (by simp)⟩

/-- A job that is carried goes back to the queue. -/
theorem Placed.of_push (h : q.Placed) {rest : List JobId} (hat : q.position i = .pushing job rest) :
    (q.pushed i job rest).Placed := by
  have hin : q.At job (.carried i) := ⟨rest, hat⟩
  have hnew : ¬ q.At job .queue := fun hp => nomatch h.unique hin hp
  refine h.move (t := .queue) (List.nodup_cons.mpr ⟨hnew, h.queue_nodup⟩) h.processing_nodup
    le_rfl (h.drawn hin) ?_ fun h' hh' => .inr ⟨h', hh', rfl⟩
  intro job' p hp
  cases p with
  | queue =>
    rcases List.mem_cons.mp hp with rfl | hp
    · exact .inr ⟨rfl, rfl⟩
    · exact .inl ⟨hp, fun heq => hnew (heq ▸ hp)⟩
  | processing =>
    have hp : q.At job' .processing := hp
    exact .inl ⟨hp, h.ne_of_at hin hp (by simp)⟩
  | carried i' =>
    obtain ⟨rest', hp⟩ := hp
    rw [position_pushed] at hp
    split at hp
    · exact absurd hp loop_ne_pushing
    · next hne =>
      have hp : q.At job' (.carried i') := ⟨rest', hp⟩
      exact .inl ⟨hp, h.ne_of_at hin hp fun heq => hne (Place.carried.inj heq).symm⟩

theorem Placed.executes (h : q.Placed) (hs : q.Executes s q') : q'.Placed := by
  have same : ∀ h' ∈ q.holdings, ∃ h'' ∈ q.holdings, h''.job = h'.job :=
    fun h' hh' => ⟨h', hh', rfl⟩
  cases hs with
  | skip => exact h
  | tick =>
    refine h.stay h.queue_nodup h.processing_nodup rfl ?_ same
    intro _ p hp
    cases p <;> exact hp
  | enqueue => exact h.of_enqueue
  | dequeue _ hqueue => exact h.of_dequeue hqueue
  | list =>
    refine h.stay h.queue_nodup h.processing_nodup rfl ?_ same
    intro _ p hp
    cases p with
    | queue | processing => exact hp
    | carried i' =>
      obtain ⟨rest, hp⟩ := hp
      rw [position_listed] at hp
      split at hp
      · exact absurd hp loop_ne_pushing
      · exact ⟨rest, hp⟩
  | ack =>
    refine h.stay h.queue_nodup (h.processing_nodup.filter _) rfl ?_ ?_
    · intro _ p hp
      cases p with
      | processing => exact List.mem_of_mem_filter hp
      | queue | carried => exact hp
    · exact fun h' hh' => same h' (List.mem_of_mem_filter hh')
  | setLease =>
    refine h.stay h.queue_nodup h.processing_nodup rfl ?_ ?_
    · exact fun hp => At.of_moveTo hp (by simp)
    · intro h' hh'
      obtain ⟨h'', hh'', _, hjob, _⟩ := mem_setLeased hh'
      exact ⟨h'', hh'', hjob⟩
  | pass =>
    exact h.stay h.queue_nodup h.processing_nodup rfl
      (fun hp => At.of_moveTo hp fun _ _ => loop_ne_pushing) same
  | reclaim =>
    exact h.stay h.queue_nodup h.processing_nodup rfl
      (fun hp => At.of_moveTo hp (by simp)) same
  | remove _ hmem => exact h.of_remove hmem
  | gone =>
    exact h.stay h.queue_nodup h.processing_nodup rfl
      (fun hp => At.of_moveTo hp fun _ _ => loop_ne_pushing) same
  | push hat => exact h.of_push hat
  | crash i =>
    exact h.stay h.queue_nodup h.processing_nodup rfl
      (fun hp => At.of_moveTo hp (by simp)) same

theorem Placed.start (now : ℤ) : (start now).Placed where
  queue_nodup := List.nodup_nil
  processing_nodup := List.nodup_nil
  unique {job p p'} hp hp' := by
    cases p with
    | queue | processing => exact nomatch hp
    | carried i => obtain ⟨_, hp⟩ := hp; exact nomatch hp
  drawn {job p} hp := by
    cases p with
    | queue | processing => exact nomatch hp
    | carried i => obtain ⟨_, hp⟩ := hp; exact nomatch hp
  held h hh := nomatch hh

/-! ## Jobs that are not lost -/

/-- Every job enqueued and not acked is in the queue or on the processing list. -/
def Kept (q : JobQueue) : Prop :=
  ∀ job < q.uuid, job ∉ q.acked → q.At job .queue ∨ q.At job .processing

/-- The step is a reaper's `LREM` that takes the job off the processing list. -/
def Reclaims (q : JobQueue) (s : QueueStep) (job : JobId) : Prop :=
  ∃ i rest, s = .next i ∧ q.position i = .reclaiming job rest ∧ q.At job .processing

theorem Kept.mono (h : q.Kept) (huuid : q'.uuid = q.uuid) (hacked : q.acked ⊆ q'.acked)
    (hat : ∀ {job}, job ∉ q'.acked → q.At job .queue ∨ q.At job .processing →
      q'.At job .queue ∨ q'.At job .processing) : q'.Kept := by
  intro job hjob hnot
  exact hat hnot (h job (huuid ▸ hjob) fun hmem => hnot (hacked hmem))

theorem Kept.executes (h : q.Kept) (hs : q.Executes s q')
    (hreclaims : ∀ job, q.Reclaims s job → job ∈ q.acked) : q'.Kept := by
  cases hs with
  | skip => exact h
  | tick => exact h.mono rfl (List.Subset.refl _) fun _ => id
  | enqueue =>
    intro job hjob hnot
    rcases Nat.lt_succ_iff_lt_or_eq.mp hjob with hjob | rfl
    · exact (h job hjob hnot).imp_left (List.mem_cons_of_mem _)
    · exact .inl List.mem_cons_self
  | @dequeue i job rest hidle hqueue =>
    refine h.mono rfl (List.Subset.refl _) ?_
    intro job' _ hin
    rcases hin with hin | hin
    · rw [At, hqueue, List.mem_append, List.mem_singleton] at hin
      rcases hin with hin | rfl
      · exact .inl hin
      · exact .inr List.mem_cons_self
    · exact .inr (List.mem_cons_of_mem _ hin)
  | list => exact h.mono rfl (List.Subset.refl _) fun _ => id
  | @ack holding hidle hh =>
    refine h.mono rfl (List.subset_cons_self _ _) fun hnot hin => hin.imp_right fun hin => ?_
    refine List.mem_filter.mpr ⟨hin, decide_eq_true ?_⟩
    rintro rfl
    exact hnot List.mem_cons_self
  | setLease => exact h.mono rfl (List.Subset.refl _) fun _ => id
  | pass => exact h.mono rfl (List.Subset.refl _) fun _ => id
  | reclaim => exact h.mono rfl (List.Subset.refl _) fun _ => id
  | @remove i job rest hat hmem =>
    refine h.mono rfl (List.Subset.refl _) fun hnot hin => hin.imp_right fun hin => ?_
    refine (List.mem_erase_of_ne ?_).mpr hin
    rintro rfl
    exact hnot (hreclaims _ ⟨i, rest, rfl, hat, hmem⟩)
  | gone => exact h.mono rfl (List.Subset.refl _) fun _ => id
  | push => exact h.mono rfl (List.Subset.refl _) fun _ hin => hin.imp_left (List.mem_cons_of_mem _)
  | crash => exact h.mono rfl (List.Subset.refl _) fun _ => id

/-- A job that is reclaimed is in neither list. -/
theorem Placed.not_kept (h : q.Placed) (hreclaims : q.Reclaims s job) (hacked : job ∉ q.acked) :
    ¬ (q.step s).Kept := by
  obtain ⟨i, rest, rfl, hat, hin⟩ := hreclaims
  have hmem : job ∈ q.redis.processing := hin
  have hstep : q.step (.next i) =
      { q with redis := q.redis.lrem job }.moveTo i (.pushing job rest) := by
    simp only [step, hat, removed, if_pos hmem]
  rw [hstep]
  intro hkept
  rcases hkept job (h.drawn hin) hacked with hqueue | hprocessing
  · have hqueue : q.At job .queue := hqueue
    cases h.unique hin hqueue
  · exact h.processing_nodup.not_mem_erase hprocessing

/-- No command leaves an unacked job in neither list if and only if no reaper ever takes an unacked
job off the processing list. -/
theorem along_kept_iff (now : ℤ) (steps : List QueueStep) :
    Run.Along step (fun q s => (q.step s).Kept) (start now) steps ↔
      Run.Along step (fun q s => ∀ job, q.Reclaims s job → job ∈ q.acked) (start now) steps := by
  refine Run.along_iff (I := fun q => q.Placed ∧ q.Kept) (D := fun _ _ => True) ?_ ?_
    ⟨.start now, fun _ hjob => nomatch hjob⟩ Run.along_true
  · intro q s h _ hC
    exact ⟨h.1.executes (q.step_executes s), h.2.executes (q.step_executes s) hC⟩
  · intro q s h _
    constructor
    · intro hkept job hreclaims
      by_contra hacked
      exact h.1.not_kept hreclaims hacked hkept
    · exact h.2.executes (q.step_executes s)

/-- A worker crashes with a job, its lease runs out, and the reaper that takes the job off the
processing list crashes before it puts it back. -/
theorem not_along_kept : ¬ ∀ (now : ℤ) (steps : List QueueStep),
    Run.Along step (fun q s => (q.step s).Kept) (start now) steps := by
  intro h
  have hrun := h 0 [.enqueue, .dequeue 0, .next 0, .crash 0, .tick 900000000, .requeueStale 1,
    .next 1, .next 1, .crash 1]
  obtain ⟨-, -, -, -, -, -, -, -, hlost, -⟩ := hrun
  have hlost := hlost 0 (by decide +kernel) (by decide +kernel)
  revert hlost
  decide +kernel

end JobQueue

end TradingPlatform
