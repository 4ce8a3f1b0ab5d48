import TradingPlatform.Jobs.Places

/-!
# Leases

A reaper reads a lease by deleting it, so the lease of a job in the hands of a live worker is gone
after the first pass that meets it, and the next pass takes the job back. A job stays with its
worker as long as its lease is in place at every probe: it is probed once at most in the fifteen
minutes after its `BLMOVE`, and not before its `SET`; and no worker is given a job that a reaper has
found without a lease and not yet looked for on the processing list.
-/

namespace TradingPlatform

namespace JobQueue

variable {q q' : JobQueue} {s : QueueStep} {job : JobId} {i : ℕ} {h h' : Holding}
  {at' : WorkerAt}

/-- Less than the lease time has passed since the job was dequeued. -/
def Young (q : JobQueue) (h : Holding) : Prop :=
  q.now < h.dequeuedAt + seconds processingLeaseSeconds

instance (q : JobQueue) (h : Holding) : Decidable (q.Young h) := inferInstanceAs (Decidable (_ < _))

/-- The job may not be given to another worker. -/
def Protected (q : JobQueue) (h : Holding) : Prop := q.Live h.worker ∨ q.Young h

/-- A lease that is in place: the worker has set it, and no reaper has taken it since. -/
def InPlace (q : JobQueue) (h : Holding) : Prop := h.leased = true ∧ h.job ∉ q.probed

/-- What keeps a job with the worker that holds it. -/
structure Guarded (q : JobQueue) : Prop where
  placed : q.Placed
  past : ∀ h ∈ q.holdings, h.dequeuedAt ≤ q.now
  free : ∀ h ∈ q.holdings, q.Protected h → ∀ p, q.At h.job p → p = .processing
  spared : ∀ h ∈ q.holdings, q.Protected h → ∀ i rest, q.position i = .reclaiming h.job rest →
    ¬ q.At h.job .processing
  lease : ∀ h ∈ q.holdings, q.Young h → q.InPlace h → q.At h.job .processing →
    ∃ lease, q.redis.leases.get? h.job = some lease ∧
      h.dequeuedAt + seconds processingLeaseSeconds ≤ lease.expiresAt
  single : ∀ h ∈ q.holdings, ∀ h' ∈ q.holdings, q.Live h.worker → q.Live h'.worker →
    h.job = h'.job → h.worker = h'.worker

/-- The schedule a run has to keep to. A reaper that probes a job finds the lease of everyone who
may still have it in place, and a worker gets no job that a reaper is about to remove. -/
def Orderly (q : JobQueue) : QueueStep → Prop
  | .next i => ∀ job rest, q.position i = .probing job rest →
    ∀ h ∈ q.holdings, h.job = job → q.Protected h → q.Young h ∧ q.InPlace h
  | .dequeue _ => ∀ job, q.redis.queue.getLast? = some job →
    ∀ i rest, q.position i ≠ .reclaiming job rest
  | _ => True

/-- What the leases are for: no reaper puts back a job whose worker has had it for less than the
lease time, and no two live workers have the same job. -/
structure Exclusive (q : JobQueue) (s : QueueStep) : Prop where
  requeue : ∀ i job rest, s = .next i → q.position i = .pushing job rest →
    ∀ h ∈ q.holdings, h.job = job → ¬ q.Young h
  single : ∀ h ∈ (q.step s).holdings, ∀ h' ∈ (q.step s).holdings, (q.step s).Live h.worker →
    (q.step s).Live h'.worker → h.job = h'.job → h.worker = h'.worker

theorem Guarded.lease_ne_none (hq : q.Guarded) (hh : h ∈ q.holdings) (hyoung : q.Young h)
    (hplace : q.InPlace h) (hin : q.At h.job .processing) : q.redis.lease? q.now h.job ≠ none := by
  obtain ⟨lease, hget, hexpires⟩ := hq.lease h hh hyoung hplace hin
  have hlive : q.now < lease.expiresAt := lt_of_lt_of_le hyoung hexpires
  simp [RedisJobs.lease?, hget, hlive]

/-- Time passes, no worker comes back, and no job is handed out. -/
structure Ages (q q' : JobQueue) : Prop where
  holdings : ∀ h' ∈ q'.holdings, ∃ h ∈ q.holdings, h.worker = h'.worker ∧ h.job = h'.job ∧
    h.dequeuedAt = h'.dequeuedAt
  live : ∀ i, q'.Live i → q.Live i
  now : q.now ≤ q'.now

theorem Ages.young (ha : q.Ages q') (heq : h.dequeuedAt = h'.dequeuedAt) (hyoung : q'.Young h') :
    q.Young h := by
  have hnow := ha.now
  simp only [Young] at *
  omega

theorem Ages.protected (ha : q.Ages q') (hworker : h.worker = h'.worker)
    (heq : h.dequeuedAt = h'.dequeuedAt) (hp : q'.Protected h') : q.Protected h :=
  hp.imp (fun hlive => hworker ▸ ha.live _ hlive) (ha.young heq)

/-- Jobs in protected hands move nowhere, and the leases in place stay. -/
theorem Guarded.ages (hq : q.Guarded) (hplaced : q'.Placed) (ha : q.Ages q')
    (hat : ∀ h ∈ q.holdings, q.Protected h → ∀ p, q'.At h.job p → q.At h.job p)
    (hreclaim : ∀ h ∈ q.holdings, q.Protected h → ∀ i rest,
      q'.position i = .reclaiming h.job rest →
        q.position i = .reclaiming h.job rest ∨ ¬ q.At h.job .processing)
    (hlease : ∀ h' ∈ q'.holdings, q'.Young h' → q'.InPlace h' → q'.At h'.job .processing →
      ∃ lease, q'.redis.leases.get? h'.job = some lease ∧
        h'.dequeuedAt + seconds processingLeaseSeconds ≤ lease.expiresAt) : q'.Guarded where
  placed := hplaced
  past h' hh' := by
    obtain ⟨h, hh, _, _, hdeq⟩ := ha.holdings h' hh'
    exact hdeq ▸ (hq.past h hh).trans ha.now
  free h' hh' hp p hin := by
    obtain ⟨h, hh, hworker, hjob, hdeq⟩ := ha.holdings h' hh'
    have hp := ha.protected hworker hdeq hp
    exact hq.free h hh hp p (hat h hh hp p (hjob ▸ hin))
  spared h' hh' hp i rest hrec hin := by
    obtain ⟨h, hh, hworker, hjob, hdeq⟩ := ha.holdings h' hh'
    have hp := ha.protected hworker hdeq hp
    rw [← hjob] at hrec hin
    have hin := hat h hh hp _ hin
    rcases hreclaim h hh hp i rest hrec with hrec | hnot
    · exact hq.spared h hh hp i rest hrec hin
    · exact hnot hin
  lease := hlease
  single h₁ hh₁ h₂ hh₂ hlive₁ hlive₂ hjob := by
    obtain ⟨g₁, hg₁, hworker₁, hjob₁, _⟩ := ha.holdings h₁ hh₁
    obtain ⟨g₂, hg₂, hworker₂, hjob₂, _⟩ := ha.holdings h₂ hh₂
    have hsame := hq.single g₁ hg₁ g₂ hg₂ (hworker₁ ▸ ha.live _ hlive₁)
      (hworker₂ ▸ ha.live _ hlive₂) (hjob₁.trans (hjob.trans hjob₂.symm))
    exact hworker₁.symm.trans (hsame.trans hworker₂)

/-- A command that leaves the records alone and makes no crashed worker move. -/
theorem Ages.of_eq (hholdings : q'.holdings = q.holdings) (hnow : q'.now = q.now)
    (hlive : ∀ i, q'.Live i → q.Live i) : q.Ages q' where
  holdings h' hh' := ⟨h', hholdings ▸ hh', rfl, rfl, rfl⟩
  live := hlive
  now := hnow.ge

theorem live_of_moveTo {at' : WorkerAt} (hat : q.position i ≠ .crashed) (i' : ℕ)
    (hlive : (q.moveTo i at').Live i') : q.Live i' := by
  rw [Live, position_moveTo] at hlive
  split at hlive
  · next heq => exact heq ▸ hat
  · exact hlive

/-- A worker moves on within a reaper's pass, or crashes. -/
theorem Guarded.moveTo (hq : q.Guarded) (hplaced : (q.moveTo i at').Placed)
    (hlive : ∀ i', (q.moveTo i at').Live i' → q.Live i')
    (hat' : ∀ job rest, at' ≠ .pushing job rest ∧ at' ≠ .reclaiming job rest) :
    (q.moveTo i at').Guarded := by
  have ha : q.Ages (q.moveTo i at') := .of_eq rfl rfl hlive
  refine hq.ages hplaced ha ?_ ?_ hq.lease
  · exact fun h hh hp p hin => At.of_moveTo hin fun job rest => (hat' job rest).1
  · exact fun h hh hp i' rest hrec => .inl (position_of_moveTo hrec (hat' _ _).2)

/-- A worker with a position of its own has not crashed. -/
theorem ne_crashed (hat : q.position i = at') (hne : at' ≠ .crashed) : q.position i ≠ .crashed :=
  hat ▸ hne

theorem loop_ne {jobs rest : List JobId} :
    WorkerAt.loop jobs ≠ .pushing job rest ∧ WorkerAt.loop jobs ≠ .reclaiming job rest := by
  cases jobs <;> simp [WorkerAt.loop]

/-- Taking a lease away hurts no lease in place of another job. -/
theorem get?_delLease (hne : job ≠ h.job) :
    (q.redis.delLease job).leases.get? h.job = q.redis.leases.get? h.job :=
  Dict.get?_erase_of_ne hne

/-- A worker is given a job that nobody protected holds and no reaper is about to remove. -/
theorem Guarded.of_dequeue (hq : q.Guarded) {rest : List JobId} {redis : RedisJobs}
    (hredis : redis =
      { q.redis with queue := rest, processing := job :: q.redis.processing })
    (hplaced : (q.dequeued i job redis).Placed) (hidle : q.position i = .idle)
    (hqueue : q.redis.queue = rest ++ [job])
    (hreclaim : ∀ i' rest, q.position i' ≠ .reclaiming job rest) :
    (q.dequeued i job redis).Guarded := by
  subst hredis
  set q' := q.dequeued i job _ with hq'
  have hlive : ∀ i', q'.Live i' → q.Live i' := live_of_moveTo (ne_crashed hidle (by simp))
  have hprotected : ∀ h, q'.Protected h → q.Protected h := fun h hp => hp.imp_left (hlive _)
  have hin : q.At job .queue := by simp [At, hqueue]
  have hnew : q'.At job .processing := List.mem_cons_self
  have hothers : ∀ h ∈ q.holdings, h.job = job → ¬ q.Protected h := by
    rintro h hh rfl hp
    cases hq.free h hh hp _ hin
  have hold : ∀ {job' p}, job' ≠ job → q'.At job' p → q.At job' p := by
    intro job' p hne hat
    cases p with
    | queue =>
      have hat : job' ∈ rest := hat
      simp [At, hqueue, hat]
    | processing => exact (List.mem_cons.mp hat).resolve_left hne
    | carried i' => exact At.of_moveTo hat (by simp)
  have hcases : ∀ h ∈ q'.holdings, h = { worker := i, job, dequeuedAt := q.now } ∨
      h ∈ q.holdings := fun h hh => List.mem_cons.mp hh
  refine ⟨hplaced, ?_, ?_, ?_, ?_, ?_⟩
  · intro h hh
    rcases hcases h hh with rfl | hh
    · exact le_rfl
    · exact hq.past h hh
  · intro h hh hp p hat
    rcases hcases h hh with rfl | hh
    · exact hplaced.unique hat hnew
    · have hne : h.job ≠ job := fun heq => hothers h hh heq (hprotected h hp)
      exact hq.free h hh (hprotected h hp) p (hold hne hat)
  · intro h hh hp i' rest' hrec hat
    rw [hq', JobQueue.dequeued, position_moveTo] at hrec
    split at hrec
    · cases hrec
    · rcases hcases h hh with rfl | hh
      · exact hreclaim i' rest' hrec
      · have hne : h.job ≠ job := fun heq => hothers h hh heq (hprotected h hp)
        exact hq.spared h hh (hprotected h hp) i' rest' hrec (hold hne hat)
  · intro h hh hyoung hplace hat
    rcases hcases h hh with rfl | hh
    · exact absurd hplace.1 Bool.false_ne_true
    · have hne : h.job ≠ job := fun heq => hothers h hh heq (.inr hyoung)
      exact hq.lease h hh hyoung hplace (hold hne hat)
  · intro h hh h' hh' hl hl' hjob
    rcases hcases h hh with rfl | hh
    · rcases hcases h' hh' with rfl | hh'
      · rfl
      · exact absurd (.inl (hlive _ hl')) (hothers h' hh' hjob.symm)
    · rcases hcases h' hh' with rfl | hh'
      · exact absurd (.inl (hlive _ hl)) (hothers h hh hjob)
      · exact hq.single h hh h' hh' (hlive _ hl) (hlive _ hl') hjob

/-- A worker that has dequeued a job sets its lease, which stands for that job. -/
theorem Guarded.of_setLease (hq : q.Guarded) (hplaced : (q.leaseSet i job).Placed)
    (hat : q.position i = .leasing job) : (q.leaseSet i job).Guarded := by
  have ha : q.Ages (q.leaseSet i job) := by
    refine ⟨fun h' hh' => ?_, live_of_moveTo (ne_crashed hat (by simp)), le_rfl⟩
    obtain ⟨h, hh, hworker, hjob, hdeq, _⟩ := mem_setLeased hh'
    exact ⟨h, hh, hworker, hjob, hdeq⟩
  refine hq.ages hplaced ha (fun h hh hp p hin => At.of_moveTo hin (by simp)) ?_ ?_
  · exact fun h hh hp i' rest hrec => .inl (position_of_moveTo hrec (by simp))
  · intro h' hh' hyoung hplace hin
    obtain ⟨h, hh, hworker, hjob, hdeq, hleased⟩ := mem_setLeased hh'
    by_cases heq : h'.job = job
    · refine ⟨⟨q.tokens, q.now + seconds processingLeaseSeconds⟩, ?_, ?_⟩
      · rw [heq]
        exact Dict.get?_set_self
      · have hpast := hq.past h hh
        simp only
        omega
    · have hget : (q.redis.setLease job q.tokens q.now).leases.get? h'.job =
          q.redis.leases.get? h'.job := Dict.get?_set_of_ne (Ne.symm heq)
      rw [JobQueue.leaseSet, redis_moveTo, hget, ← hjob, ← hdeq]
      have hprobed : h.job ∉ q.probed := fun hmem => hplace.2
        (List.mem_filter.mpr ⟨hjob ▸ hmem, decide_eq_true heq⟩)
      exact hq.lease h hh (ha.young hdeq hyoung)
        ⟨(hleased hplace.1).resolve_right heq, hprobed⟩ (hjob ▸ hin)

/-- A reaper that keeps to the schedule finds no protected job without a lease. -/
theorem Guarded.of_reclaim (hq : q.Guarded) {rest : List JobId}
    (hplaced : ({ q with redis := q.redis.delLease job }.moveTo i (.reclaiming job rest)).Placed)
    (hat : q.position i = .probing job rest) (hlease : q.redis.lease? q.now job = none)
    (hschedule : ∀ h ∈ q.holdings, h.job = job → q.Protected h → q.Young h ∧ q.InPlace h) :
    ({ q with redis := q.redis.delLease job }.moveTo i (.reclaiming job rest)).Guarded := by
  have hmissing : ∀ h ∈ q.holdings, q.Young h → q.InPlace h → q.At h.job .processing →
      job ≠ h.job := by
    rintro h hh hyoung hplace hin rfl
    exact hq.lease_ne_none hh hyoung hplace hin hlease
  refine hq.ages hplaced (.of_eq rfl rfl (live_of_moveTo (ne_crashed hat (by simp))))
    (fun h hh hp p hin => At.of_moveTo hin (by simp)) ?_ ?_
  · intro h hh hp i' rest' hrec
    rw [position_moveTo] at hrec
    split at hrec
    · obtain ⟨rfl, _⟩ := WorkerAt.reclaiming.inj hrec
      obtain ⟨hyoung, hplace⟩ := hschedule h hh rfl hp
      exact .inr fun hin => hmissing h hh hyoung hplace hin rfl
    · exact .inl hrec
  · intro h hh hyoung hplace hin
    rw [redis_moveTo, get?_delLease (hmissing h hh hyoung hplace hin)]
    exact hq.lease h hh hyoung hplace hin

/-- No protected job is taken off the processing list. -/
theorem Guarded.of_remove (hq : q.Guarded) {rest : List JobId}
    (hplaced : ({ q with redis := q.redis.lrem job }.moveTo i (.pushing job rest)).Placed)
    (hat : q.position i = .reclaiming job rest) (hmem : job ∈ q.redis.processing) :
    ({ q with redis := q.redis.lrem job }.moveTo i (.pushing job rest)).Guarded := by
  have hunprotected : ∀ h ∈ q.holdings, q.Protected h → h.job ≠ job := by
    rintro h hh hp rfl
    exact hq.spared h hh hp i rest hat hmem
  refine hq.ages hplaced (.of_eq rfl rfl (live_of_moveTo (ne_crashed hat (by simp)))) ?_ ?_ ?_
  · intro h hh hp p hin
    cases p with
    | queue => exact hin
    | processing => exact List.mem_of_mem_erase hin
    | carried i' =>
      obtain ⟨rest', hin⟩ := hin
      refine ⟨rest', position_of_moveTo hin fun heq => ?_⟩
      exact hunprotected h hh hp (WorkerAt.pushing.inj heq).1.symm
  · exact fun h hh hp i' rest' hrec => .inl (position_of_moveTo hrec (by simp))
  · exact fun h hh hyoung hplace hin =>
      hq.lease h hh hyoung hplace (List.mem_of_mem_erase hin)

/-- No protected job goes back to the queue. -/
theorem Guarded.of_push (hq : q.Guarded) {rest : List JobId}
    (hplaced : (q.pushed i job rest).Placed) (hat : q.position i = .pushing job rest) :
    (q.pushed i job rest).Guarded := by
  have hunprotected : ∀ h ∈ q.holdings, q.Protected h → h.job ≠ job := by
    rintro h hh hp rfl
    cases hq.free h hh hp (.carried i) ⟨rest, hat⟩
  refine hq.ages hplaced (.of_eq rfl rfl fun i' hlive => ?_) ?_ ?_ hq.lease
  · rw [Live, position_pushed] at hlive
    split at hlive
    · next heq => exact heq ▸ ne_crashed hat (by simp)
    · exact hlive
  · intro h hh hp p hin
    cases p with
    | queue => exact (List.mem_cons.mp hin).resolve_left (hunprotected h hh hp)
    | processing => exact hin
    | carried i' =>
      obtain ⟨rest', hin⟩ := hin
      rw [position_pushed] at hin
      split at hin
      · exact absurd hin loop_ne.1
      · exact ⟨rest', hin⟩
  · intro h hh hp i' rest' hrec
    rw [position_pushed] at hrec
    split at hrec
    · exact absurd hrec loop_ne.2
    · exact .inl hrec

/-- The rule of the leases: a command that keeps to the schedule keeps the jobs with their
workers. -/
theorem Guarded.executes (hq : q.Guarded) (hs : q.Executes s q') (ho : q.Orderly s) :
    q'.Guarded := by
  have hplaced := hq.placed.executes hs
  cases hs with
  | skip => exact hq
  | tick elapsed =>
    have ha : q.Ages { q with now := q.now + elapsed } :=
      ⟨fun h hh => ⟨h, hh, rfl, rfl, rfl⟩, fun _ => id, by simp⟩
    refine hq.ages hplaced ha ?_ (fun h hh hp i rest => .inl) ?_
    · intro h hh hp p hat
      cases p <;> exact hat
    · exact fun h hh hyoung => hq.lease h hh (ha.young rfl hyoung)
  | enqueue =>
    refine hq.ages hplaced (.of_eq rfl rfl fun _ => id) ?_ (fun h hh hp i rest => .inl) hq.lease
    intro h hh hp p hat
    cases p with
    | queue => exact (List.mem_cons.mp hat).resolve_left (hq.placed.held h hh).ne
    | processing | carried => exact hat
  | @dequeue i job rest hidle hqueue =>
    have hlast : q.redis.queue.getLast? = some job := by rw [hqueue, List.getLast?_concat]
    exact hq.of_dequeue rfl hplaced hidle hqueue (ho job hlast)
  | @list i hidle =>
    refine hq.ages hplaced (.of_eq rfl rfl fun i' hlive => ?_) ?_ ?_ hq.lease
    · rw [Live, position_listed] at hlive
      split at hlive
      · next heq => exact heq ▸ ne_crashed hidle (by simp)
      · exact hlive
    · intro h hh hp p hat
      cases p with
      | queue | processing => exact hat
      | carried i' =>
        obtain ⟨rest, hat⟩ := hat
        rw [position_listed] at hat
        split at hat
        · exact absurd hat loop_ne.1
        · exact ⟨rest, hat⟩
    · intro h hh hp i' rest hrec
      rw [position_listed] at hrec
      split at hrec
      · exact absurd hrec loop_ne.2
      · exact .inl hrec
  | @ack holding hidle hh =>
    refine hq.ages hplaced
      ⟨fun h hh => ⟨h, List.mem_of_mem_filter hh, rfl, rfl, rfl⟩, fun _ => id, le_rfl⟩ ?_
      (fun h hh hp i rest => .inl) ?_
    · intro h hh hp p hat
      cases p with
      | processing => exact List.mem_of_mem_filter hat
      | queue | carried => exact hat
    · intro h hh hyoung hplace hat
      have hmem := List.mem_filter.mp hat
      have hne : holding.job ≠ h.job := fun heq => by simp [heq] at hmem
      have hget : (q.redis.ack holding.job).leases.get? h.job = q.redis.leases.get? h.job :=
        Dict.get?_erase_of_ne hne
      rw [JobQueue.ackedBy, hget]
      exact hq.lease h (List.mem_of_mem_filter hh) hyoung hplace hmem.1
  | setLease hat => exact hq.of_setLease hplaced hat
  | @pass i job rest hat hlease =>
    refine hq.ages hplaced (.of_eq rfl rfl (live_of_moveTo (ne_crashed hat (by simp))))
      (fun h hh hp p hin => At.of_moveTo hin fun _ _ => loop_ne.1) ?_ ?_
    · exact fun h hh hp i' rest' hrec => .inl (position_of_moveTo hrec loop_ne.2)
    · intro h hh hyoung hplace hin
      have hprobed : h.job ∉ job :: q.probed := hplace.2
      rw [List.mem_cons, not_or] at hprobed
      rw [redis_moveTo, get?_delLease (Ne.symm hprobed.1)]
      exact hq.lease h hh hyoung ⟨hplace.1, hprobed.2⟩ hin
  | reclaim hat hlease => exact hq.of_reclaim hplaced hat hlease (ho _ _ hat)
  | remove hat hmem => exact hq.of_remove hplaced hat hmem
  | @gone i job rest hat hmem =>
    exact hq.moveTo hplaced (live_of_moveTo (ne_crashed hat (by simp))) fun _ _ => loop_ne
  | push hat => exact hq.of_push hplaced hat
  | crash i =>
    refine hq.moveTo hplaced (fun i' hlive => ?_) (by simp)
    rw [Live, position_moveTo] at hlive
    split at hlive
    · exact absurd rfl hlive
    · exact hlive

theorem Guarded.start (now : ℤ) : (start now).Guarded where
  placed := .start now
  past _ hh := nomatch hh
  free _ hh := nomatch hh
  spared _ hh := nomatch hh
  lease _ hh := nomatch hh
  single _ hh := nomatch hh

theorem Guarded.exclusive (hq : q.Guarded) (ho : q.Orderly s) : q.Exclusive s where
  requeue i _ rest _ hat h hh hjob hyoung :=
    nomatch hq.free h hh (.inr hyoung) (.carried i) ⟨rest, hjob ▸ hat⟩
  single := (hq.executes (q.step_executes s) ho).single

/-- In every run that keeps to the schedule no reaper puts back a job less than the lease time after
it was dequeued, and no two live workers have the same job. -/
theorem along_exclusive (now : ℤ) (steps : List QueueStep)
    (ho : Run.Along step Orderly (start now) steps) :
    Run.Along step Exclusive (start now) steps :=
  Run.Along.of_inv (I := Guarded) (D := Orderly)
    (fun q s hq ho => hq.executes (q.step_executes s) ho) (fun _ _ hq ho => hq.exclusive ho)
    (.start now) ho

/-- A worker crashes with a job; fifteen minutes later a reaper puts the job back and dequeues
it. -/
theorem along_exclusive_crash : Run.Along step Exclusive (start 0)
    [.enqueue, .dequeue 0, .next 0, .crash 0, .tick 900000000, .requeueStale 1, .next 1, .next 1,
      .next 1, .dequeue 1] := by
  refine along_exclusive 0 _ ⟨trivial, ?_, ?_, trivial, trivial, trivial, ?_, ?_, ?_, ?_, trivial⟩
  · exact fun _ _ _ _ => nofun
  · exact fun _ _ => nofun
  · intro _ _ _ h hh _ hp
    have hh : h ∈ [({ worker := 0, job := 0, dequeuedAt := 0, leased := true } : Holding)] := hh
    rw [List.mem_singleton.mp hh] at hp
    rcases hp with hlive | hyoung
    · exact absurd rfl hlive
    · exact absurd hyoung (by decide +kernel)
  · exact fun _ _ => nofun
  · exact fun _ _ => nofun
  · intro job _ i rest hat
    rcases i with _ | _ | i
    · exact nomatch hat
    · exact nomatch hat
    · exact nomatch hat

/-- Two passes of a reaper within two minutes: the first deletes the lease of a job that is being
executed, and the second puts the job back. -/
theorem not_along_exclusive : ¬ ∀ (now : ℤ) (steps : List QueueStep),
    Run.Along step Exclusive (start now) steps := by
  intro h
  have hrun := h 0 [.enqueue, .dequeue 0, .next 0, .tick 60000000, .requeueStale 1, .next 1,
    .tick 60000000, .requeueStale 1, .next 1, .next 1, .next 1]
  obtain ⟨-, -, -, -, -, -, -, -, -, -, hpush, -⟩ := hrun
  exact hpush.requeue 1 0 [] rfl rfl ⟨0, 0, 0, true⟩ (by decide +kernel) rfl (by decide +kernel)

end JobQueue

end TradingPlatform
