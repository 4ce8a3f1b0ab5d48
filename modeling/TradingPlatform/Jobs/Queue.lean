import TradingPlatform.Contracts
import TradingPlatform.Lib.Dict
import TradingPlatform.Lib.Run

/-!
# The job queue

`RedisJobs` holds the Redis keys of one namespace; its operations are the commands, each atomic,
that `RedisJobPersistence` sends. A `JobQueue` adds any number of workers, each somewhere between
two commands of a method, so that a list of `QueueStep` is an interleaving of their calls.
-/

namespace TradingPlatform

/-- The ids drawn for jobs, numbered in the order they are drawn. -/
abbrev JobId := ℕ

/-- How long a dequeued job may go without an ack before a reaper may take it back. -/
def processingLeaseSeconds : ℕ := 15 * 60

/-- A lease key: its value, and when Redis drops it. -/
structure Lease where
  token : ℕ
  expiresAt : ℤ
  deriving DecidableEq

/-- The queue, the processing list and the lease keys of a namespace. Lists start at their left
end. -/
structure RedisJobs where
  queue : List JobId := []
  processing : List JobId := []
  leases : Dict JobId Lease := ∅

namespace RedisJobs

/-- `LPUSH` on the queue, the one command of `enqueue`. -/
def lpush (r : RedisJobs) (job : JobId) : RedisJobs := { r with queue := job :: r.queue }

/-- `BLMOVE` from the right of the queue to the left of the processing list; nothing is moved when
the timeout passes with the queue empty. -/
def blmove (r : RedisJobs) : Option (JobId × RedisJobs) :=
  r.queue.getLast?.map fun job =>
    (job, { r with queue := r.queue.dropLast, processing := job :: r.processing })

/-- `SET` of the lease key, with its expiry. -/
def setLease (r : RedisJobs) (job : JobId) (token : ℕ) (now : ℤ) : RedisJobs :=
  { r with leases := r.leases.set job ⟨token, now + seconds processingLeaseSeconds⟩ }

/-- The lease Redis still has for a job. -/
def lease? (r : RedisJobs) (now : ℤ) (job : JobId) : Option Lease :=
  (r.leases.get? job).filter fun lease => now < lease.expiresAt

/-- What `GETDEL` of the lease key leaves; its reply is `lease?`. -/
def delLease (r : RedisJobs) (job : JobId) : RedisJobs :=
  { r with leases := r.leases.erase job }

/-- What `LREM` with count one leaves of the processing list; it replies whether the job was
there. -/
def lrem (r : RedisJobs) (job : JobId) : RedisJobs :=
  { r with processing := r.processing.erase job }

/-- The pipeline of `ack`: `LREM` of all copies, and `DEL` of the lease key. -/
def ack (r : RedisJobs) (job : JobId) : RedisJobs :=
  { r with
    processing := r.processing.filter fun j => decide (j ≠ job)
    leases := r.leases.erase job }

end RedisJobs

/-! ## Workers -/

/-- Where a worker stands: between two calls, or before the next command of one. -/
inductive WorkerAt
  | idle
  /-- `blocking_dequeue`, before the `SET`. -/
  | leasing (job : JobId)
  /-- `requeue_stale`, before the `GETDEL` for the first of these jobs. -/
  | probing (job : JobId) (rest : List JobId)
  /-- `requeue_stale`, before the `LREM` of a job without a lease. -/
  | reclaiming (job : JobId) (rest : List JobId)
  /-- `requeue_stale`, before the `LPUSH` of a job it has removed. -/
  | pushing (job : JobId) (rest : List JobId)
  | crashed
  deriving DecidableEq

/-- The loop of `requeue_stale` over the jobs that are left. -/
def WorkerAt.loop : List JobId → WorkerAt
  | [] => .idle
  | job :: rest => .probing job rest

/-- A worker, with the ids the last `requeue_stale` has put back so far. -/
structure Worker where
  position : WorkerAt := .idle
  requeued : List JobId := []

/-- A job in the hands of the worker that dequeued it: when that was, and whether its lease key has
been set since. -/
structure Holding where
  worker : ℕ
  job : JobId
  dequeuedAt : ℤ
  leased : Bool := false
  deriving DecidableEq

/-- The worker has set the lease of the job it has dequeued. -/
def Holding.setLeased (i : ℕ) (job : JobId) (h : Holding) : Holding :=
  if h.worker = i ∧ h.job = job then { h with leased := true } else h

/-- The queue and the workers. The fields from `holdings` on are history: the jobs dequeued and not
acked, the jobs whose lease a reaper has taken since it was last set, and the jobs acked. -/
structure JobQueue where
  redis : RedisJobs := {}
  workers : ℕ → Worker := fun _ => {}
  now : ℤ
  uuid : ℕ := 0
  tokens : ℕ := 0
  holdings : List Holding := []
  probed : List JobId := []
  acked : List JobId := []

/-- A command of one of the parties. `next` is the next command of the method its worker is in. -/
inductive QueueStep
  | tick (elapsed : ℕ)
  | enqueue
  | dequeue (worker : ℕ)
  | requeueStale (worker : ℕ)
  | ack (worker : ℕ) (job : JobId)
  | next (worker : ℕ)
  | crash (worker : ℕ)

namespace JobQueue

/-- The worker's new position, all else unchanged. -/
def moveTo (q : JobQueue) (i : ℕ) (position : WorkerAt) : JobQueue :=
  { q with workers := Function.update q.workers i { q.workers i with position } }

def position (q : JobQueue) (i : ℕ) : WorkerAt := (q.workers i).position

def start (now : ℤ) : JobQueue := { now }

/-- `blocking_dequeue` up to its `BLMOVE`. -/
def dequeued (q : JobQueue) (i : ℕ) (job : JobId) (redis : RedisJobs) : JobQueue :=
  { q with
    redis
    holdings := { worker := i, job, dequeuedAt := q.now } :: q.holdings }.moveTo i (.leasing job)

/-- The `SET` of `blocking_dequeue`, which then returns the job. -/
def leaseSet (q : JobQueue) (i : ℕ) (job : JobId) : JobQueue :=
  { q with
    redis := q.redis.setLease job q.tokens q.now
    tokens := q.tokens + 1
    holdings := q.holdings.map (Holding.setLeased i job)
    probed := q.probed.filter fun j => decide (j ≠ job) }.moveTo i .idle

/-- The `LRANGE` of `requeue_stale`. -/
def listed (q : JobQueue) (i : ℕ) : JobQueue :=
  { q with workers := Function.update q.workers i { position := .loop q.redis.processing } }

/-- The `GETDEL` of `requeue_stale`: a job without a lease is reclaimed, one with a lease passed
over. -/
def leaseProbed (q : JobQueue) (i : ℕ) (job : JobId) (rest : List JobId) : JobQueue :=
  match q.redis.lease? q.now job with
  | none => { q with redis := q.redis.delLease job }.moveTo i (.reclaiming job rest)
  | some _ =>
    { q with
      redis := q.redis.delLease job
      probed := job :: q.probed }.moveTo i (.loop rest)

/-- The `LREM` of `requeue_stale`. -/
def removed (q : JobQueue) (i : ℕ) (job : JobId) (rest : List JobId) : JobQueue :=
  if job ∈ q.redis.processing then
    { q with redis := q.redis.lrem job }.moveTo i (.pushing job rest)
  else
    q.moveTo i (.loop rest)

/-- The `LPUSH` of `requeue_stale`. -/
def pushed (q : JobQueue) (i : ℕ) (job : JobId) (rest : List JobId) : JobQueue :=
  { q with
    redis := q.redis.lpush job
    workers := Function.update q.workers i
      { position := .loop rest, requeued := (q.workers i).requeued ++ [job] } }

/-- A worker acks a job it holds. -/
def ackedBy (q : JobQueue) (i : ℕ) (job : JobId) : JobQueue :=
  { q with
    redis := q.redis.ack job
    holdings := q.holdings.filter fun h => decide (¬ (h.worker = i ∧ h.job = job))
    acked := job :: q.acked }

/-- One command. A party that is not where the command needs it to be does nothing. -/
def step (q : JobQueue) : QueueStep → JobQueue
  | .tick elapsed => { q with now := q.now + elapsed }
  | .enqueue => { q with redis := q.redis.lpush q.uuid, uuid := q.uuid + 1 }
  | .dequeue i =>
    match q.position i, q.redis.blmove with
    | .idle, some (job, redis) => q.dequeued i job redis
    | _, _ => q
  | .requeueStale i => if q.position i = .idle then q.listed i else q
  | .ack i job =>
    if q.position i = .idle ∧ ∃ h ∈ q.holdings, h.worker = i ∧ h.job = job then q.ackedBy i job
    else q
  | .next i =>
    match q.position i with
    | .leasing job => q.leaseSet i job
    | .probing job rest => q.leaseProbed i job rest
    | .reclaiming job rest => q.removed i job rest
    | .pushing job rest => q.pushed i job rest
    | .idle | .crashed => q
  | .crash i => q.moveTo i .crashed

/-- The parties that have not crashed. -/
def Live (q : JobQueue) (i : ℕ) : Prop := q.position i ≠ .crashed

instance (q : JobQueue) (i : ℕ) : Decidable (q.Live i) := inferInstanceAs (Decidable (¬ _))

/-! ## What a command does -/

/-- The commands, with what each needs to be sent and what it leaves. -/
inductive Executes (q : JobQueue) : QueueStep → JobQueue → Prop
  | skip (s : QueueStep) : Executes q s q
  | tick (elapsed : ℕ) : Executes q (.tick elapsed) { q with now := q.now + elapsed }
  | enqueue : Executes q .enqueue
      { q with redis := q.redis.lpush q.uuid, uuid := q.uuid + 1 }
  | dequeue {i : ℕ} {job : JobId} {rest : List JobId} (hidle : q.position i = .idle)
      (hqueue : q.redis.queue = rest ++ [job]) : Executes q (.dequeue i)
      (q.dequeued i job { q.redis with queue := rest, processing := job :: q.redis.processing })
  | list {i : ℕ} (hidle : q.position i = .idle) : Executes q (.requeueStale i) (q.listed i)
  | ack {h : Holding} (hidle : q.position h.worker = .idle) (hh : h ∈ q.holdings) :
      Executes q (.ack h.worker h.job) (q.ackedBy h.worker h.job)
  | setLease {i : ℕ} {job : JobId} (hat : q.position i = .leasing job) :
      Executes q (.next i) (q.leaseSet i job)
  | pass {i : ℕ} {job : JobId} {rest : List JobId} (hat : q.position i = .probing job rest)
      (hlease : q.redis.lease? q.now job ≠ none) : Executes q (.next i)
      ({ q with redis := q.redis.delLease job, probed := job :: q.probed }.moveTo i (.loop rest))
  | reclaim {i : ℕ} {job : JobId} {rest : List JobId} (hat : q.position i = .probing job rest)
      (hlease : q.redis.lease? q.now job = none) : Executes q (.next i)
      ({ q with redis := q.redis.delLease job }.moveTo i (.reclaiming job rest))
  | remove {i : ℕ} {job : JobId} {rest : List JobId} (hat : q.position i = .reclaiming job rest)
      (hmem : job ∈ q.redis.processing) : Executes q (.next i)
      ({ q with redis := q.redis.lrem job }.moveTo i (.pushing job rest))
  | gone {i : ℕ} {job : JobId} {rest : List JobId} (hat : q.position i = .reclaiming job rest)
      (hmem : job ∉ q.redis.processing) : Executes q (.next i) (q.moveTo i (.loop rest))
  | push {i : ℕ} {job : JobId} {rest : List JobId} (hat : q.position i = .pushing job rest) :
      Executes q (.next i) (q.pushed i job rest)
  | crash (i : ℕ) : Executes q (.crash i) (q.moveTo i .crashed)

theorem step_executes (q : JobQueue) (s : QueueStep) : q.Executes s (q.step s) := by
  cases s with
  | tick elapsed => exact .tick elapsed
  | enqueue => exact .enqueue
  | dequeue i =>
    simp only [step, RedisJobs.blmove]
    split
    · next job redis hidle hmove =>
      obtain ⟨last, hlast, hmoved⟩ := Option.map_eq_some_iff.mp hmove
      obtain ⟨rfl, rfl⟩ := Prod.mk.inj hmoved
      obtain ⟨rest, hqueue⟩ := List.getLast?_eq_some_iff.mp hlast
      have hrest : q.redis.queue.dropLast = rest := by rw [hqueue, List.dropLast_concat]
      rw [hrest]
      exact .dequeue hidle hqueue
    · exact .skip _
  | requeueStale i =>
    simp only [step]
    split
    · next hidle => exact .list hidle
    · exact .skip _
  | ack i job =>
    simp only [step]
    split
    · next hack =>
      obtain ⟨hidle, h, hh, rfl, rfl⟩ := hack
      exact .ack hidle hh
    · exact .skip _
  | next i =>
    simp only [step]
    split
    · next hat => exact .setLease hat
    · next job rest hat =>
      simp only [leaseProbed]
      split
      · next hlease => exact .reclaim hat hlease
      · next hlease => exact .pass hat (by rw [hlease]; exact Option.some_ne_none _)
    · next job rest hat =>
      simp only [removed]
      split
      · next hmem => exact .remove hat hmem
      · next hmem => exact .gone hat hmem
    · next hat => exact .push hat
    · exact .skip _
    · exact .skip _
  | crash i => exact .crash i

variable {q q' : JobQueue} {i i' : ℕ} {job : JobId} {at' : WorkerAt}

@[simp] theorem position_moveTo :
    (q.moveTo i at').position i' = if i' = i then at' else q.position i' := by
  simp only [position, moveTo, Function.update_apply]
  split <;> rfl

/-- A worker found at a place that no one has moved to was there before. -/
theorem position_of_moveTo {p : WorkerAt} (h : (q.moveTo i at').position i' = p) (hne : at' ≠ p) :
    q.position i' = p := by
  rw [position_moveTo] at h
  split at h
  · exact absurd h hne
  · exact h

@[simp] theorem redis_moveTo : (q.moveTo i at').redis = q.redis := rfl

@[simp] theorem holdings_moveTo : (q.moveTo i at').holdings = q.holdings := rfl

@[simp] theorem probed_moveTo : (q.moveTo i at').probed = q.probed := rfl

@[simp] theorem acked_moveTo : (q.moveTo i at').acked = q.acked := rfl

@[simp] theorem uuid_moveTo : (q.moveTo i at').uuid = q.uuid := rfl

@[simp] theorem now_moveTo : (q.moveTo i at').now = q.now := rfl

theorem position_listed :
    (q.listed i).position i' = if i' = i then .loop q.redis.processing else q.position i' := by
  simp only [position, listed, Function.update_apply]
  split <;> rfl

theorem position_pushed {rest : List JobId} :
    (q.pushed i job rest).position i' = if i' = i then .loop rest else q.position i' := by
  simp only [position, pushed, Function.update_apply]
  split <;> rfl

end JobQueue

end TradingPlatform
