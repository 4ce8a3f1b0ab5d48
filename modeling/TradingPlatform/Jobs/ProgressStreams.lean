import TradingPlatform.Jobs.Store
import TradingPlatform.Lib.Run

/-!
# Progress streams

A client follows a job over a stream of server-sent events. The route computes the first snapshot
from the record, the generator subscribes when it is first advanced, and from then on the hub keeps
the latest payload for it. In the process of the API a job is updated in one go; in queue mode every
process saves the record first and then publishes to Redis, whose messages a bridge forwards to the
hub. Redis keeps no message for a bridge that does not listen: the bridge subscribes some time after
the start of the API, a message may be lost on its way when the connection breaks, and the first
exception stops the bridge for good.

A stream that waits for a finished job has nothing to wait for exactly when it has subscribed too
late, when the last message about the job is one that was overtaken by the final save, or when that
message does not get to the hub.
-/

namespace TradingPlatform

/-- `TERMINAL_STATUSES` -/
def JobStatus.terminal (status : JobStatus) : Bool := !status.active

/-! ## Payloads -/

/-- What `sweep_response` adds to the payload of a sweep: its results, or its trials so far. -/
inductive PayloadDetail (K : JobKind)
  | none
  | results (snapshot : K.Snapshot)
  | trials (trials : List K.TrialSnapshot)

structure JobPayload (K : JobKind) where
  id : ℕ
  status : JobStatus
  config : K.Config
  phase : String
  message : String
  elapsed : ℤ
  current : ℤ
  total : ℤ
  error : Option String
  detail : PayloadDetail K := .none

namespace Job

variable {K : JobKind} (job : Job K)

/-- `sweep_progress_response` -/
def progressResponse : JobPayload K where
  id := job.id
  status := job.status
  config := job.config
  phase := job.phase
  message := job.message
  elapsed := job.updatedAt - job.createdAt
  current := job.progressCurrent
  total := job.progressTotal
  error := job.error.filter (· ≠ "")

/-- `sweep_response` -/
def response : JobPayload K :=
  { job.progressResponse with
    detail :=
      match job.result, job.resultSnapshot with
      | some result, _ => .results (K.resultToDict result)
      | none, some snapshot => .results snapshot
      | none, none =>
        if job.liveTrials ≠ [] then .trials (job.liveTrials.map K.trialToDict)
        else if job.liveTrialSnapshots ≠ [] then .trials job.liveTrialSnapshots
        else .none }

/-- The payload of `update`. -/
def updatePayload : JobPayload K :=
  if job.status.active then job.progressResponse else job.response

@[simp] theorem response_status : job.response.status = job.status := rfl

@[simp] theorem updatePayload_status : job.updatePayload.status = job.status := by
  unfold updatePayload
  split <;> rfl

end Job

/-! ## Streams -/

/-- A frame of `format_sse`, or a ping. -/
inductive SseFrame (K : JobKind)
  | snapshot (payload : JobPayload K)
  | progress (payload : JobPayload K)
  | terminal (payload : JobPayload K)
  | ping

/-- Where the generator stands: not yet advanced, after the snapshot frame, in its loop, after the
terminal frame, at its end. -/
inductive StreamStage
  | requested
  | opened
  | looping
  | finished
  | closed
  deriving DecidableEq

/-- The generator holds a queue of the hub. -/
def StreamStage.subscribed : StreamStage → Bool
  | .opened | .looping | .finished => true
  | .requested | .closed => false

/-- A call of `sse_job_event_stream`. -/
structure JobStream (K : JobKind) where
  initial : JobPayload K
  stage : StreamStage := .requested
  frames : List (SseFrame K) := []

/-- The generator has sent a frame. -/
def JobStream.sent {K : JobKind} (stream : JobStream K) (stage : StreamStage) (frame : SseFrame K) :
    JobStream K :=
  { stream with stage, frames := stream.frames ++ [frame] }

/-- Where `run_job_progress_bridge` stands: before its `subscribe` has taken effect, in its loop, after
an exception. -/
inductive BridgeState
  | starting
  | listening
  | stopped
  deriving DecidableEq

/-- The job, the hub of the API process and the streams of its clients. `inflight` holds, for each
process, the update it has saved and not yet published; process 0 is the one with the hub. `channel`
holds the messages that Redis has sent to the bridge and the bridge has not yet forwarded. -/
structure ProgressSystem (K : JobKind) where
  record : JobRecord K
  inflight : Dict ℕ (JobPayload K) := ∅
  bridge : BridgeState := .starting
  channel : List (JobPayload K) := []
  hub : Dict ℕ (Option (JobPayload K)) := ∅
  streams : Dict ℕ (JobStream K) := ∅

inductive ProgressStep (K : JobKind)
  /-- `update` of a store without a queue. -/
  | update (job : Job K) (now : ℤ)
  /-- `update` of a store with a queue, up to the save of the record. -/
  | save (process : ℕ) (job : Job K) (now : ℤ)
  /-- The rest of that `update`. -/
  | publish (process : ℕ)
  /-- The rest of that `update` where the `PUBLISH` raises, or the process dies before it. -/
  | fail (process : ℕ)
  /-- The bridge subscribes. -/
  | listen
  /-- The bridge forwards a message. -/
  | forward
  /-- A message to the bridge is lost on its way. -/
  | drop (place : ℕ)
  /-- An exception ends the loop of the bridge. -/
  | stop
  /-- The route of the events. -/
  | request (client : ℕ)
  /-- The generator runs up to its next frame, or until it waits for its queue. -/
  | next (client : ℕ)
  /-- The heartbeat interval ends. -/
  | timeout (client : ℕ)
  /-- The client goes away, or the generator is closed. -/
  | disconnect (client : ℕ)

namespace ProgressSystem

variable {K : JobKind} (s : ProgressSystem K)

/-- `JobProgressHub.publish`: each queue keeps the latest payload. -/
def hubPublish (payload : JobPayload K) : ProgressSystem K :=
  { s with hub := s.hub.map fun _ => some payload }

/-- The update of the process is published to the hub of its own process; only process 0 has streams
there. -/
def publishLocally (process : ℕ) (payload : JobPayload K) : ProgressSystem K :=
  { if process = 0 then s.hubPublish payload else s with inflight := s.inflight.erase process }

/-- `publish_progress`: Redis sends the message to a bridge that listens, and keeps none. -/
def redisPublish (payload : JobPayload K) : ProgressSystem K :=
  if s.bridge = .listening then { s with channel := s.channel ++ [payload] } else s

def setStream (client : ℕ) (stream : JobStream K) : ProgressSystem K :=
  { s with streams := s.streams.set client stream }

/-- `subscribe` and the frame of the snapshot. -/
def openStream (client : ℕ) (stream : JobStream K) : ProgressSystem K :=
  { s with hub := s.hub.set client none }.setStream client
    (stream.sent .opened (.snapshot stream.initial))

/-- A turn of the loop: what the queue holds is taken and sent on. -/
def takeQueue (client : ℕ) (stream : JobStream K) : ProgressSystem K :=
  match s.hub.get? client with
  | some (some payload) =>
    { s with hub := s.hub.set client none }.setStream client
      (if payload.status.terminal then stream.sent .finished (.terminal payload)
      else stream.sent .looping (.progress payload))
  | _ => s.setStream client { stream with stage := .looping }

/-- `unsubscribe` at the end of the generator. -/
def closeStream (client : ℕ) (stream : JobStream K) : ProgressSystem K :=
  { s with hub := s.hub.erase client }.setStream client { stream with stage := .closed }

def advance (client : ℕ) (stream : JobStream K) : ProgressSystem K :=
  match stream.stage with
  | .requested => s.openStream client stream
  | .opened =>
    if stream.initial.status.terminal then
      s.setStream client (stream.sent .finished (.terminal stream.initial))
    else s.takeQueue client stream
  | .looping => s.takeQueue client stream
  | .finished => s.closeStream client stream
  | .closed => s

def step (s : ProgressSystem K) : ProgressStep K → ProgressSystem K
  | .update job now =>
    let job := job.stamp now
    { s with record := job.serialize }.hubPublish job.updatePayload
  | .save process job now =>
    let job := job.stamp now
    if process ∈ s.inflight.keys then s
    else { s with
      record := job.serialize
      inflight := s.inflight.set process job.updatePayload }
  | .publish process =>
    match s.inflight.get? process with
    | none => s
    | some payload => (s.publishLocally process payload).redisPublish payload
  | .fail process =>
    match s.inflight.get? process with
    | none => s
    | some payload => s.publishLocally process payload
  | .listen => if s.bridge = .starting then { s with bridge := .listening } else s
  | .forward =>
    match s.channel with
    | [] => s
    | payload :: channel => { s with channel }.hubPublish payload
  | .drop place => { s with channel := s.channel.eraseIdx place }
  | .stop => { s with bridge := .stopped, channel := [] }
  | .request client =>
    if client ∈ s.streams.keys then s
    else s.setStream client { initial := (s.record.load none).response }
  | .next client =>
    match s.streams.get? client with
    | none => s
    | some stream => s.advance client stream
  | .timeout client =>
    match s.streams.get? client with
    | none => s
    | some stream =>
      if stream.stage = .looping ∧ (s.hub.get? client).any (·.isNone) then
        s.setStream client (stream.sent .looping .ping)
      else s
  | .disconnect client =>
    match s.streams.get? client with
    | none => s
    | some stream => s.closeStream client stream

/-! ## What a waiting client is owed -/

/-- No publish is under way. -/
def Quiescent : Prop := s.inflight.keys = [] ∧ s.channel = []

/-- The stream has sent a terminal frame, or is about to send its terminal snapshot. -/
def Told (stream : JobStream K) : Prop :=
  (∃ payload, SseFrame.terminal payload ∈ stream.frames) ∨
    stream.stage = .opened ∧ stream.initial.status.terminal = true

/-- The queue of the client holds a terminal payload. -/
def Waiting (client : ℕ) : Prop :=
  ∃ payload, s.hub.get? client = some (some payload) ∧ payload.status.terminal = true

/-- Every subscribed stream has told its client. -/
def AllTold : Prop :=
  ∀ client stream, s.streams.get? client = some stream → stream.stage.subscribed = true →
    Told stream

/-- Every subscribed stream has told its client, or has it waiting in its queue. -/
def Informed : Prop :=
  ∀ client stream, s.streams.get? client = some stream → stream.stage.subscribed = true →
    Told stream ∨ s.Waiting client

/-- When the job is finished and no publish is under way, every subscribed stream has told its
client, or has it waiting in its queue. -/
def Served : Prop := s.Quiescent → s.record.status.terminal = true → s.Informed

/-- The clients need nothing more than the last message about a finished job: its payload gets to the
hub and is terminal, or they have been told before; a message that does not get there leaves them
with what they have. -/
def Suffices : Option (JobPayload K) → Prop
  | some payload => payload.status.terminal = true ∨ s.AllTold
  | none => s.Informed

/-- The `PUBLISH` of the process does not get to the bridge. When it is the last one about a finished
job, what the process publishes locally suffices. -/
def UnheardInTime (process : ℕ) : Prop :=
  ∀ payload, s.inflight.get? process = some payload → (s.inflight.erase process).keys = [] →
    s.channel = [] → s.record.status.terminal = true →
    s.Suffices (if process = 0 then some payload else none)

/-- The stream does not subscribe with an active snapshot to a job that is finished with no publish
under way; and the last message about a finished job suffices, whether it is forwarded, meets no
bridge that listens, is lost on its way, or is still to be forwarded when the bridge stops. -/
def InTime (s : ProgressSystem K) : ProgressStep K → Prop
  | .next client => ∀ stream, s.streams.get? client = some stream → stream.stage = .requested →
      s.Quiescent → s.record.status.terminal = true → stream.initial.status.terminal = true
  | .publish process => s.bridge ≠ .listening → s.UnheardInTime process
  | .fail process => s.UnheardInTime process
  | .forward => ∀ payload, s.channel = [payload] → s.inflight.keys = [] →
      s.record.status.terminal = true → s.Suffices (some payload)
  | .drop place => ∀ payload, s.channel = [payload] → place = 0 → s.inflight.keys = [] →
      s.record.status.terminal = true → s.Suffices none
  | .stop => s.channel ≠ [] → s.inflight.keys = [] → s.record.status.terminal = true →
      s.Suffices none
  | _ => True

/-- A subscribed stream has a queue, a finished one has told its client, and one that has not been
advanced has sent nothing. -/
structure Wired : Prop where
  queue : ∀ client stream, s.streams.get? client = some stream → stream.stage.subscribed = true →
    ∃ queue, s.hub.get? client = some queue
  finished : ∀ client stream, s.streams.get? client = some stream → stream.stage = .finished →
    Told stream
  requested : ∀ client stream, s.streams.get? client = some stream → stream.stage = .requested →
    stream.frames = []

variable {s} {s' : ProgressSystem K} {client : ℕ} {stream : JobStream K} {payload : JobPayload K}

/-! ## One stream changes -/

/-- One stream is replaced, and no queue but its own changes. -/
structure Replaces (client : ℕ) (stream : JobStream K) (s s' : ProgressSystem K) : Prop where
  streams : s'.streams = s.streams.set client stream
  record : s'.record = s.record
  inflight : s'.inflight = s.inflight
  channel : s'.channel = s.channel
  hub : ∀ other, client ≠ other → s'.hub.get? other = s.hub.get? other

theorem Replaces.quiescent (h : Replaces client stream s s') : s'.Quiescent ↔ s.Quiescent := by
  rw [Quiescent, Quiescent, h.inflight, h.channel]

theorem Replaces.waiting_of_ne (h : Replaces client stream s s') {other : ℕ}
    (hne : client ≠ other) : s'.Waiting other ↔ s.Waiting other := by
  rw [Waiting, Waiting, h.hub other hne]

/-- A replaced stream that has its queue where it needs one leaves the system wired. -/
theorem Replaces.wired (h : Replaces client stream s s') (hwired : s.Wired)
    (hqueue : stream.stage.subscribed = true → ∃ queue, s'.hub.get? client = some queue)
    (hfinished : stream.stage = .finished → Told stream)
    (hrequested : stream.stage = .requested → stream.frames = []) : s'.Wired := by
  constructor
  · intro other stream' hget hsubscribed
    rw [h.streams, Dict.get?_set] at hget
    split at hget
    · next hother =>
      cases hget
      exact hother ▸ hqueue hsubscribed
    · next hne =>
      rw [h.hub other hne]
      exact hwired.queue other stream' hget hsubscribed
  · intro other stream' hget hstage
    rw [h.streams, Dict.get?_set] at hget
    split at hget
    · cases hget
      exact hfinished hstage
    · exact hwired.finished other stream' hget hstage
  · intro other stream' hget hstage
    rw [h.streams, Dict.get?_set] at hget
    split at hget
    · cases hget
      exact hrequested hstage
    · exact hwired.requested other stream' hget hstage

/-- The other streams are served as before. -/
theorem Replaces.served_iff (h : Replaces client stream s s') (hserved : s.Served) :
    s'.Served ↔ (s.Quiescent → s.record.status.terminal = true →
      stream.stage.subscribed = true → Told stream ∨ s'.Waiting client) := by
  rw [Served, h.quiescent, h.record]
  constructor
  · intro hserved' hquiescent hterminal
    exact hserved' hquiescent hterminal client stream (by rw [h.streams, Dict.get?_set_self])
  · intro hown hquiescent hterminal other stream' hget hsubscribed
    rw [h.streams, Dict.get?_set] at hget
    split at hget
    · next hother =>
      cases hget
      exact hother ▸ hown hquiescent hterminal hsubscribed
    · next hne =>
      rw [h.waiting_of_ne hne]
      exact hserved hquiescent hterminal other stream' hget hsubscribed

theorem replaces_setStream : Replaces client stream s (s.setStream client stream) :=
  ⟨rfl, rfl, rfl, rfl, fun _ _ => rfl⟩

theorem replaces_setQueue {queue : Option (JobPayload K)} : Replaces client stream s
    ({ s with hub := s.hub.set client queue }.setStream client stream) :=
  ⟨rfl, rfl, rfl, rfl, fun _ hne => Dict.get?_set_of_ne hne⟩

theorem replaces_eraseQueue : Replaces client stream s
    ({ s with hub := s.hub.erase client }.setStream client stream) :=
  ⟨rfl, rfl, rfl, rfl, fun _ hne => Dict.get?_erase_of_ne hne⟩

/-! ## The queues change -/

theorem get?_hubPublish : (s.hubPublish payload).hub.get? client =
    (s.hub.get? client).map fun _ => some payload := Dict.get?_map

/-- Nothing gets to the hub but the given payload, if any, and no stream moves. -/
structure Arrives (arriving : Option (JobPayload K)) (s s' : ProgressSystem K) : Prop where
  streams : s'.streams = s.streams
  hub : s'.hub = (arriving.elim s s.hubPublish).hub

theorem Arrives.wired {arriving : Option (JobPayload K)} (h : Arrives arriving s s')
    (hwired : s.Wired) : s'.Wired := by
  constructor
  · intro client stream hget hsubscribed
    obtain ⟨queue, hqueue⟩ := hwired.queue client stream (h.streams ▸ hget) hsubscribed
    cases arriving with
    | none => exact ⟨queue, h.hub ▸ hqueue⟩
    | some payload =>
      refine ⟨some payload, ?_⟩
      rw [h.hub, Option.elim_some, get?_hubPublish, hqueue, Option.map_some]
  · exact fun client stream hget => hwired.finished client stream (h.streams ▸ hget)
  · exact fun client stream hget => hwired.requested client stream (h.streams ▸ hget)

/-- A terminal payload waits in every queue it has been published to. -/
theorem Wired.waiting (h : s.Wired) (hterminal : payload.status.terminal = true)
    (hhub : s'.hub = (s.hubPublish payload).hub) (hget : s.streams.get? client = some stream)
    (hsubscribed : stream.stage.subscribed = true) : s'.Waiting client := by
  obtain ⟨queue, hqueue⟩ := h.queue client stream hget hsubscribed
  exact ⟨payload, by rw [hhub, get?_hubPublish, hqueue, Option.map_some], hterminal⟩

/-- No queue holds a terminal payload after an active one has been published. -/
theorem not_waiting_hubPublish (hactive : payload.status.terminal = false)
    (hhub : s'.hub = (s.hubPublish payload).hub) : ¬ s'.Waiting client := by
  rintro ⟨payload', hget, hterminal⟩
  rw [hhub, get?_hubPublish] at hget
  cases hqueue : s.hub.get? client with
  | none =>
    rw [hqueue] at hget
    cases hget
  | some queue =>
    rw [hqueue] at hget
    cases hget
    exact Bool.false_ne_true (hactive.symm.trans hterminal)

/-- What arrives informs the clients exactly when it suffices. -/
theorem Arrives.informed_iff {arriving : Option (JobPayload K)} (h : Arrives arriving s s')
    (hwired : s.Wired) : s'.Informed ↔ s.Suffices arriving := by
  cases arriving with
  | none =>
    have hwaiting : ∀ client, s'.Waiting client ↔ s.Waiting client := fun client => by
      rw [Waiting, Waiting, h.hub, Option.elim_none]
    simp only [Informed, Suffices, h.streams, hwaiting]
  | some payload =>
    constructor
    · intro hinformed
      refine Classical.or_iff_not_imp_left.mpr fun hactive client stream hget hsubscribed => ?_
      refine (hinformed client stream (h.streams ▸ hget) hsubscribed).resolve_right ?_
      exact not_waiting_hubPublish (Bool.not_eq_true _ ▸ hactive) h.hub
    · rintro (hterminal | htold) client stream hget hsubscribed
      · exact .inr (hwired.waiting hterminal h.hub (h.streams ▸ hget) hsubscribed)
      · exact .inl (htold client stream (h.streams ▸ hget) hsubscribed)

/-- After a message about an unchanged record the clients are served exactly when it suffices. -/
theorem Arrives.served_iff {arriving : Option (JobPayload K)} (h : Arrives arriving s s')
    (hwired : s.Wired) (hrecord : s'.record = s.record) : s'.Served ↔
      (s'.Quiescent → s.record.status.terminal = true → s.Suffices arriving) := by
  rw [Served, h.informed_iff hwired, hrecord]

/-! ## The steps -/

theorem told_sent_terminal {stage : StreamStage} : Told (stream.sent stage (.terminal payload)) :=
  .inl ⟨payload, List.mem_append_right _ (List.mem_singleton_self _)⟩

/-- A stream past its snapshot that has told its client still has. -/
theorem Told.sent (h : Told stream)
    (hactive : stream.stage = .opened → stream.initial.status.terminal = false)
    {stage : StreamStage} {frame : SseFrame K} : Told (stream.sent stage frame) := by
  rcases h with ⟨p, hp⟩ | ⟨hopened, hterminal⟩
  · exact .inl ⟨p, List.mem_append_left _ hp⟩
  · exact absurd ((hactive hopened).symm.trans hterminal) Bool.false_ne_true

/-- A turn of the loop leaves a wired and served system so. -/
theorem takeQueue_spec (hwired : s.Wired) (hserved : s.Served)
    (hget : s.streams.get? client = some stream)
    (hstage : stream.stage = .opened ∨ stream.stage = .looping)
    (hactive : stream.stage = .opened → stream.initial.status.terminal = false) :
    (s.takeQueue client stream).Wired ∧ (s.takeQueue client stream).Served := by
  have hsubscribed : stream.stage.subscribed = true := by
    rcases hstage with h | h <;> rw [h] <;> rfl
  obtain ⟨queue, hqueue⟩ := hwired.queue client stream hget hsubscribed
  have howed := fun hquiescent hterminal =>
    hserved hquiescent hterminal client stream hget hsubscribed
  cases queue with
  | none =>
    have hreplaces : Replaces client { stream with stage := .looping } s
        (s.takeQueue client stream) := by
      simp only [takeQueue, hqueue]
      exact replaces_setStream
    have hsame : (s.takeQueue client stream).hub = s.hub := by
      simp only [takeQueue, hqueue]
      rfl
    refine ⟨hreplaces.wired hwired (fun _ => ⟨none, hsame ▸ hqueue⟩) (by rintro ⟨⟩) (by rintro ⟨⟩),
      (hreplaces.served_iff hserved).mpr fun hquiescent hterminal _ => ?_⟩
    rcases howed hquiescent hterminal with (hsent | ⟨hopened, hinitial⟩) | ⟨p, hp, -⟩
    · exact .inl (.inl hsent)
    · exact absurd ((hactive hopened).symm.trans hinitial) Bool.false_ne_true
    · cases hqueue.symm.trans hp
  | some payload =>
    cases hpayload : payload.status.terminal with
    | true =>
      have hreplaces : Replaces client (stream.sent .finished (.terminal payload)) s
          (s.takeQueue client stream) := by
        simp only [takeQueue, hqueue, hpayload, if_true]
        exact replaces_setQueue
      have hempty : (s.takeQueue client stream).hub.get? client = some none := by
        simp only [takeQueue, hqueue]
        exact Dict.get?_set_self
      exact ⟨hreplaces.wired hwired (fun _ => ⟨none, hempty⟩) (fun _ => told_sent_terminal)
        (by rintro ⟨⟩), (hreplaces.served_iff hserved).mpr fun _ _ _ => .inl told_sent_terminal⟩
    | false =>
      have hreplaces : Replaces client (stream.sent .looping (.progress payload)) s
          (s.takeQueue client stream) := by
        simp only [takeQueue, hqueue, hpayload, Bool.false_eq_true, if_false]
        exact replaces_setQueue
      have hempty : (s.takeQueue client stream).hub.get? client = some none := by
        simp only [takeQueue, hqueue]
        exact Dict.get?_set_self
      refine ⟨hreplaces.wired hwired (fun _ => ⟨none, hempty⟩) (by rintro ⟨⟩) (by rintro ⟨⟩),
        (hreplaces.served_iff hserved).mpr fun hquiescent hterminal _ => ?_⟩
      rcases howed hquiescent hterminal with h | ⟨p, hp, hp'⟩
      · exact .inl (h.sent hactive)
      · cases hqueue.symm.trans hp
        exact absurd (hpayload.symm.trans hp') Bool.false_ne_true

/-- A stream that subscribes is owed its terminal frame by the snapshot alone. -/
theorem openStream_spec (hwired : s.Wired) (hserved : s.Served)
    (hget : s.streams.get? client = some stream) (hstage : stream.stage = .requested) :
    (s.openStream client stream).Wired ∧ ((s.openStream client stream).Served ↔
      (s.Quiescent → s.record.status.terminal = true → stream.initial.status.terminal = true)) := by
  have hreplaces : Replaces client (stream.sent .opened (.snapshot stream.initial)) s
    (s.openStream client stream) := replaces_setQueue
  have hempty : (s.openStream client stream).hub.get? client = some none := Dict.get?_set_self
  refine ⟨hreplaces.wired hwired (fun _ => ⟨none, hempty⟩) nofun nofun, ?_⟩
  rw [hreplaces.served_iff hserved]
  refine forall_congr' fun _ => forall_congr' fun _ => ?_
  constructor
  · intro h
    rcases h rfl with (⟨p, hp⟩ | ⟨-, hinitial⟩) | ⟨p, hp, -⟩
    · rw [JobStream.sent, hwired.requested client stream hget hstage] at hp
      cases List.mem_singleton.mp hp
    · exact hinitial
    · cases hempty.symm.trans hp
  · exact fun hinitial _ => .inl (.inr ⟨rfl, hinitial⟩)

theorem closeStream_spec (hwired : s.Wired) (hserved : s.Served) :
    (s.closeStream client stream).Wired ∧ (s.closeStream client stream).Served := by
  have hreplaces : Replaces client { stream with stage := .closed } s
    (s.closeStream client stream) := replaces_eraseQueue
  exact ⟨hreplaces.wired hwired nofun nofun nofun,
    (hreplaces.served_iff hserved).mpr fun _ _ => nofun⟩

/-- The generator moves on: the system stays wired, and is served if it subscribes in time. -/
theorem advance_spec (hwired : s.Wired) (hserved : s.Served)
    (hget : s.streams.get? client = some stream) :
    (s.advance client stream).Wired ∧ ((s.advance client stream).Served ↔
      (stream.stage = .requested → s.Quiescent → s.record.status.terminal = true →
        stream.initial.status.terminal = true)) := by
  cases hstage : stream.stage with
  | requested =>
    obtain ⟨hwired', hserved'⟩ := openStream_spec hwired hserved hget hstage
    simp only [advance, hstage, true_implies]
    exact ⟨hwired', hserved'⟩
  | opened =>
    simp only [advance, hstage, reduceCtorEq, false_implies, iff_true]
    cases hinitial : stream.initial.status.terminal with
    | true =>
      have hreplaces : Replaces client (stream.sent .finished (.terminal stream.initial)) s _ :=
        replaces_setStream
      simp only [if_true]
      refine ⟨hreplaces.wired hwired (fun _ => ?_) (fun _ => told_sent_terminal) nofun,
        (hreplaces.served_iff hserved).mpr fun _ _ _ => .inl told_sent_terminal⟩
      exact hwired.queue client stream hget (by rw [hstage]; rfl)
    | false =>
      simp only [Bool.false_eq_true, if_false]
      exact takeQueue_spec hwired hserved hget (.inl hstage) fun _ => hinitial
  | looping =>
    simp only [advance, hstage, reduceCtorEq, false_implies, iff_true]
    exact takeQueue_spec hwired hserved hget (.inr hstage) (by rw [hstage]; nofun)
  | finished =>
    simp only [advance, hstage, reduceCtorEq, false_implies, iff_true]
    exact closeStream_spec hwired hserved
  | closed =>
    simp only [advance, hstage, reduceCtorEq, false_implies, iff_true]
    exact ⟨hwired, hserved⟩

/-- While a publish is under way nothing is owed. -/
theorem served_of_not_quiescent (h : ¬ s.Quiescent) : s.Served := fun hquiescent =>
  absurd hquiescent h

/-- Where the last payload on its way is an earlier one of a job that has ended, the clients have
been told already. -/
theorem forward_spec (hwired : s.Wired) (hserved : s.Served) :
    (s.step .forward).Wired ∧ ((s.step .forward).Served ↔ s.InTime .forward) := by
  cases hchannel : s.channel with
  | nil =>
    simp only [step, hchannel]
    refine ⟨hwired, iff_of_true hserved fun payload hone => ?_⟩
    cases hchannel.symm.trans hone
  | cons payload channel =>
    have harrives : Arrives (some payload) s (s.step .forward) := by
      simp only [step, hchannel]
      exact ⟨rfl, rfl⟩
    have hquiescent : (s.step .forward).Quiescent ↔ s.inflight.keys = [] ∧ channel = [] := by
      simp only [step, hchannel]
      exact Iff.rfl
    have hrecord : (s.step .forward).record = s.record := by
      simp only [step, hchannel]
      rfl
    refine ⟨harrives.wired hwired, ?_⟩
    rw [harrives.served_iff hwired hrecord, hquiescent]
    constructor
    · intro h payload' hone hinflight
      cases hchannel.symm.trans hone
      exact h ⟨hinflight, rfl⟩
    · intro h hnone
      exact h payload (by rw [hchannel, hnone.2]) hnone.1

theorem arrives_publishLocally (s : ProgressSystem K) (process : ℕ) (payload : JobPayload K) :
    Arrives (if process = 0 then some payload else none) s (s.publishLocally process payload) := by
  by_cases hown : process = 0
  · rw [if_pos hown, publishLocally, if_pos hown]
    exact ⟨rfl, rfl⟩
  · rw [if_neg hown, publishLocally, if_neg hown]
    exact ⟨rfl, rfl⟩

/-- A publish that does not get to the bridge is in time when the local one is. -/
theorem fail_spec (hwired : s.Wired) (hserved : s.Served) (process : ℕ) :
    (s.step (.fail process)).Wired ∧
      ((s.step (.fail process)).Served ↔ s.UnheardInTime process) := by
  cases hpayload : s.inflight.get? process with
  | none =>
    simp only [step, hpayload]
    refine ⟨hwired, iff_of_true hserved fun payload hsome => ?_⟩
    cases hpayload.symm.trans hsome
  | some payload =>
    have harrives := arrives_publishLocally s process payload
    have hquiescent : (s.publishLocally process payload).Quiescent ↔
        (s.inflight.erase process).keys = [] ∧ s.channel = [] := by
      unfold publishLocally
      split <;> exact Iff.rfl
    have hrecord : (s.publishLocally process payload).record = s.record := by
      unfold publishLocally
      split <;> rfl
    simp only [step, hpayload]
    refine ⟨harrives.wired hwired, ?_⟩
    rw [harrives.served_iff hwired hrecord, hquiescent]
    constructor
    · intro h payload' hsome hinflight hchannel
      cases hpayload.symm.trans hsome
      exact h ⟨hinflight, hchannel⟩
    · exact fun h hnone => h payload hpayload hnone.1 hnone.2

/-- A publish is under way until the bridge has forwarded it, and unheard where none listens. -/
theorem publish_spec (hwired : s.Wired) (hserved : s.Served) (process : ℕ) :
    (s.step (.publish process)).Wired ∧
      ((s.step (.publish process)).Served ↔ s.InTime (.publish process)) := by
  by_cases hlistens : s.bridge = .listening
  · cases hpayload : s.inflight.get? process with
    | none =>
      simp only [step, hpayload]
      exact ⟨hwired, iff_of_true hserved fun hdeaf => absurd hlistens hdeaf⟩
    | some payload =>
      have harrives := arrives_publishLocally s process payload
      have hbridge : (s.publishLocally process payload).bridge = .listening := by
        unfold publishLocally
        split <;> exact hlistens
      simp only [step, hpayload, redisPublish, if_pos hbridge]
      have hsent : Arrives (if process = 0 then some payload else none) s
          { s.publishLocally process payload with
            channel := (s.publishLocally process payload).channel ++ [payload] } :=
        ⟨harrives.streams, harrives.hub⟩
      refine ⟨hsent.wired hwired, iff_of_true (served_of_not_quiescent ?_)
        fun hdeaf => absurd hlistens hdeaf⟩
      rintro ⟨-, hnone⟩
      exact List.append_ne_nil_of_right_ne_nil _ (List.cons_ne_nil payload []) hnone
  · have hsame : s.step (.publish process) = s.step (.fail process) := by
      cases hpayload : s.inflight.get? process with
      | none => simp only [step, hpayload]
      | some payload =>
        have hbridge : (s.publishLocally process payload).bridge ≠ .listening := by
          unfold publishLocally
          split <;> exact hlistens
        simp only [step, hpayload, redisPublish, if_neg hbridge]
    obtain ⟨hwired', hserved'⟩ := fail_spec hwired hserved process
    rw [hsame]
    exact ⟨hwired', hserved'.trans ⟨fun h _ => h, fun h => h hlistens⟩⟩

/-- A message that is lost, the last one under way, is in time when the clients need none. -/
theorem drop_spec (hwired : s.Wired) (hserved : s.Served) (place : ℕ) :
    (s.step (.drop place)).Wired ∧
      ((s.step (.drop place)).Served ↔ s.InTime (.drop place)) := by
  have harrives : Arrives none s (s.step (.drop place)) := ⟨rfl, rfl⟩
  refine ⟨harrives.wired hwired, ?_⟩
  rw [harrives.served_iff hwired rfl]
  constructor
  · rintro h payload hone rfl hinflight
    exact h ⟨hinflight, by simp only [step, hone, List.eraseIdx_cons_zero]⟩
  · rintro h ⟨hinflight, hnone⟩ hterminal
    change s.channel.eraseIdx place = [] at hnone
    cases hchannel : s.channel with
    | nil => exact hserved ⟨hinflight, hchannel⟩ hterminal
    | cons payload channel =>
      rw [hchannel] at hnone
      cases place with
      | zero =>
        rw [List.eraseIdx_cons_zero] at hnone
        exact h payload (by rw [hchannel, hnone]) rfl hinflight hterminal
      | succ place =>
        rw [List.eraseIdx_cons_succ] at hnone
        cases hnone

/-- A bridge that stops is in time when the clients need none of the messages it leaves. -/
theorem stop_spec (hwired : s.Wired) (hserved : s.Served) :
    (s.step .stop).Wired ∧ ((s.step .stop).Served ↔ s.InTime .stop) := by
  have harrives : Arrives none s (s.step .stop) := ⟨rfl, rfl⟩
  refine ⟨harrives.wired hwired, ?_⟩
  rw [harrives.served_iff hwired rfl]
  constructor
  · exact fun h _ hinflight => h ⟨hinflight, rfl⟩
  · rintro h ⟨hinflight, -⟩ hterminal
    by_cases hchannel : s.channel = []
    · exact hserved ⟨hinflight, hchannel⟩ hterminal
    · exact h hchannel hinflight hterminal

/-- A ping serves nobody, and loses nothing. -/
theorem timeout_spec (hwired : s.Wired) (hserved : s.Served) (client : ℕ) :
    (s.step (.timeout client)).Wired ∧
      ((s.step (.timeout client)).Served ↔ s.InTime (.timeout client)) := by
  cases hget : s.streams.get? client with
  | none =>
    simp only [step, hget]
    exact ⟨hwired, iff_true_intro hserved⟩
  | some stream =>
    by_cases hidle : stream.stage = .looping ∧ (s.hub.get? client).any (·.isNone) = true
    · have hsubscribed : stream.stage.subscribed = true := by rw [hidle.1]; rfl
      have hreplaces : Replaces client (stream.sent .looping .ping) s
        (s.setStream client (stream.sent .looping .ping)) := replaces_setStream
      simp only [step, hget, if_pos hidle]
      refine ⟨hreplaces.wired hwired (fun _ => hwired.queue client stream hget hsubscribed)
        (by rintro ⟨⟩) (by rintro ⟨⟩),
        iff_true_intro ((hreplaces.served_iff hserved).mpr fun hquiescent hterminal _ => ?_)⟩
      refine (hserved hquiescent hterminal client stream hget hsubscribed).imp_left fun h => ?_
      refine h.sent fun hopened => ?_
      cases hidle.1.symm.trans hopened
    · simp only [step, hget, if_neg hidle]
      exact ⟨hwired, iff_true_intro hserved⟩

/-- Every step keeps a served system wired, and served exactly when it is in time. -/
theorem step_spec (i : ProgressStep K) (hwired : s.Wired) (hserved : s.Served) :
    (s.step i).Wired ∧ ((s.step i).Served ↔ s.InTime i) := by
  cases i with
  | update job now =>
    have harrives : Arrives (some (job.stamp now).updatePayload) s (s.step (.update job now)) :=
      ⟨rfl, rfl⟩
    refine ⟨harrives.wired hwired, iff_true_intro fun _ hterminal => ?_⟩
    refine (harrives.informed_iff hwired).mpr (.inl ?_)
    rw [Job.updatePayload_status]
    exact hterminal
  | save process job now =>
    by_cases hmem : process ∈ s.inflight.keys
    · simp only [step, if_pos hmem]
      exact ⟨hwired, iff_true_intro hserved⟩
    · simp only [step, if_neg hmem]
      have harrives : Arrives none s { s with
          record := (job.stamp now).serialize
          inflight := s.inflight.set process (job.stamp now).updatePayload } := ⟨rfl, rfl⟩
      refine ⟨harrives.wired hwired, iff_true_intro (served_of_not_quiescent ?_)⟩
      rintro ⟨hnone, -⟩
      have hset : process ∈ (s.inflight.set process (job.stamp now).updatePayload).keys :=
        Dict.mem_keys_set.mpr (.inl rfl)
      exact List.not_mem_nil (hnone ▸ hset)
  | publish process => exact publish_spec hwired hserved process
  | fail process => exact fail_spec hwired hserved process
  | listen =>
    have harrives : Arrives none s (s.step .listen) := by
      unfold step
      dsimp only
      split <;> exact ⟨rfl, rfl⟩
    have hsame : (s.step .listen).record = s.record ∧
        ((s.step .listen).Quiescent ↔ s.Quiescent) := by
      unfold step
      dsimp only
      split <;> exact ⟨rfl, Iff.rfl⟩
    refine ⟨harrives.wired hwired, iff_true_intro ?_⟩
    rw [harrives.served_iff hwired hsame.1, hsame.2]
    exact hserved
  | forward => exact forward_spec hwired hserved
  | drop place => exact drop_spec hwired hserved place
  | stop => exact stop_spec hwired hserved
  | request client =>
    by_cases hmem : client ∈ s.streams.keys
    · simp only [step, if_pos hmem]
      exact ⟨hwired, iff_true_intro hserved⟩
    · have hreplaces : Replaces client { initial := (s.record.load none).response } s
        (s.setStream client { initial := (s.record.load none).response }) := replaces_setStream
      simp only [step, if_neg hmem]
      exact ⟨hreplaces.wired hwired (by rintro ⟨⟩) (by rintro ⟨⟩) fun _ => rfl,
        iff_true_intro ((hreplaces.served_iff hserved).mpr fun _ _ => by rintro ⟨⟩)⟩
  | next client =>
    cases hget : s.streams.get? client with
    | none =>
      simp only [step, hget]
      refine ⟨hwired, iff_of_true hserved fun stream hsome => ?_⟩
      cases hget.symm.trans hsome
    | some stream =>
      obtain ⟨hwired', hserved'⟩ := advance_spec hwired hserved hget
      simp only [step, hget]
      refine ⟨hwired', hserved'.trans ⟨fun h stream' hget' => ?_, fun h => h stream hget⟩⟩
      cases hget.symm.trans hget'
      exact h
  | timeout client => exact timeout_spec hwired hserved client
  | disconnect client =>
    cases hget : s.streams.get? client with
    | none =>
      simp only [step, hget]
      exact ⟨hwired, iff_true_intro hserved⟩
    | some stream =>
      obtain ⟨hwired', hserved'⟩ : (s.closeStream client stream).Wired ∧
        (s.closeStream client stream).Served := closeStream_spec hwired hserved
      simp only [step, hget]
      exact ⟨hwired', iff_true_intro hserved'⟩

/-- Before a run no client has a stream. -/
theorem not_streaming {record : JobRecord K} {client : ℕ} {stream : JobStream K} :
    ({ record } : ProgressSystem K).streams.get? client ≠ some stream := by
  rw [Dict.get?_empty]
  exact (Option.some_ne_none stream).symm

theorem wired_start (record : JobRecord K) : ({ record } : ProgressSystem K).Wired where
  queue _ _ hget := absurd hget not_streaming
  finished _ _ hget := absurd hget not_streaming
  requested _ _ hget := absurd hget not_streaming

theorem served_start (record : JobRecord K) : ({ record } : ProgressSystem K).Served :=
  fun _ _ _ _ hget => absurd hget not_streaming

/-- In every state of a run the waiting clients of a finished job are served exactly when no stream
subscribes too late, and the last message about a finished job leaves none of them untold, be it
forwarded or lost. -/
theorem along_served_iff (record : JobRecord K) (steps : List (ProgressStep K)) :
    Run.Along step (fun s i => (s.step i).Served) { record } steps ↔
      Run.Along step InTime { record } steps :=
  Run.along_iff (I := fun s => s.Wired ∧ s.Served) (D := fun _ _ => True)
    (fun _ i h _ hintime =>
      have hspec := step_spec i h.1 h.2
      ⟨hspec.1, hspec.2.mpr hintime⟩)
    (fun _ i h _ => (step_spec i h.1 h.2).2) ⟨wired_start record, served_start record⟩
    Run.along_true

/-- A job at work. -/
def runningJob : Job JobKind.bare where
  id := 1
  status := .running
  config := ()
  createdAt := 0
  updatedAt := 0

/-- The job is finished between the request of a client and the start of its stream. -/
def lateSubscription : List (ProgressStep JobKind.bare) :=
  [.request 0, .update { runningJob with status := .completed } 1, .next 0, .next 0, .timeout 0]

theorem not_served_lateSubscription : ¬ Run.Along step (fun s i => (s.step i).Served)
    { record := runningJob.serialize } lateSubscription := by
  intro hserved
  have hopened := hserved.2.2.1
  have hfinished := hopened ⟨rfl, rfl⟩ rfl
  have hclient := hfinished 0 _ rfl rfl
  rcases hclient with (⟨payload, hsent⟩ | ⟨-, hinitial⟩) | ⟨_, hqueue, -⟩
  · cases List.mem_singleton.mp hsent
  · cases hinitial
  · cases hqueue

end ProgressSystem

end TradingPlatform
