import TradingPlatform.Lib.Joined
import TradingPlatform.Lib.KeyedLog
import TradingPlatform.Replay.Snapshots

/-!
# The correlation ids of a history

The events of a cycle are fetched by its correlation id alone. The id spells out the key of the
cycle: of a validation cycle its place in the run and the time of its bar, of a live cycle its
market and its time. Different keys have different texts, so the cycles of a history are told apart
exactly when no key is written twice.
-/

namespace TradingPlatform

/-! ## Texts of keys -/

/-- The text of a live cycle tells its key. -/
theorem LiveEntry.key_eq_of_text {entry entry' : LiveEntry} {label label' : String} {now now' : ℤ}
    (h : entry.correlationText label now = entry'.correlationText label' now') :
    entry.key label now = entry'.key label' now' := by
  have hnotMem : ∀ (entry : LiveEntry) (now : ℤ), '_' ∉ (entry.timeText now).toList := by
    intro entry now
    cases entry with
    | manager => exact Calendar.underscore_notMem_stamp now
    | direct => exact Calendar.underscore_notMem_isoformat now
  obtain ⟨hlabel, htime⟩ := Joined.text_inj_of_last rfl (hnotMem entry now) (hnotMem entry' now') h
  obtain rfl : label = label' := String.append_right_inj "live_" |>.mp hlabel
  cases entry with
  | manager =>
    cases entry' with
    | manager => exact congrArg (CycleKey.second label) (Calendar.stamp_eq_iff.mp htime)
    | direct => exact absurd htime (Calendar.stamp_ne_isoformat now now')
  | direct =>
    cases entry' with
    | manager => exact absurd htime.symm (Calendar.stamp_ne_isoformat now' now)
    | direct => exact congrArg (CycleKey.instant label) (Calendar.isoformat_injective htime)

/-- The text of a validation cycle tells its place and its bar. -/
theorem ValidationHarness.correlationText_injective {bar bar' : ℤ × ℕ}
    (h : correlationText Calendar.isoformat bar = correlationText Calendar.isoformat bar') :
    bar = bar' := by
  obtain ⟨hindex, htime⟩ := Joined.text_inj_of_last rfl
    (Calendar.underscore_notMem_isoformat bar.1) (Calendar.underscore_notMem_isoformat bar'.1) h
  have hrepr : toString bar.2 = toString bar'.2 := String.append_right_inj "val_" |>.mp hindex
  exact Prod.ext (Calendar.isoformat_injective htime) (Nat.repr_injective hrepr)

theorem live_text_ne_bar_text {entry : LiveEntry} {label : String} {now : ℤ} {bar : ℤ × ℕ} :
    entry.correlationText label now ≠
      ValidationHarness.correlationText Calendar.isoformat bar := by
  intro h
  have hhead := congrArg (fun text : String => text.toList.head?) h
  simp [LiveEntry.correlationText, ValidationHarness.correlationText] at hhead

namespace CycleKey

/-- The text of a key. -/
def text : CycleKey → String
  | .bar index barTime => ValidationHarness.correlationText Calendar.isoformat (barTime, index)
  | .second label s => LiveEntry.manager.correlationText label (s * 1000000)
  | .instant label t => LiveEntry.direct.correlationText label t

def correlationId (key : CycleKey) : CorrelationId := .given key.text

/-- A live cycle's correlation id is the text of its key. -/
theorem text_key (entry : LiveEntry) (label : String) (now : ℤ) :
    (entry.key label now).text = entry.correlationText label now := by
  cases entry with
  | direct => rfl
  | manager =>
    refine congrArg (fun text => "live_" ++ label ++ "_" ++ text) (Calendar.stamp_eq_iff.mpr ?_)
    omega

theorem text_injective {key key' : CycleKey} (h : key.text = key'.text) : key = key' := by
  cases key with
  | bar index barTime =>
    cases key' with
    | bar =>
      obtain ⟨rfl, rfl⟩ := Prod.mk.inj (ValidationHarness.correlationText_injective h)
      rfl
    | second => exact absurd h.symm live_text_ne_bar_text
    | instant => exact absurd h.symm live_text_ne_bar_text
  | second label s =>
    have hsecond : ∀ label (s : ℤ), LiveEntry.manager.key label (s * 1000000) = .second label s :=
      fun label s => congrArg (CycleKey.second label) (by omega)
    cases key' with
    | bar => exact absurd h live_text_ne_bar_text
    | second =>
      have hkey := LiveEntry.key_eq_of_text h
      rwa [hsecond, hsecond] at hkey
    | instant =>
      have hkey := LiveEntry.key_eq_of_text h
      cases hkey
  | instant label t =>
    cases key' with
    | bar => exact absurd h live_text_ne_bar_text
    | second =>
      have hkey := LiveEntry.key_eq_of_text h
      cases hkey
    | instant => exact LiveEntry.key_eq_of_text h

theorem correlationId_injective {key key' : CycleKey}
    (h : key.correlationId = key'.correlationId) : key = key' :=
  text_injective (CorrelationId.given.inj h)

/-- A liquidation has the correlation id of no cycle: it has a word where a cycle has a number. -/
theorem correlationId_ne_liquidation (key : CycleKey) (t : ℤ) :
    key.correlationId ≠ .given ("val_liquidate_" ++ Calendar.isoformat t) := by
  intro h
  have htext : key.text = "val_liquidate_" ++ Calendar.isoformat t := CorrelationId.given.inj h
  cases key with
  | bar index barTime =>
    have hlast : "val_" ++ toString index ++ "_" ++ Calendar.isoformat barTime =
        "val_liquidate" ++ "_" ++ Calendar.isoformat t := htext
    obtain ⟨hfront, _⟩ := Joined.text_inj_of_last rfl
      (Calendar.underscore_notMem_isoformat barTime)
      (Calendar.underscore_notMem_isoformat t) hlast
    have hindex : toString index = "liquidate" := String.append_right_inj "val_" |>.mp hfront
    have hmem : 'l' ∈ Nat.toDigits 10 index := by
      have hlist : Nat.toDigits 10 index = "liquidate".toList := by
        rw [← hindex]
        exact Nat.toList_repr.symm
      rw [hlist]
      decide
    exact absurd (Nat.isDigit_of_mem_toDigits (by decide) (by decide) hmem) (by decide)
  | second | instant =>
    have hhead := congrArg (fun text : String => text.toList.head?) htext
    simp [text, LiveEntry.correlationText] at hhead

end CycleKey

/-! ## The log of a history -/

/-- The event log has, under the correlation id of each key, the events of its cycles. -/
structure Logged (log : List EventEnvelope) (recorded : List RecordedCycle) : Prop where
  keyed : ∀ r ∈ recorded, r.cycle.correlationId = r.key.correlationId
  made : ∀ r ∈ recorded, ∀ id ∈ madeSnapshots r.cycle.events, id = r.cycle.snapshot.snapshotId
  rows : KeyedLog.Written EventEnvelope.correlationId CycleKey.correlationId RecordedCycle.key
    (·.cycle.events) log recorded

namespace Logged

variable {log log' : List EventEnvelope} {recorded recorded' : List RecordedCycle}

theorem nil : Logged [] [] := ⟨by simp, by simp, .nil⟩

theorem append (h : Logged log recorded) (h' : Logged log' recorded') :
    Logged (log ++ log') (recorded ++ recorded') where
  keyed := List.forall_mem_append.mpr ⟨h.keyed, h'.keyed⟩
  made := List.forall_mem_append.mpr ⟨h.made, h'.made⟩
  rows := h.rows.append h'.rows

/-- The events of a liquidation are those of no cycle. -/
theorem closing (h : Closing Calendar.isoformat log) : Logged log [] where
  keyed := by simp
  made := by simp
  rows := by
    obtain ⟨⟨t, hliquidation⟩, _⟩ := h
    exact .foreign fun e he key hkey =>
      key.correlationId_ne_liquidation t (hkey.symm.trans (hliquidation e he))

/-- Cycles that publish one after another, each of them under its own correlation id. -/
theorem cycles (hkeyed : ∀ r ∈ recorded, r.cycle.correlationId = r.key.correlationId)
    (hstamped : ∀ r ∈ recorded, ∀ e ∈ r.cycle.events, e.correlationId = r.cycle.correlationId)
    (hmade : ∀ r ∈ recorded, ∀ id ∈ madeSnapshots r.cycle.events,
      id = r.cycle.snapshot.snapshotId) :
    Logged (recorded.flatMap (·.cycle.events)) recorded where
  keyed := hkeyed
  made := hmade
  rows := .flatMap (fun _ _ => CycleKey.correlationId_injective) fun r hr e he =>
    (hstamped r hr e he).trans (hkeyed r hr)

end Logged

/-! ## The cycles of one operation -/

namespace ValidationJob

variable (job : ValidationJob) (env : JobEnvironment) (uuid : ℕ)

theorem nodup_bars : (job.bars env).Nodup := by
  unfold bars ValidationHarness.bars
  split
  · exact List.nodup_nil
  · split
    · exact List.nodup_nil
    · exact (List.nodup_zipIdx_map_snd _).of_map

/-- No two cycles of a job have the same key: they are on different bars. -/
theorem nodup_keys_recordedCycles (run : JobRun) :
    ((job.recordedCycles env run).map RecordedCycle.key).Nodup := by
  have hbars : (((job.bars env).zip run.cycles).map Prod.fst).Nodup := by
    rw [List.zip_eq_zip_take_min, List.map_fst_zip (by simp)]
    exact (job.nodup_bars env).sublist (List.take_sublist _ _)
  have hkeys : (job.recordedCycles env run).map RecordedCycle.key =
      (((job.bars env).zip run.cycles).map Prod.fst).map fun bar => CycleKey.bar bar.2 bar.1 := by
    rw [recordedCycles, List.map_map, List.map_map]
    rfl
  rw [hkeys]
  refine hbars.map fun bar bar' h => ?_
  obtain ⟨hindex, htime⟩ := CycleKey.bar.inj h
  exact Prod.ext htime hindex

/-- What a job publishes is the events of its cycles, and those of the liquidation. -/
theorem logged_execute :
    Logged (job.execute env uuid).published
      (job.recordedCycles env (job.execute env uuid)) := by
  have hleaves := job.leaves_execute env uuid
  obtain ⟨closing, hclosing, hpublished⟩ := hleaves.published
  have hcycles : (job.recordedCycles env (job.execute env uuid)).map RecordedCycle.cycle =
      (job.execute env uuid).cycles := by
    rw [recordedCycles, List.map_map]
    exact List.map_snd_zip hleaves.completed.length
  have hmem : ∀ r ∈ job.recordedCycles env (job.execute env uuid),
      r.cycle ∈ (job.execute env uuid).cycles := fun r hr =>
    hcycles ▸ List.mem_map_of_mem hr
  have hevents : (job.execute env uuid).cycles.flatMap (·.events) =
      (job.recordedCycles env (job.execute env uuid)).flatMap (·.cycle.events) := by
    rw [← hcycles, List.flatMap_map]
  have hlogged : Logged ((job.recordedCycles env (job.execute env uuid)).flatMap (·.cycle.events))
      (job.recordedCycles env (job.execute env uuid)) := by
    refine .cycles (fun r hr => ?_) (fun r hr => ?_) fun r hr id hid => ?_
    · obtain ⟨p, hp, rfl⟩ := List.mem_map.mp hr
      exact hleaves.completed.correlationIds p hp
    · exact hleaves.completed.stamped r.cycle (hmem r hr)
    · exact PlatformRuntime.eq_of_mem_madeSnapshots (hleaves.completed.made r.cycle (hmem r hr)) hid
  rw [hpublished, hevents]
  have hboth := hlogged.append (.closing hclosing)
  rwa [List.append_nil] at hboth

end ValidationJob

namespace Deployment

variable {d : Deployment} {op : Operation}

/-- The cycles whose events an operation writes to the log. -/
def written (d : Deployment) : Operation → List RecordedCycle
  | .validate job env =>
    if job.persistsStream then job.recordedCycles env (job.execute env d.uuid) else []
  | .build .. => []
  | .live k entry call now =>
    match d.liveStacks[k]? with
    | none => []
    | some stack =>
      match (d.runLive stack entry call now).1, stack.persistDb with
      | .ok cycle, true => [⟨entry.key (marketLabel call.symbol call.timeframe) now, cycle⟩]
      | _, _ => []

/-- A live cycle publishes under the correlation id of its key. -/
theorem logged_runLive {stack : LiveStack} {entry : LiveEntry} {call : LiveCall} {now : ℤ}
    {cycle : CycleResult} {rt : PlatformRuntime}
    (hrun : d.runLive stack entry call now = (.ok cycle, rt)) :
    Logged cycle.events [⟨entry.key (marketLabel call.symbol call.timeframe) now, cycle⟩] := by
  have hpub := PlatformRuntime.runCycle_publishes hrun
  have hid : cycle.correlationId =
      (entry.key (marketLabel call.symbol call.timeframe) now).correlationId := by
    rw [hpub.correlationId, PlatformRuntime.cycleId_of_text (x := 'l')
      (s := entry.correlationText (marketLabel call.symbol call.timeframe) now)]
    · rw [CycleKey.correlationId, CycleKey.text_key]
    · cases entry <;> rfl
    · simp [LiveEntry.correlationText]
  let r : RecordedCycle := ⟨entry.key (marketLabel call.symbol call.timeframe) now, cycle⟩
  have hlogged : Logged ([r].flatMap (·.cycle.events)) [r] :=
    .cycles (List.forall_mem_singleton.mpr hid) (List.forall_mem_singleton.mpr hpub.stamped)
      (List.forall_mem_singleton.mpr fun _ => PlatformRuntime.eq_of_mem_madeSnapshots hpub.made)
  rwa [List.flatMap_singleton] at hlogged

theorem written_of_unrecorded {k : ℕ} {entry : LiveEntry} {call : LiveCall} {now : ℤ}
    (hrecord : ¬ d.RecordsLive (.live k entry call now)) :
    d.written (.live k entry call now) = [] := by
  cases hstack : d.liveStacks[k]? with
  | none => simp only [written, hstack]
  | some stack =>
    simp only [written, hstack]
    split
    · next cycle hcycle hpersist =>
      exact absurd ⟨stack, cycle, _, hstack, hpersist, Prod.ext hcycle rfl⟩ hrecord
    · rfl

/-- An operation writes the events of its cycles behind the log. -/
theorem step_written (d : Deployment) (op : Operation) :
    (d.step op).recorded = d.recorded ++ d.written op ∧
      ((d.written op).map RecordedCycle.key).Nodup ∧
      ∃ events, (d.step op).database.eventLog = d.database.eventLog ++ events ∧
        Logged events (d.written op) := by
  cases op with
  | validate job env =>
    change (d.validate job env).recorded = _ ∧ _ ∧
      ∃ events, (d.validate job env).database.eventLog = _ ∧ _
    cases hpersist : job.persistsStream with
    | false =>
      have hwritten : d.written (.validate job env) = [] := by
        simp only [written, hpersist, Bool.false_eq_true, if_false]
      rw [validate_of_not hpersist, hwritten]
      exact ⟨(List.append_nil _).symm, List.nodup_nil, [], (List.append_nil _).symm, .nil⟩
    | true =>
      have hwritten : d.written (.validate job env) =
          job.recordedCycles env (job.execute env d.uuid) := by
        simp only [written, hpersist, if_true]
      rw [hwritten]
      exact ⟨by simp only [validate, hpersist, if_true], job.nodup_keys_recordedCycles env _, _,
        eventLog_validate hpersist, job.logged_execute env d.uuid⟩
  | build => exact ⟨(List.append_nil _).symm, List.nodup_nil, [], (List.append_nil _).symm, .nil⟩
  | live k entry call now =>
    change (d.live k entry call now).recorded = _ ∧ _ ∧
      ∃ events, (d.live k entry call now).database.eventLog = _ ∧ _
    by_cases hrecord : d.RecordsLive (.live k entry call now)
    · obtain ⟨stack, cycle, rt, hstack, hpersist, hrun⟩ := hrecord
      have hwritten : d.written (.live k entry call now) =
          [⟨entry.key (marketLabel call.symbol call.timeframe) now, cycle⟩] := by
        simp only [written, hstack, hrun, hpersist]
      obtain ⟨hdatabase, hrecorded⟩ := live_of_recorded hstack hpersist hrun
      rw [hdatabase, hrecorded, hwritten]
      exact ⟨rfl, List.nodup_singleton _, cycle.events, rfl, logged_runLive hrun⟩
    · obtain ⟨hdatabase, hrecorded⟩ := live_of_unrecorded hrecord
      rw [hdatabase, hrecorded, written_of_unrecorded hrecord]
      exact ⟨(List.append_nil _).symm, List.nodup_nil, [], (List.append_nil _).symm, .nil⟩

/-! ## Separated cycles -/

/-- No two cycles share a correlation id; a reader that fetches the events of a cycle gets these
and no others, in whatever order, and the decisions among them all refer to the cycle's own
snapshot. -/
structure Separated (d : Deployment) : Prop where
  distinct : (d.recorded.map (·.cycle.correlationId)).Nodup
  fetched : ∀ r ∈ d.recorded, ∀ scan,
    (d.database.fetchEventsByCorrelation scan r.cycle.correlationId).Perm r.cycle.events
  snapshots : ∀ r ∈ d.recorded, ∀ scan,
    ∀ id ∈ madeSnapshots (d.database.fetchEventsByCorrelation scan r.cycle.correlationId),
      id = r.cycle.snapshot.snapshotId

/-- The cycles that the operation writes have keys that no cycle in the log has. -/
def Fresh (d : Deployment) (op : Operation) : Prop :=
  ∀ r ∈ d.written op, r.key ∉ d.recorded.map RecordedCycle.key

theorem nodup_step (h : (d.recorded.map RecordedCycle.key).Nodup) :
    ((d.step op).recorded.map RecordedCycle.key).Nodup ↔ d.Fresh op := by
  obtain ⟨hrecorded, hnodup, _⟩ := d.step_written op
  rw [hrecorded, List.map_append, List.nodup_append']
  constructor
  · rintro ⟨_, _, hdisjoint⟩ r hr hkey
    exact hdisjoint hkey (List.mem_map_of_mem hr)
  · intro hfresh
    refine ⟨h, hnodup, fun key hkey hwritten => ?_⟩
    obtain ⟨r, hr, rfl⟩ := List.mem_map.mp hwritten
    exact hfresh r hr hkey

theorem separated_iff (h : Logged d.database.eventLog d.recorded) :
    d.Separated ↔ (d.recorded.map RecordedCycle.key).Nodup := by
  have hids : d.recorded.map (·.cycle.correlationId) =
      (d.recorded.map RecordedCycle.key).map CycleKey.correlationId := by
    rw [List.map_map]
    exact List.map_congr_left h.keyed
  constructor
  · intro hseparated
    have hdistinct := hseparated.distinct
    rw [hids] at hdistinct
    exact hdistinct.of_map
  · intro hnodup
    have hfetched : ∀ r ∈ d.recorded, ∀ scan,
        (d.database.fetchEventsByCorrelation scan r.cycle.correlationId).Perm r.cycle.events := by
      intro r hr scan
      have hread := h.rows.read hnodup hr
      rw [h.keyed r hr]
      exact hread ▸ List.perm_insertionSort _ _
    refine ⟨?_, hfetched, ?_⟩
    · rw [hids]
      exact hnodup.map fun _ _ => CycleKey.correlationId_injective
    · intro r hr scan id hid
      exact h.made r hr id (((hfetched r hr scan).filterMap _).mem_iff.mp hid)

/-- In a history every state keeps its cycles apart exactly when every cycle that an operation
writes has a key that no cycle before it has. -/
theorem along_separated_iff (ops : List Operation) :
    Run.Along step (fun d op => (d.step op).Separated) {} ops ↔ Run.Along step Fresh {} ops := by
  have hlogged : ∀ d op, Logged d.database.eventLog d.recorded →
      Logged (step d op).database.eventLog (step d op).recorded := by
    intro d op h
    obtain ⟨hrecorded, _, events, hlog, hevents⟩ := d.step_written op
    rw [hrecorded, hlog]
    exact h.append hevents
  refine Run.along_iff (I := fun d => Logged d.database.eventLog d.recorded ∧
    (d.recorded.map RecordedCycle.key).Nodup) ?_ ?_ ⟨.nil, List.nodup_nil⟩ Run.along_true
  · exact fun d op h _ hfresh => ⟨hlogged d op h.1, (nodup_step h.2).mpr hfresh⟩
  · exact fun d op h _ => (separated_iff (hlogged d op h.1)).trans (nodup_step h.2)

/-! ## A run that is repeated -/

/-- A job on one flat bar that persists its stream. -/
def persistingJob : ValidationJob where
  symbol := "BTC/USDT"
  timeframe := "1d"
  startDate := 0
  source := .csv
  persistStream := true
  engineConfig := .solo
  collaborators _ := (Collaborators.serving (.flat 0 100) .buy).storing "BTC/USDT" "1d" 0

/-- The job on its one bar. -/
def persistedRun : Operation := .validate persistingJob (.flat .close 1)

/-- Run twice, the cycle on the bar has one correlation id and two snapshots. -/
theorem not_separated_repeated :
    ¬ Run.Along step (fun d op => (d.step op).Separated) {} [persistedRun, persistedRun] ∧
      madeSnapshots
        ((Run.exec step {} [persistedRun, persistedRun]).database.fetchEventsByCorrelation
        (fun _ => 0) (.given "val_0_1970-01-01T00:00:00+00:00")) = [4, 35] := by
  refine ⟨fun h => ?_, by decide +kernel⟩
  have hdistinct := h.2.1.distinct
  revert hdistinct
  decide +kernel

end Deployment

end TradingPlatform
