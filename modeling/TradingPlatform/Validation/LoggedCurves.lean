import TradingPlatform.Lib.Ordered
import TradingPlatform.Lib.Rekeyed
import TradingPlatform.Validation.LoggedEvents
import TradingPlatform.Validation.Metrics

/-!
# The marked curve of logged events

`compute_mark_to_market_series` on the events as they are logged. An entry that is missing takes the
default of the source, and the positions are kept under the texts of their identifiers.
-/

namespace TradingPlatform

namespace Logged

/-- The events of a type. -/
def eventsOfType (eventType : EventType) (events : List LoggedEvent) : List LoggedEvent :=
  events.filter (·.eventType = eventType)

/-- The events a curve is built from, in the order of their times. -/
def markedEvents (events : List LoggedEvent) : List LoggedEvent :=
  (events.filter (·.eventType ∈ markedTypes)).insertionSort fun a b => a.eventTime ≤ b.eventTime

/-- The identifier a new position is kept under. -/
def openedId (payload : LoggedPayload) : String :=
  orText payload.positionId (orText payload.position.positionId "")

/-- The quantity, the sign and the entry price of a new position. -/
def exposure (lastClose : ℚ) (position : LoggedPosition) : Exposure :=
  (position.quantity.getD 0, if position.side = some "LONG" then 1 else -1,
    position.entryPrice.getD lastClose)

/-- The variables of the loop of `compute_mark_to_market_series`. -/
structure MarkLoop where
  realised : ℚ := 0
  openPositions : Dict String Exposure := ∅
  lastClose : ℚ := 0
  byDay : Dict ℤ ℚ := ∅

namespace MarkLoop

/-- The result of the open positions at the last close. -/
def unrealised (m : MarkLoop) : ℚ :=
  (m.openPositions.values.map fun (qty, sign, entry) => sign * qty * (m.lastClose - entry)).sum

/-- Take in an event. -/
def read (m : MarkLoop) (e : LoggedEvent) : MarkLoop :=
  match e.eventType with
  | .candleReceived => { m with lastClose := e.payload.close.getD m.lastClose }
  | .positionOpened =>
    { m with openPositions :=
        m.openPositions.set (openedId e.payload) (exposure m.lastClose e.payload.position) }
  | .positionClosed => { m with
      realised := m.realised + e.pnl
      openPositions := m.openPositions.erase (orText e.payload.positionId "") }
  | _ => m

/-- One event of the loop. -/
def step (initialCapital : ℚ) (m : MarkLoop) (e : LoggedEvent) : MarkLoop :=
  let m := m.read e
  { m with byDay := m.byDay.set (date e.eventTime) (initialCapital + m.realised + m.unrealised) }

end MarkLoop

/-- `compute_mark_to_market_series`: the daily curve and its returns. -/
def computeMarkToMarketSeries (events : List LoggedEvent) (initialCapital : ℚ) :
    List ℚ × List ℚ :=
  let relevant := markedEvents events
  if ¬ relevant.any (·.eventType = .candleReceived) then ([], [])
  else
    let byDay := (relevant.foldl (MarkLoop.step initialCapital) {}).byDay
    let days := byDay.keys.insertionSort (· ≤ ·)
    let equityCurve := initialCapital :: days.map fun d => byDay.getD d 0
    let returns := (equityCurve.zip equityCurve.tail).filterMap fun (prev, value) =>
      if 0 < prev then some ((value - prev) / prev) else none
    (equityCurve, returns)

/-! ## The days of the curve -/

/-- The days on which the events of the curve fall. -/
def markedDays (events : List LoggedEvent) : List ℤ :=
  ((markedEvents events).map fun e => date e.eventTime).dedup.insertionSort (· ≤ ·)

section

variable {events : List LoggedEvent} {e : LoggedEvent} {initialCapital : ℚ} {m : MarkLoop} {d : ℤ}

theorem pairwise_markedEvents :
    (markedEvents events).Pairwise fun a b => a.eventTime ≤ b.eventTime :=
  List.pairwise_insertionSort _ _

theorem mem_markedDays :
    d ∈ markedDays events ↔ ∃ e ∈ markedEvents events, date e.eventTime = d := by
  rw [markedDays, List.mem_insertionSort, List.mem_dedup, List.mem_map]

theorem pairwise_markedDays : (markedDays events).Pairwise (· < ·) :=
  Ordered.pairwise_lt_insertionSort (List.nodup_dedup _)

/-- Reading an event does not touch the days. -/
@[simp] theorem MarkLoop.byDay_read (m : MarkLoop) (e : LoggedEvent) :
    (m.read e).byDay = m.byDay := by
  unfold read
  split <;> rfl

theorem MarkLoop.mem_keys_foldl {relevant : List LoggedEvent} :
    d ∈ (relevant.foldl (step initialCapital) m).byDay.keys ↔
      d ∈ m.byDay.keys ∨ ∃ e ∈ relevant, date e.eventTime = d := by
  induction relevant generalizing m with
  | nil => simp
  | cons e relevant ih =>
    rw [List.foldl_cons, ih, step, Dict.mem_keys_set, byDay_read, List.exists_mem_cons_iff]
    rw [eq_comm (a := d), or_assoc, or_left_comm]

/-- The loop keeps one value for each day of the curve. -/
theorem MarkLoop.keys_byDay :
    ((markedEvents events).foldl (step initialCapital) {}).byDay.keys.insertionSort (· ≤ ·) =
      markedDays events := by
  refine Ordered.insertionSort_congr (Dict.nodup _) (List.nodup_dedup _) fun d => ?_
  refine MarkLoop.mem_keys_foldl.trans ?_
  rw [List.mem_dedup, List.mem_map]
  exact or_iff_right List.not_mem_nil

end

/-! ## The curve of a run -/

/-- The variables of the loop over the events of a run, with the texts of the identifiers. -/
def MarkLoop.ofRun (m : TradingPlatform.MarkLoop) : MarkLoop where
  realised := m.realised
  openPositions := m.openPositions.rekey idText idText_injective
  lastClose := m.lastClose
  byDay := m.byDay

theorem orText_idText (u : ℕ) (other : String) : orText (some (idText u)) other = idText u :=
  if_neg (idText_ne_empty u)

namespace MarkLoop

variable {m : TradingPlatform.MarkLoop}

theorem sign_literal (side : PositionSide) :
    (if some side.literal = some "LONG" then 1 else -1) = TradingPlatform.MarkLoop.sign side := by
  cases side <;> rfl

theorem read_ofRun (e : EventEnvelope) : (ofRun m).read e.logged = ofRun (m.read e.payload) := by
  obtain ⟨_, _, _, _, _, _, _, _, _, _, payload⟩ := e
  cases payload with
  | positionOpened positionId entryFillId position =>
    have hid : openedId (Payload.positionOpened positionId entryFillId position).logged =
        idText positionId := orText_idText positionId _
    have hexposure : exposure m.lastClose
        (Payload.positionOpened positionId entryFillId position).logged.position =
        (position.quantity, TradingPlatform.MarkLoop.sign position.side, position.entryPrice) := by
      rw [← sign_literal]
      rfl
    simp only [ofRun, TradingPlatform.MarkLoop.read, Dict.rekey_set]
    rw [← hexposure, ← hid]
    rfl
  | positionClosed closed =>
    have hid : orText (Payload.positionClosed closed).logged.positionId "" =
        idText closed.positionId := orText_idText closed.positionId _
    simp only [ofRun, TradingPlatform.MarkLoop.read, Dict.rekey_erase]
    rw [← hid]
    rfl
  | _ => rfl

theorem unrealised_ofRun : (ofRun m).unrealised = m.unrealised := by
  unfold unrealised TradingPlatform.MarkLoop.unrealised ofRun
  rw [Dict.values_rekey]

theorem step_ofRun (initialCapital : ℚ) (e : EventEnvelope) :
    (ofRun m).step initialCapital e.logged = ofRun (m.step initialCapital e) := by
  simp only [step, read_ofRun, unrealised_ofRun, TradingPlatform.MarkLoop.step]
  rfl

theorem foldl_ofRun (initialCapital : ℚ) (relevant : List EventEnvelope)
    (m : TradingPlatform.MarkLoop) :
    (relevant.map EventEnvelope.logged).foldl (step initialCapital) (ofRun m) =
      ofRun (relevant.foldl (TradingPlatform.MarkLoop.step initialCapital) m) := by
  induction relevant generalizing m with
  | nil => rfl
  | cons e relevant ih => rw [List.map_cons, List.foldl_cons, step_ofRun, ih, List.foldl_cons]

end MarkLoop

/-- On the log of a run the curve is the one of its events. -/
theorem computeMarkToMarketSeries_logged (events : List EventEnvelope) (initialCapital : ℚ) :
    computeMarkToMarketSeries (events.map EventEnvelope.logged) initialCapital =
      TradingPlatform.computeMarkToMarketSeries events initialCapital := by
  have hmarked : markedEvents (events.map EventEnvelope.logged) =
      ((events.filter (·.eventType ∈ markedTypes)).insertionSort
        fun a b => a.eventTime ≤ b.eventTime).map EventEnvelope.logged := by
    rw [markedEvents, List.filter_map]
    refine Eq.symm ?_
    exact List.map_insertionSort _ _ EventEnvelope.logged _ fun _ _ _ _ => Iff.rfl
  have hloop := MarkLoop.foldl_ofRun initialCapital ((events.filter
    (·.eventType ∈ markedTypes)).insertionSort fun a b => a.eventTime ≤ b.eventTime) {}
  rw [← hmarked] at hloop
  change (markedEvents _).foldl _ ({} : MarkLoop) = _ at hloop
  unfold computeMarkToMarketSeries TradingPlatform.computeMarkToMarketSeries
  simp only [hloop]
  simp only [hmarked, List.any_map]
  rfl

end Logged

end TradingPlatform
