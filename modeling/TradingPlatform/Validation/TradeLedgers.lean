import TradingPlatform.Execution.Reports
import TradingPlatform.Lib.Ordered
import TradingPlatform.Validation.Metrics

/-!
# The ledgers of the outcome metrics

`compute_outcome_metrics` adds up the closed trades and, in a second walk, the curve marked to
market. Both read only the trades that the events report. Where the events come in the order of
their times and leave no position open, the curve ends at the initial capital plus the result of the
closed trades.
-/

namespace TradingPlatform

/-! ## The trades of a run -/

/-- The result a trade realises. -/
def Trade.pnl : Trade → ℚ
  | .opened _ _ => 0
  | .closed _ pnl => pnl

/-- The ids of the open positions after a trade. -/
def Trade.openIds (ids : List ℕ) : Trade → List ℕ
  | .opened id _ => ids ++ [id]
  | .closed id _ => ids.filter (· ≠ id)

/-- The result that trades realise. -/
def realisedPnl (trades : List Trade) : ℚ := (trades.map Trade.pnl).sum

theorem realisedPnl_append {trades trades' : List Trade} :
    realisedPnl (trades ++ trades') = realisedPnl trades + realisedPnl trades' := by
  simp [realisedPnl]

theorem reportedTrades_cons {e : EventEnvelope} {events : List EventEnvelope} :
    reportedTrades (e :: events) = e.payload.trade?.toList ++ reportedTrades events := by
  cases h : e.payload.trade? <;> simp [reportedTrades, h]

/-! ## The closed trades -/

/-- The `pnl` entries of the `POSITION_CLOSED` events add up to what the trades realise. -/
theorem sum_pnl_positionClosed (events : List EventEnvelope) :
    ((eventsOfType .positionClosed events).map (·.pnl)).sum =
      realisedPnl (reportedTrades events) := by
  induction events with
  | nil => rfl
  | cons e events ih =>
    rw [reportedTrades_cons, realisedPnl_append, ← ih]
    cases hpay : e.payload <;>
      simp [eventsOfType, EventEnvelope.eventType, EventEnvelope.pnl, hpay, Payload.eventType,
        Payload.trade?, realisedPnl, Trade.pnl]

/-! ## The walk of the curve marked to market -/

namespace MarkLoop

variable {m : MarkLoop} {initialCapital : ℚ} {events : List EventEnvelope} {ids : List ℕ}

theorem realised_read (m : MarkLoop) (p : Payload) :
    (m.read p).realised = m.realised + realisedPnl p.trade?.toList := by
  cases p <;> simp [read, Payload.trade?, realisedPnl, Trade.pnl]

@[simp] theorem byDay_read (m : MarkLoop) (p : Payload) : (m.read p).byDay = m.byDay := by
  cases p <;> rfl

theorem mem_keys_read (h : ∀ id, id ∈ m.openPositions.keys ↔ id ∈ ids) (p : Payload) (id : ℕ) :
    id ∈ (m.read p).openPositions.keys ↔ id ∈ p.trade?.toList.foldl Trade.openIds ids := by
  cases p with
  | positionOpened positionId entryFillId position =>
    rw [read, Dict.mem_keys_set, h id]
    simp [Payload.trade?, Trade.openIds, or_comm]
  | positionClosed closed =>
    rw [read, Dict.mem_keys_erase, h id]
    simp [Payload.trade?, Trade.openIds]
  | _ => exact h id

theorem realised_foldl :
    (events.foldl (step initialCapital) m).realised =
      m.realised + realisedPnl (reportedTrades events) := by
  induction events generalizing m with
  | nil => exact (add_zero _).symm
  | cons e events ih =>
    have hread : (m.step initialCapital e).realised = _ := realised_read m e.payload
    rw [List.foldl_cons, ih, hread, reportedTrades_cons, realisedPnl_append, add_assoc]

/-- The walk holds the positions that the trades leave open. -/
theorem mem_keys_foldl (h : ∀ id, id ∈ m.openPositions.keys ↔ id ∈ ids) (id : ℕ) :
    id ∈ (events.foldl (step initialCapital) m).openPositions.keys ↔
      id ∈ (reportedTrades events).foldl Trade.openIds ids := by
  induction events generalizing m ids with
  | nil => exact h id
  | cons e events ih =>
    rw [List.foldl_cons, reportedTrades_cons, List.foldl_append]
    exact ih (m := m.step initialCapital e) (mem_keys_read h e.payload)

/-- The curve has a value for the days of the events. -/
theorem mem_keys_byDay {d : ℤ} :
    d ∈ (events.foldl (step initialCapital) m).byDay.keys ↔
      d ∈ m.byDay.keys ∨ ∃ e ∈ events, date e.eventTime = d := by
  induction events generalizing m with
  | nil => simp
  | cons e events ih =>
    rw [List.foldl_cons, ih, step, Dict.mem_keys_set, byDay_read, List.exists_mem_cons_iff,
      eq_comm (a := d)]
    tauto

/-- The value of the day of the last event is that of the positions at the end of the walk. -/
theorem byDay_last (initialCapital : ℚ) (events : List EventEnvelope) (e : EventEnvelope) :
    let walked := (events ++ [e]).foldl (step initialCapital) m
    walked.byDay.getD (date e.eventTime) 0 =
      initialCapital + walked.realised + walked.unrealised := by
  rw [List.foldl_append, List.foldl_cons, List.foldl_nil]
  simp only [step, Dict.getD, Dict.get?_set_self, Option.getD_some]
  rfl

end MarkLoop

/-! ## The end of the curve -/

theorem reportedTrades_markedTypes {events : List EventEnvelope} :
    reportedTrades (events.filter (·.eventType ∈ markedTypes)) = reportedTrades events := by
  unfold reportedTrades
  rw [List.filterMap_filter]
  refine List.filterMap_congr fun e _ => ?_
  cases hpay : e.payload <;>
    simp [EventEnvelope.eventType, hpay, Payload.eventType, markedTypes, Payload.trade?]

/-- The events the curve is built from. -/
def markedEvents (events : List EventEnvelope) : List EventEnvelope :=
  events.filter (·.eventType ∈ markedTypes)

theorem markedEvents_eq_concat {events : List EventEnvelope}
    (hcandle : ∃ e ∈ events, e.eventType = .candleReceived) :
    ∃ init last, markedEvents events = init ++ [last] := by
  obtain ⟨e, he, htype⟩ := hcandle
  have hmarked : e ∈ markedEvents events :=
    List.mem_filter.mpr ⟨he, by simp [htype, markedTypes]⟩
  rcases List.eq_nil_or_concat' (markedEvents events) with hnil | hconcat
  · exact absurd (hnil ▸ hmarked) List.not_mem_nil
  · exact hconcat

section Curve

variable {events : List EventEnvelope} (initialCapital : ℚ)

/-- The curve of events that are in order and have a candle. -/
theorem computeMarkToMarketSeries_of_sorted
    (hsorted : events.Pairwise fun a b => a.eventTime ≤ b.eventTime)
    (hcandle : ∃ e ∈ events, e.eventType = .candleReceived) :
    let byDay := ((markedEvents events).foldl (MarkLoop.step initialCapital) {}).byDay
    (computeMarkToMarketSeries events initialCapital).1 =
      initialCapital :: (byDay.keys.insertionSort (· ≤ ·)).map fun d => byDay.getD d 0 := by
  have hsort : (events.filter (·.eventType ∈ markedTypes)).insertionSort
      (fun a b => a.eventTime ≤ b.eventTime) = events.filter (·.eventType ∈ markedTypes) :=
    (hsorted.filter _).insertionSort_eq
  have hany : (events.filter (·.eventType ∈ markedTypes)).any
      (·.eventType = .candleReceived) = true := by
    obtain ⟨e, he, htype⟩ := hcandle
    refine List.any_eq_true.mpr ⟨e, List.mem_filter.mpr ⟨he, ?_⟩, by simp [htype]⟩
    simp [htype, markedTypes]
  unfold computeMarkToMarketSeries
  simp only [hsort, hany, not_true, if_false]
  rfl

variable {init : List EventEnvelope} {last : EventEnvelope}

/-- Where the trades leave no position open, the day of the last event ends with the initial capital
and the result of the closed trades. -/
theorem byDay_markedEvents (hlast : markedEvents events = init ++ [last])
    (hflat : (reportedTrades events).foldl Trade.openIds [] = []) :
    ((markedEvents events).foldl (MarkLoop.step initialCapital) {}).byDay.getD
      (date last.eventTime) 0 = initialCapital + realisedPnl (reportedTrades events) := by
  have hday := MarkLoop.byDay_last (m := {}) initialCapital init last
  rw [← hlast] at hday
  let walked := (markedEvents events).foldl (MarkLoop.step initialCapital) {}
  have hkeys : walked.openPositions.keys = [] := by
    refine List.eq_nil_iff_forall_not_mem.mpr fun id hid => ?_
    have hstart : ∀ id, id ∈ ({} : MarkLoop).openPositions.keys ↔ id ∈ ([] : List ℕ) :=
      fun id => Iff.rfl
    have hid := (MarkLoop.mem_keys_foldl hstart id).mp hid
    rw [markedEvents, reportedTrades_markedTypes, hflat] at hid
    exact List.not_mem_nil hid
  have hunrealised : walked.unrealised = 0 := by
    rw [MarkLoop.unrealised, Dict.values_eq_nil_of_keys hkeys]
    rfl
  have hrealised : walked.realised = 0 + realisedPnl (reportedTrades (markedEvents events)) :=
    MarkLoop.realised_foldl
  rw [markedEvents, reportedTrades_markedTypes, zero_add] at hrealised
  calc walked.byDay.getD (date last.eventTime) 0
    _ = initialCapital + walked.realised + walked.unrealised := hday
    _ = initialCapital + realisedPnl (reportedTrades events) := by
      rw [hrealised, hunrealised, add_zero]

/-- The day of the last event is the last day of the curve. -/
theorem lastDay_markedEvents (hsorted : events.Pairwise fun a b => a.eventTime ≤ b.eventTime)
    (hlast : markedEvents events = init ++ [last]) :
    (((markedEvents events).foldl (MarkLoop.step initialCapital) {}).byDay.keys.insertionSort
      (· ≤ ·)).getLast? = some (date last.eventTime) := by
  have hend : (markedEvents events).getLast? = some last := by rw [hlast, List.getLast?_concat]
  refine Ordered.getLast?_insertionSort ?_ fun d hd => ?_
  · exact MarkLoop.mem_keys_byDay.mpr (.inr ⟨last, List.mem_of_getLast? hend, rfl⟩)
  · rcases MarkLoop.mem_keys_byDay.mp hd with hd | ⟨e, he, rfl⟩
    · exact absurd hd List.not_mem_nil
    · exact date_mono (Ordered.key_le_getLast (hsorted.filter _) hend he)

/-- The curve marked to market ends at the initial capital plus the result of the closed trades,
where the events are in order, have a candle and leave no position open. -/
theorem getLast?_computeMarkToMarketSeries
    (hsorted : events.Pairwise fun a b => a.eventTime ≤ b.eventTime)
    (hcandle : ∃ e ∈ events, e.eventType = .candleReceived)
    (hflat : (reportedTrades events).foldl Trade.openIds [] = []) :
    (computeMarkToMarketSeries events initialCapital).1.getLast? =
      some (initialCapital + realisedPnl (reportedTrades events)) := by
  obtain ⟨init, last, hlast⟩ := markedEvents_eq_concat hcandle
  rw [computeMarkToMarketSeries_of_sorted initialCapital hsorted hcandle, List.getLast?_cons,
    List.getLast?_map, lastDay_markedEvents initialCapital hsorted hlast, Option.map_some,
    Option.getD_some, byDay_markedEvents initialCapital hlast hflat]

end Curve

end TradingPlatform
