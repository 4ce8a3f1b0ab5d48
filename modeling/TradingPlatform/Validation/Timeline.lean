import TradingPlatform.Lib.Sampling
import TradingPlatform.Validation.LoggedCurves
import TradingPlatform.Validation.Score

/-!
# The equity timeline

`compute_equity_timeline` walks the ledger of `compute_mark_to_market_series` once more, keeps the
days with their last close, and thins the rows out to what a chart needs.
-/

namespace TradingPlatform

namespace Logged

/-- The variables of the loop of `compute_equity_timeline`. -/
structure TimelineLoop where
  realised : ℚ := 0
  openPositions : Dict String Exposure := ∅
  lastClose : ℚ := 0
  strategyByDay : Dict ℤ ℚ := ∅
  closeByDay : Dict ℤ ℚ := ∅

namespace TimelineLoop

/-- The result of the open positions at the last close. -/
def unrealised (t : TimelineLoop) : ℚ :=
  (t.openPositions.values.map fun (qty, sign, entry) => sign * qty * (t.lastClose - entry)).sum

/-- Take in an event. -/
def read (t : TimelineLoop) (e : LoggedEvent) : TimelineLoop :=
  match e.eventType with
  | .candleReceived => { t with lastClose := e.payload.close.getD t.lastClose }
  | .positionOpened =>
    { t with openPositions :=
        t.openPositions.set (openedId e.payload) (exposure t.lastClose e.payload.position) }
  | .positionClosed => { t with
      realised := t.realised + e.pnl
      openPositions := t.openPositions.erase (orText e.payload.positionId "") }
  | _ => t

/-- One event of the loop. -/
def step (initialCapital : ℚ) (t : TimelineLoop) (e : LoggedEvent) : TimelineLoop :=
  let t := t.read e
  let day := date e.eventTime
  { t with
    strategyByDay := t.strategyByDay.set day (initialCapital + t.realised + t.unrealised)
    closeByDay := t.closeByDay.set day t.lastClose }

end TimelineLoop

/-- A row of the timeline. -/
structure TimelinePoint where
  date : ℤ
  strategy : ℚ
  benchmark : ℚ
  deriving DecidableEq, Repr

structure EquityTimeline where
  points : List TimelinePoint
  benchmarkLabel : String := "Buy & hold"
  benchmarkReturnPct : ℚ
  benchmarkMaxDrawdownPct : ℚ
  benchmarkSharpeRatio : ℚ
  deriving DecidableEq, Repr

/-- Every `stride`-th row, and the last one. -/
def downsample (maxPoints : ℕ) (full : List TimelinePoint) : List TimelinePoint :=
  if maxPoints < full.length then
    let stride := full.length / maxPoints + 1
    let points := Sampling.strided stride full
    if points.getLast?.map (·.date) ≠ full.getLast?.map (·.date) then
      points ++ full.getLast?.toList
    else points
  else full

/-- The relative changes of a curve after each positive value. -/
def benchmarkReturns (curve : List ℚ) : List ℚ :=
  (curve.zip curve.tail).filterMap fun (prev, value) =>
    if 0 < prev then some ((value - prev) / prev) else none

/-- `compute_equity_timeline`; `none` is the empty dictionary. -/
def computeEquityTimeline (sqrt : ℚ → ℚ) (events : List LoggedEvent) (initialCapital : ℚ)
    (maxPoints : ℕ := 400) : Except PyError (Option EquityTimeline) :=
  let relevant := markedEvents events
  if ¬ relevant.any (·.eventType = .candleReceived) then .ok none
  else
    let walked := relevant.foldl (TimelineLoop.step initialCapital) {}
    let days := walked.strategyByDay.keys.insertionSort (· ≤ ·)
    let firstClose := ((days.map (walked.closeByDay.getD · 0)).find? (0 < ·)).getD 0
    if firstClose ≤ 0 then .ok none
    else
      let full := days.map fun day => {
        date := day
        strategy := roundDigits (walked.strategyByDay.getD day 0) 2
        benchmark := roundDigits (initialCapital * walked.closeByDay.getD day 0 / firstClose) 2 }
      let benchCurve := full.map (·.benchmark)
      if maxPoints = 0 ∨ initialCapital = 0 then .error .zeroDivisionError
      else .ok (some {
        points := downsample maxPoints full
        benchmarkReturnPct := (benchCurve.getLastD 0 - initialCapital) / initialCapital * 100
        benchmarkMaxDrawdownPct := maxDrawdownPct benchCurve
        benchmarkSharpeRatio := annualizedSharpe sqrt (benchmarkReturns benchCurve) })

/-! ## Two walks of one ledger -/

namespace TimelineLoop

/-- What the walk shares with the one of `compute_mark_to_market_series`. -/
def marks (t : TimelineLoop) : MarkLoop where
  realised := t.realised
  openPositions := t.openPositions
  lastClose := t.lastClose
  byDay := t.strategyByDay

variable {t : TimelineLoop} {initialCapital : ℚ} {relevant : List LoggedEvent} {e : LoggedEvent}

theorem marks_read : (t.read e).marks = t.marks.read e := by
  unfold read MarkLoop.read
  cases e.eventType <;> rfl

theorem closeByDay_read : (t.read e).closeByDay = t.closeByDay := by
  unfold read
  split <;> rfl

theorem marks_step : (t.step initialCapital e).marks = t.marks.step initialCapital e := by
  rw [MarkLoop.step, ← marks_read]
  rfl

theorem marks_foldl :
    (relevant.foldl (step initialCapital) t).marks =
      relevant.foldl (MarkLoop.step initialCapital) t.marks := by
  induction relevant generalizing t with
  | nil => rfl
  | cons e relevant ih => rw [List.foldl_cons, ih, marks_step, List.foldl_cons]

end TimelineLoop

/-! ## The last close of a day -/

/-- The close of a candle. -/
def candleClose (e : LoggedEvent) : Option ℚ :=
  if e.eventType = .candleReceived then e.payload.close else none

/-- The last close up to the end of a day, of events in the order of their times. -/
def lastCloseBy (relevant : List LoggedEvent) (d : ℤ) : ℚ :=
  ((relevant.filter fun e => date e.eventTime ≤ d).filterMap candleClose).getLastD 0

namespace TimelineLoop

variable {t : TimelineLoop} {initialCapital : ℚ} {relevant : List LoggedEvent} {e : LoggedEvent}
  {d : ℤ}

theorem lastClose_step : (t.step initialCapital e).lastClose =
    (candleClose e).getD t.lastClose := by
  change (t.read e).lastClose = _
  unfold read candleClose
  split
  · next h => rw [if_pos h]
  · next h => rw [h, if_neg (by decide), Option.getD_none]
  · next h => rw [h, if_neg (by decide), Option.getD_none]
  · next h _ _ => rw [if_neg h, Option.getD_none]

theorem lastClose_foldl : (relevant.foldl (step initialCapital) t).lastClose =
    (relevant.filterMap candleClose).getLastD t.lastClose := by
  induction relevant generalizing t with
  | nil => rfl
  | cons e relevant ih =>
    rw [List.foldl_cons, ih, lastClose_step]
    cases h : candleClose e with
    | none => rw [List.filterMap_cons_none h, Option.getD_none]
    | some close => rw [List.filterMap_cons_some h, List.getLastD_cons, Option.getD_some]

/-- The walk keeps for each day the last close up to its end. -/
theorem closeByDay_foldl (hsorted : relevant.Pairwise fun a b => a.eventTime ≤ b.eventTime)
    (hd : ∃ e ∈ relevant, date e.eventTime = d) :
    (relevant.foldl (step initialCapital) {}).closeByDay.getD d 0 = lastCloseBy relevant d := by
  induction relevant using List.reverseRecOn with
  | nil => simp at hd
  | append_singleton init last ih =>
    obtain ⟨hinit, -, hle⟩ := List.pairwise_append.mp hsorted
    have hday : ∀ e ∈ init, date e.eventTime ≤ date last.eventTime := fun e he =>
      date_mono (hle e he last (List.mem_singleton_self last))
    rw [List.foldl_append]
    change (((init.foldl (step initialCapital) {}).read last).closeByDay.set _ _).getD d 0 = _
    rw [Dict.getD, Dict.get?_set, closeByDay_read]
    split
    · next hsame =>
      -- all events up to this one belong to the day or to earlier ones
      have hall : (init ++ [last]).filter (fun e => date e.eventTime ≤ d) = init ++ [last] := by
        refine List.filter_eq_self.mpr fun e he => decide_eq_true (hsame ▸ ?_)
        rcases List.mem_append.mp he with he | he
        · exact hday e he
        · exact (List.mem_singleton.mp he) ▸ le_rfl
      rw [Option.getD_some, lastCloseBy, hall]
      have hwalk : ((init ++ [last]).foldl (step initialCapital) {}).lastClose = _ :=
        lastClose_foldl
      rwa [List.foldl_append] at hwalk
    · next hother =>
      have hbefore : ∃ e ∈ init, date e.eventTime = d := by
        obtain ⟨e, he, hed⟩ := hd
        rcases List.mem_append.mp he with he | he
        · exact ⟨e, he, hed⟩
        · exact absurd ((List.mem_singleton.mp he) ▸ hed) hother
      have hlt : ¬ date last.eventTime ≤ d := by
        obtain ⟨e, he, rfl⟩ := hbefore
        exact fun h => hother (le_antisymm h (hday e he))
      have hearlier := ih hinit hbefore
      rw [Dict.getD] at hearlier
      rw [hearlier, lastCloseBy, lastCloseBy, List.filter_append, List.filter_singleton]
      simp [hlt]

end TimelineLoop

/-! ## The sample -/

/-- The points of a timeline are days of a curve in their order, with the values rounded to two
digits. The first and the last day are among them, and there are not many more than the limit. -/
structure Samples (days : List ℤ) (values : List ℚ) (maxPoints : ℕ)
    (points : List TimelinePoint) : Prop where
  rounded : (points.map fun p => (p.date, p.strategy)).Sublist
    (days.zip (values.map fun v => roundDigits v 2))
  increasing : (points.map (·.date)).Pairwise (· < ·)
  first : (points.map (·.date)).head? = days.head?
  last : (points.map (·.date)).getLast? = days.getLast?
  count : points.length ≤ maxPoints + 1

section

variable {full : List TimelinePoint} {maxPoints : ℕ}

theorem downsample_sublist : (downsample maxPoints full).Sublist full := by
  unfold downsample
  dsimp only
  split
  · have hpoints : (Sampling.strided (full.length / maxPoints + 1) full).Sublist full :=
      Sampling.strided_sublist (Nat.succ_pos _)
    split
    · next hlast =>
      rcases List.eq_nil_or_concat' full with rfl | ⟨init, last, rfl⟩
      · exact (List.append_nil _).symm ▸ hpoints
      · have hinit := Sampling.sublist_dropLast hpoints fun h => hlast (congrArg _ h)
        rw [List.dropLast_concat] at hinit
        rw [List.getLast?_concat]
        exact hinit.append (List.Sublist.refl _)
    · exact hpoints
  · exact List.Sublist.refl _

theorem head?_downsample : (downsample maxPoints full).head? = full.head? := by
  unfold downsample
  dsimp only
  split
  · next hlong =>
    have hfirst : (Sampling.strided (full.length / maxPoints + 1) full).head? = full.head? :=
      Sampling.head?_strided (Nat.succ_pos _)
    split
    · rw [List.head?_append, hfirst]
      cases full with
      | nil => rfl
      | cons p full => rfl
    · exact hfirst
  · rfl

theorem getLast?_downsample :
    (downsample maxPoints full).getLast?.map (·.date) = full.getLast?.map (·.date) := by
  unfold downsample
  dsimp only
  split
  · next hlong =>
    split
    · rcases List.eq_nil_or_concat' full with rfl | ⟨init, last, rfl⟩
      · exact absurd hlong (Nat.not_lt_zero _)
      · rw [List.getLast?_concat, Option.toList_some, List.getLast?_concat]
    · next hsame => exact not_not.mp hsame
  · rfl

theorem length_downsample_le (hmax : 0 < maxPoints) :
    (downsample maxPoints full).length ≤ maxPoints + 1 := by
  have hstride : full.length < maxPoints * (full.length / maxPoints + 1) :=
    Nat.lt_mul_div_succ full.length hmax
  have hpoints := Sampling.length_strided_le (Nat.succ_pos _) hstride
  have hlast : full.getLast?.toList.length ≤ 1 := Option.length_toList_le
  unfold downsample
  dsimp only
  split
  · split
    · rw [List.length_append]
      exact Nat.add_le_add hpoints hlast
    · exact hpoints.trans (Nat.le_succ _)
  · omega

end

section

variable {events : List LoggedEvent} {initialCapital : ℚ} {maxPoints : ℕ}

/-- The rows of the timeline before they are thinned out. -/
theorem samples_downsample (strategy benchmark : ℤ → ℚ) (hmax : 0 < maxPoints) {days : List ℤ}
    (hdays : days.Pairwise (· < ·)) :
    Samples days (days.map strategy) maxPoints (downsample maxPoints (days.map fun day =>
      { date := day, strategy := roundDigits (strategy day) 2, benchmark := benchmark day })) := by
  let full : List TimelinePoint := days.map fun day =>
    { date := day, strategy := roundDigits (strategy day) 2, benchmark := benchmark day }
  have hdates : full.map (·.date) = days := by
    rw [List.map_map]
    exact List.map_id _
  have hrows : full.map (fun p => (p.date, p.strategy)) =
      days.zip ((days.map strategy).map fun v => roundDigits v 2) := by
    have hzip : (days.map id).zip (days.map fun day => roundDigits (strategy day) 2) = _ :=
      List.zip_map'
    rw [List.map_id] at hzip
    rw [List.map_map, List.map_map]
    exact hzip.symm
  change Samples days _ maxPoints (downsample maxPoints full)
  exact {
    rounded := hrows ▸ downsample_sublist.map _
    increasing := (hdates.symm ▸ hdays).sublist (downsample_sublist.map _)
    first := by rw [List.head?_map, head?_downsample, ← List.head?_map, hdates]
    last := by rw [List.getLast?_map, getLast?_downsample, ← List.getLast?_map, hdates]
    count := length_downsample_le hmax }

/-- The last close up to the end of a day of the curve. -/
def closingPrice (events : List LoggedEvent) (d : ℤ) : ℚ := lastCloseBy (markedEvents events) d

theorem exists_find?_pos {l : List ℚ} (h : ∃ x ∈ l, 0 < x) :
    ∃ x, l.find? (0 < ·) = some x ∧ 0 < x := by
  obtain ⟨y, hy, hpos⟩ := h
  cases hfind : l.find? (0 < ·) with
  | none => exact absurd hpos (by simpa using List.find?_eq_none.mp hfind y hy)
  | some x => exact ⟨x, rfl, by simpa using List.find?_some hfind⟩

theorem any_candle_of_closingPrice {d : ℤ} (hd : 0 < closingPrice events d) :
    (markedEvents events).any (·.eventType = .candleReceived) = true := by
  by_contra hnone
  have hcloses : ((markedEvents events).filter fun e => date e.eventTime ≤ d).filterMap
      candleClose = [] := by
    refine List.filterMap_eq_nil_iff.mpr fun e he => if_neg fun htype => hnone ?_
    exact List.any_eq_true.mpr ⟨e, (List.mem_filter.mp he).1, decide_eq_true htype⟩
  rw [closingPrice, lastCloseBy, hcloses] at hd
  exact lt_irrefl _ hd

/-- Where the last close of some day is positive, the timeline is a sample of the curve marked to
market. -/
theorem computeEquityTimeline_samples (sqrt : ℚ → ℚ)
    (hclose : ∃ d ∈ markedDays events, 0 < closingPrice events d) (hcapital : initialCapital ≠ 0)
    (hmax : 2 ≤ maxPoints) :
    ∃ timeline,
      computeEquityTimeline sqrt events initialCapital maxPoints = .ok (some timeline) ∧
      (computeMarkToMarketSeries events initialCapital).1.length =
        (markedDays events).length + 1 ∧
      Samples (markedDays events) (computeMarkToMarketSeries events initialCapital).1.tail maxPoints
        timeline.points := by
  obtain ⟨d, hd, hpositive⟩ := hclose
  have hcandle := any_candle_of_closingPrice hpositive
  let walked := (markedEvents events).foldl (TimelineLoop.step initialCapital) {}
  let marked := (markedEvents events).foldl (MarkLoop.step initialCapital) {}
  have hmarks : walked.strategyByDay = marked.byDay := by
    have hwalk : walked.marks = marked := TimelineLoop.marks_foldl
    exact congrArg MarkLoop.byDay hwalk
  have hkeys : marked.byDay.keys.insertionSort (· ≤ ·) = markedDays events := MarkLoop.keys_byDay
  have hdays : walked.strategyByDay.keys.insertionSort (· ≤ ·) = markedDays events :=
    hmarks ▸ hkeys
  have hcurve : (computeMarkToMarketSeries events initialCapital).1 =
      initialCapital :: (markedDays events).map (walked.strategyByDay.getD · 0) := by
    rw [hmarks, ← hkeys]
    unfold computeMarkToMarketSeries
    dsimp only
    rw [if_neg (not_not.mpr hcandle)]
  have hday : walked.closeByDay.getD d 0 = closingPrice events d :=
    TimelineLoop.closeByDay_foldl pairwise_markedEvents (mem_markedDays.mp hd)
  obtain ⟨firstClose, hfirst, hfirstPositive⟩ := exists_find?_pos
    ⟨_, List.mem_map_of_mem (f := (walked.closeByDay.getD · 0)) hd, hday.symm ▸ hpositive⟩
  have hguard : ¬ (maxPoints = 0 ∨ initialCapital = 0) :=
    not_or.mpr ⟨by omega, hcapital⟩
  unfold computeEquityTimeline
  dsimp only
  rw [if_neg (not_not.mpr hcandle)]
  rw [hdays, hfirst, Option.getD_some, if_neg (not_le.mpr hfirstPositive), if_neg hguard]
  refine ⟨_, rfl, ?_, ?_⟩
  · rw [hcurve, List.length_cons, List.length_map]
  · rw [hcurve, List.tail_cons]
    exact samples_downsample _ _ (by omega) pairwise_markedDays

/-- A day on which a coin closes at 100 and then at nothing. -/
def worthlessClose : List LoggedEvent :=
  [{ eventType := .candleReceived, eventTime := 0, correlationId := .given "a"
     payload := { close := some 100 } },
   { eventType := .candleReceived, eventTime := 60000000, correlationId := .given "b"
     payload := { close := some 0 } }]

/-- A candle with a positive close is not enough: with none left at the end of a day there is no
timeline. -/
theorem not_computeEquityTimeline_samples :
    ¬ ∀ (events : List LoggedEvent) (initialCapital : ℚ) (maxPoints : ℕ),
      (∃ e ∈ events, 0 < (candleClose e).getD 0) → 2 ≤ maxPoints →
      ∃ timeline,
        computeEquityTimeline id events initialCapital maxPoints = .ok (some timeline) ∧
        Samples (markedDays events) (computeMarkToMarketSeries events initialCapital).1.tail
          maxPoints timeline.points := by
  intro h
  have hnone : computeEquityTimeline id worthlessClose 10000 400 = .ok none := by decide +kernel
  have hcandle : ∃ e ∈ worthlessClose, 0 < (candleClose e).getD 0 := by decide +kernel
  obtain ⟨timeline, htimeline, -⟩ := h worthlessClose 10000 400 hcandle (by decide)
  rw [hnone] at htimeline
  cases htimeline

/-- The closes of five days, and a position that is open from the second to the fourth. -/
def tradedDays : List LoggedEvent :=
  ([100, 110, 90, 95, 80].zipIdx.map fun (close, day) =>
    { eventType := .candleReceived, eventTime := day * 86400000000, correlationId := .cycle day
      payload := { close := some close } }) ++
  [{ eventType := .positionOpened, eventTime := 86400000000, correlationId := .cycle 1
     payload := { position := {
      positionId := some "p", quantity := some 2, side := some "LONG", entryPrice := some 110 } } },
   { eventType := .positionClosed, eventTime := 3 * 86400000000, correlationId := .cycle 3
     payload := { positionId := some "p", pnl := some (-30) } }]

theorem computeEquityTimeline_samples_traded : ∃ timeline,
    computeEquityTimeline id tradedDays 10000 2 = .ok (some timeline) ∧
    (computeMarkToMarketSeries tradedDays 10000).1.length = (markedDays tradedDays).length + 1 ∧
    Samples (markedDays tradedDays) (computeMarkToMarketSeries tradedDays 10000).1.tail 2
      timeline.points :=
  computeEquityTimeline_samples id (by decide +kernel) (by norm_num) (by decide)

example : (computeMarkToMarketSeries tradedDays 10000).1 =
    [10000, 10000, 10000, 9960, 9970, 9970] := by decide +kernel

end

end Logged

end TradingPlatform
