import TradingPlatform.Validation.Ledgers

/-!
# Runs on files that agree up to a time

What a run does at a bar is a function of the rows up to that bar: the bars of the range, the
lookback that is skipped and every window that a cycle reads are cut there. Two runs on files that
agree up to a time therefore go the same way up to it. What depends on later rows is the end of a
run: the positions that are still open are closed at its last bar.
-/

namespace TradingPlatform

open CsvDataProvider

/-! ## Files that agree up to a time -/

/-- The files serve the same symbol and timeframe and have the same rows up to `t`. -/
structure CsvDataProvider.AgreeUntil (t : ℤ) (p p' : CsvDataProvider) : Prop where
  symbol : p.symbol = p'.symbol
  timeframe : p.timeframe = p'.timeframe
  rows : p.df.filter (·.timestamp ≤ t) = p'.df.filter (·.timestamp ≤ t)

namespace CsvDataProvider

variable {p p' : CsvDataProvider} {t u start endTime endTime' : ℤ} {symbol timeframe : String}

theorem AgreeUntil.mono (h : AgreeUntil t p p') (hu : u ≤ t) : AgreeUntil u p p' where
  symbol := h.symbol
  timeframe := h.timeframe
  rows := by
    have hcut : ∀ df : Frame, df.filter (·.timestamp ≤ u) =
        (df.filter (·.timestamp ≤ t)).filter (·.timestamp ≤ u) := fun df => by
      rw [List.filter_filter]
      refine List.filter_congr fun c _ => ?_
      by_cases hc : c.timestamp ≤ u
      · simp [hc, hc.trans hu]
      · simp [hc]
    rw [hcut p.df, hcut p'.df, h.rows]

theorem AgreeUntil.take (h : AgreeUntil t p p') :
    p.df.take (searchsortedRight p.df t) = p'.df.take (searchsortedRight p'.df t) := by
  rw [take_searchsortedRight, take_searchsortedRight, takeWhile_of_sorted p.sorted,
    takeWhile_of_sorted p'.sorted, h.rows]

theorem AgreeUntil.searchsortedRight_eq (h : AgreeUntil t p p') :
    searchsortedRight p.df t = searchsortedRight p'.df t := by
  unfold searchsortedRight
  rw [takeWhile_of_sorted p.sorted, takeWhile_of_sorted p'.sorted, h.rows]

theorem AgreeUntil.validateSymbolTimeframe_eq (h : AgreeUntil t p p') :
    p.validateSymbolTimeframe symbol timeframe = p'.validateSymbolTimeframe symbol timeframe := by
  simp only [validateSymbolTimeframe, h.symbol, h.timeframe]

/-- The rows of a range up to `t`. -/
theorem rangeSlice_until (p : CsvDataProvider) (start endTime t : ℤ) :
    (p.rangeSlice start endTime).filter (·.timestamp ≤ t) =
      p.rangeSlice start (min endTime t) := by
  rw [rangeSlice_eq_filter, rangeSlice_eq_filter, List.filter_filter]
  refine List.filter_congr fun c _ => ?_
  rw [← Bool.decide_and, decide_eq_decide, le_min_iff, and_comm]

theorem AgreeUntil.rangeSlice_eq (h : AgreeUntil t p p') (hend : endTime ≤ t) (start : ℤ) :
    p.rangeSlice start endTime = p'.rangeSlice start endTime := by
  rw [rangeSlice_eq_filter, rangeSlice_eq_filter, List.filter_comm, (h.mono hend).rows,
    List.filter_comm]

/-- A window that ends where the files agree is the same, if there is a row to read. -/
theorem AgreeUntil.getLatest_eq (h : AgreeUntil t p p')
    (hrow : p.df.filter (·.timestamp ≤ t) ≠ []) (limit : ℕ) :
    p.getLatest symbol timeframe limit (some t) = p'.getLatest symbol timeframe limit (some t) := by
  have hdf : p.df ≠ [] := fun hnil => hrow (by rw [hnil]; rfl)
  have hdf' : p'.df ≠ [] := fun hnil => hrow (by rw [h.rows, hnil]; rfl)
  unfold getLatest
  rw [h.validateSymbolTimeframe_eq, if_neg hdf, if_neg hdf']
  dsimp only
  rw [h.take, h.searchsortedRight_eq]

end CsvDataProvider

/-! ## The window of a cycle -/

/-- The call with another source of data. -/
def CycleCall.reading (call : CycleCall)
    (getLatest : String → String → Option ℤ → Except PyError Frame) : CycleCall :=
  { call with collaborators := { call.collaborators with getLatest } }

namespace PlatformRuntime

/-- A cycle reads the data source once, up to the time of the clock. -/
theorem runCycle_reading {rt : PlatformRuntime} (call : CycleCall)
    (getLatest : String → String → Option ℤ → Except PyError Frame)
    (hsame : getLatest call.symbol call.timeframe
        (some (rt.clock.nowEventTime call.collaborators.now)) =
      call.collaborators.getLatest call.symbol call.timeframe
        (some (rt.clock.nowEventTime call.collaborators.now))) :
    rt.runCycle (call.reading getLatest) = rt.runCycle call := by
  have hprepare : rt.prepareBar (call.reading getLatest) = rt.prepareBar call := by
    unfold prepareBar
    have hid : rt.cycleId (call.reading getLatest) = rt.cycleId call := rfl
    simp only [hid, (quiet_cycleId rt call).clock]
    exact congrArg (fun frame : Except PyError Frame => frame >>= _) hsame
  have hsnapshot : rt.runToSnapshot (call.reading getLatest) = rt.runToSnapshot call := by
    unfold runToSnapshot
    rw [hprepare]
    rfl
  have hdecision : rt.runToDecision (call.reading getLatest) = rt.runToDecision call := by
    unfold runToDecision
    rw [hsnapshot]
    rfl
  unfold runCycle runToPublish
  rw [hdecision]

end PlatformRuntime

/-! ## What a run does at its bars -/

/-- A cycle of a run and the runtime it leaves. -/
structure BarRecord where
  barTime : ℤ
  outcome : Except PyError CycleResult
  runtime : PlatformRuntime

namespace ValidationHarness

variable (h : ValidationHarness)

/-- The cycles of `runBars`, to the first one that raises. -/
def trace : List (ℤ × ℕ) → PlatformRuntime → List BarRecord
  | [], _ => []
  | (barTime, i) :: rest, rt =>
    match (setClock barTime rt).runCycle (h.cycleCall i barTime) with
    | (.error e, rt) => [⟨barTime, .error e, rt⟩]
    | (.ok result, rt) => ⟨barTime, .ok result, rt⟩ :: trace rest rt

/-- The cycles of a run. -/
def records (rt : PlatformRuntime) : List BarRecord :=
  match h.barTimes with
  | .error _ => []
  | .ok barTimes => h.trace barTimes.zipIdx { rt with published := [] }

/-- A run that returns makes the cycles of its records, one for each bar, and then liquidates. -/
def RunsRecords (rt : PlatformRuntime) : Prop :=
  ∀ result rt', h.run rt = .ok (result, rt') → ∃ barTimes, h.barTimes = .ok barTimes ∧
    (h.records rt).map (·.barTime) = barTimes ∧
    (h.records rt).map (·.outcome) = result.cycles.map .ok ∧
    PlatformRuntime.liquidateOpenPositions
      (((h.records rt).map (·.runtime)).getLastD { rt with published := [] })
      (h.liquidationCall (barTimes.getLastD 0)) = .ok rt'

variable {h} {rt rt' : PlatformRuntime} {t : ℤ}

/-- A loop that returns has gone through all its bars. -/
theorem trace_of_runBars {bars : List (ℤ × ℕ)} {cycles : List CycleResult}
    (hrun : h.runBars bars rt = .ok (cycles, rt')) :
    (h.trace bars rt).map (·.barTime) = bars.map Prod.fst ∧
      (h.trace bars rt).map (·.outcome) = cycles.map .ok ∧
      ((h.trace bars rt).map (·.runtime)).getLastD rt = rt' := by
  induction bars generalizing rt cycles with
  | nil =>
    cases hrun
    exact ⟨rfl, rfl, rfl⟩
  | cons bar rest ih =>
    obtain ⟨barTime, i⟩ := bar
    obtain ⟨result, rt₁, cycles', hcycle, hrest, rfl⟩ := runBars_cons_ok hrun
    obtain ⟨htimes, houtcomes, hlast⟩ := ih hrest
    unfold trace
    rw [hcycle]
    refine ⟨congrArg (barTime :: ·) htimes, congrArg (Except.ok result :: ·) houtcomes, ?_⟩
    rw [List.map_cons, List.getLastD_cons]
    exact hlast

theorem runsRecords (h : ValidationHarness) (rt : PlatformRuntime) : h.RunsRecords rt := by
  intro result rt' hrun
  obtain ⟨barTimes, hbars, hrun⟩ := Except.bind_eq_ok.mp hrun
  obtain ⟨⟨cycles, rt₁⟩, hloop, hrun⟩ := Except.bind_eq_ok.mp hrun
  obtain ⟨rt₂, hliquidate, hrun⟩ := Except.bind_eq_ok.mp hrun
  obtain ⟨metrics, -, hrun⟩ := Except.bind_eq_ok.mp hrun
  cases hrun
  obtain ⟨htimes, houtcomes, hlast⟩ := trace_of_runBars hloop
  have hrecords : h.records rt = h.trace barTimes.zipIdx { rt with published := [] } := by
    unfold records
    rw [hbars]
  rw [hrecords]
  refine ⟨barTimes, hbars, htimes.trans (List.zipIdx_map_fst 0 barTimes), houtcomes, ?_⟩
  rw [hlast]
  exact hliquidate

theorem barTime_of_mem_trace {bars : List (ℤ × ℕ)} {r : BarRecord} (hr : r ∈ h.trace bars rt) :
    r.barTime ∈ bars.map Prod.fst := by
  induction bars generalizing rt with
  | nil => cases hr
  | cons bar rest ih =>
    obtain ⟨barTime, i⟩ := bar
    unfold trace at hr
    split at hr
    · rw [List.mem_singleton.mp hr]
      exact List.mem_cons_self
    · rcases List.mem_cons.mp hr with rfl | hr
      · exact List.mem_cons_self
      · exact List.mem_cons_of_mem _ (ih hr)

/-- The records up to a time are those of the bars up to it. -/
theorem filter_trace_append {early late : List (ℤ × ℕ)} (hearly : ∀ b ∈ early, b.1 ≤ t)
    (hlate : ∀ b ∈ late, t < b.1) :
    (h.trace (early ++ late) rt).filter (·.barTime ≤ t) = h.trace early rt := by
  induction early generalizing rt with
  | nil =>
    refine List.filter_eq_nil_iff.mpr fun r hr => ?_
    obtain ⟨b, hb, htime⟩ := List.mem_map.mp (barTime_of_mem_trace hr)
    simpa [← htime] using hlate b hb
  | cons bar rest ih =>
    obtain ⟨barTime, i⟩ := bar
    have hbar : barTime ≤ t := hearly _ List.mem_cons_self
    rw [List.cons_append]
    unfold trace
    split
    · simp [hbar]
    · rw [List.filter_cons_of_pos (by simpa using hbar),
        ih fun b hb => hearly b (List.mem_cons_of_mem _ hb)]

/-! ## Runs on two files -/

/-- The harness on another file, to another end. -/
def on (h : ValidationHarness) (dataProvider : CsvDataProvider) (endTime : ℤ) : ValidationHarness :=
  { h with dataProvider, config := { h.config with endTime } }

variable {p' : CsvDataProvider} {endTime' : ℤ}

/-- Over bars up to `t` the two runs go the same way. -/
theorem trace_on (hfiles : h.dataProvider.AgreeUntil t p') {bars : List (ℤ × ℕ)}
    (hrows : ∀ b ∈ bars, b.1 ≤ t ∧ ∃ c ∈ h.dataProvider.df, c.timestamp = b.1) :
    (h.on p' endTime').trace bars rt = h.trace bars rt := by
  induction bars generalizing rt with
  | nil => rfl
  | cons bar rest ih =>
    obtain ⟨barTime, i⟩ := bar
    obtain ⟨hle, c, hc, htime⟩ := hrows _ List.mem_cons_self
    have hclock : ∀ now, (setClock barTime rt).clock.nowEventTime now = barTime :=
      nowEventTime_setClock barTime rt
    have hfound : h.dataProvider.df.filter (·.timestamp ≤ barTime) ≠ [] :=
      List.ne_nil_of_mem (List.mem_filter.mpr ⟨hc, decide_eq_true htime.le⟩)
    have hcycle : (setClock barTime rt).runCycle ((h.on p' endTime').cycleCall i barTime) =
        (setClock barTime rt).runCycle (h.cycleCall i barTime) := by
      refine PlatformRuntime.runCycle_reading (h.cycleCall i barTime)
        (fun symbol timeframe endTime => p'.getLatest symbol timeframe 200 endTime) ?_
      rw [hclock]
      exact ((hfiles.mono hle).getLatest_eq hfound 200).symm
    unfold trace
    rw [hcycle]
    split
    · rfl
    · rw [ih fun b hb => hrows b (List.mem_cons_of_mem _ hb)]

/-- The bars of a run up to `t`, and the later ones. -/
theorem barTimes_split (hvalid : h.dataProvider.validateSymbolTimeframe h.config.symbol
      h.config.timeframe = .ok ())
    (hlong : h.minLookbackBars <
      (h.dataProvider.rangeSlice h.config.start (min h.config.endTime t)).length) :
    ∃ late, h.barTimes = .ok (((h.dataProvider.rangeSlice h.config.start
        (min h.config.endTime t)).map (·.timestamp)).drop h.minLookbackBars ++ late) ∧
      ∀ b ∈ late, t < b := by
  have hsorted : (h.dataProvider.rangeSlice h.config.start h.config.endTime).Pairwise
      fun a b => a.timestamp ≤ b.timestamp :=
    h.dataProvider.sorted.sublist (h.dataProvider.rangeSlice_sublist _ _)
  have hall : h.dataProvider.timestamps h.config.symbol h.config.timeframe h.config.start
      h.config.endTime = .ok ((h.dataProvider.rangeSlice h.config.start
        h.config.endTime).map (·.timestamp)) := by
    unfold timestamps
    rw [hvalid]
    rfl
  have hlater : ∀ c ∈ (h.dataProvider.rangeSlice h.config.start h.config.endTime).dropWhile
      (·.timestamp ≤ t), t < c.timestamp := fun c hc => lt_of_mem_dropWhile hsorted hc
  rw [← rangeSlice_until, ← takeWhile_of_sorted hsorted] at hlong ⊢
  have hsplit := List.takeWhile_append_dropWhile (p := fun c : Candle => c.timestamp ≤ t)
    (l := h.dataProvider.rangeSlice h.config.start h.config.endTime)
  rw [← hsplit] at hall
  generalize (h.dataProvider.rangeSlice h.config.start h.config.endTime).takeWhile
    (·.timestamp ≤ t) = early at hlong hall ⊢
  generalize (h.dataProvider.rangeSlice h.config.start h.config.endTime).dropWhile
    (·.timestamp ≤ t) = late at hlater hall
  refine ⟨late.map (·.timestamp), barTimes_eq_ok.mpr ⟨_, hall, ?_, ?_⟩, ?_⟩
  · rw [List.length_map, List.length_append]
    omega
  · rw [List.map_append, List.drop_append_of_le_length (by rw [List.length_map]; omega)]
  · intro b hb
    obtain ⟨c, hc, rfl⟩ := List.mem_map.mp hb
    exact hlater c hc

/-- The records of a run up to `t`. -/
theorem filter_records (hvalid : h.dataProvider.validateSymbolTimeframe h.config.symbol
      h.config.timeframe = .ok ())
    (hlong : h.minLookbackBars <
      (h.dataProvider.rangeSlice h.config.start (min h.config.endTime t)).length) :
    (h.records rt).filter (·.barTime ≤ t) =
      h.trace (((h.dataProvider.rangeSlice h.config.start
        (min h.config.endTime t)).map (·.timestamp)).drop h.minLookbackBars).zipIdx
          { rt with published := [] } := by
  obtain ⟨late, hbars, hlater⟩ := barTimes_split hvalid hlong
  unfold records
  rw [hbars]
  dsimp only
  rw [List.zipIdx_append]
  refine filter_trace_append (fun b hb => ?_) fun b hb => ?_
  · have hmem := List.mem_of_mem_drop (List.fst_mem_of_mem_zipIdx hb)
    obtain ⟨c, hc, htime⟩ := List.mem_map.mp hmem
    rw [← htime]
    exact ((h.dataProvider.mem_rangeSlice.mp hc).2.2).trans (min_le_right _ _)
  · exact hlater b.1 (List.fst_mem_of_mem_zipIdx hb)

/-- Two runs from the same start, on files that agree up to `t`, make the same cycles at the bars up
to `t` and leave the runtime the same after each of them. All else that a run does is to liquidate. -/
theorem records_agree (hfiles : h.dataProvider.AgreeUntil t p')
    (hend : min h.config.endTime t = min endTime' t)
    (hlong : h.minLookbackBars <
      (h.dataProvider.rangeSlice h.config.start (min h.config.endTime t)).length)
    (rt : PlatformRuntime) :
    (h.records rt).filter (·.barTime ≤ t) =
        ((h.on p' endTime').records rt).filter (·.barTime ≤ t) ∧
      h.RunsRecords rt ∧ (h.on p' endTime').RunsRecords rt := by
  refine ⟨?_, h.runsRecords rt, (h.on p' endTime').runsRecords rt⟩
  have hslice : h.dataProvider.rangeSlice h.config.start (min h.config.endTime t) =
      p'.rangeSlice h.config.start (min endTime' t) := by
    rw [hend]
    exact hfiles.rangeSlice_eq (min_le_right _ _) _
  cases hvalid : h.dataProvider.validateSymbolTimeframe h.config.symbol h.config.timeframe with
  | error e =>
    have hnone : ∀ k : ValidationHarness, k.dataProvider.validateSymbolTimeframe k.config.symbol
        k.config.timeframe = .error e → k.records rt = [] := fun k hk => by
      unfold records barTimes timestamps
      rw [hk]
      rfl
    rw [hnone h hvalid, hnone (h.on p' endTime')]
    exact hfiles.validateSymbolTimeframe_eq.symm.trans hvalid
  | ok =>
    have hvalid' : (h.on p' endTime').dataProvider.validateSymbolTimeframe
        (h.on p' endTime').config.symbol (h.on p' endTime').config.timeframe = .ok () :=
      hfiles.validateSymbolTimeframe_eq.symm.trans hvalid
    rw [filter_records hvalid hlong, filter_records hvalid' (hslice ▸ hlong)]
    change _ = (h.on p' endTime').trace ((((p'.rangeSlice h.config.start (min endTime' t)).map
      (·.timestamp)).drop h.minLookbackBars).zipIdx) _
    rw [← hslice]
    refine (trace_on hfiles fun b hb => ?_).symm
    have hmem := List.mem_of_mem_drop (List.fst_mem_of_mem_zipIdx hb)
    obtain ⟨c, hc, htime⟩ := List.mem_map.mp hmem
    obtain ⟨hrow, -, hle⟩ := h.dataProvider.mem_rangeSlice.mp hc
    exact ⟨htime ▸ hle.trans (min_le_right _ _), c, hrow, htime⟩

/-! ## A file that ends early -/

/-- The transitions executed up to `t`. -/
def executedUntil (t : ℤ) (rt : PlatformRuntime) : List StateTransitionEvent :=
  (rt.applied.map Prod.fst).filter (·.eventTime ≤ t)

/-- The first three of the four bars. -/
def cutFile : CsvDataProvider where
  symbol := "BTC/USDT"
  timeframe := "1h"
  df := [.flat 0 100, .flat 3600000000 100, .flat 7200000000 100]
  sorted := by simp [Candle.flat]

theorem agreeUntil_cutFile : rising.dataProvider.AgreeUntil 7200000000 cutFile where
  symbol := rfl
  timeframe := rfl
  rows := by decide

theorem records_agree_rising :
    (rising.records risingSetup.start).filter (·.barTime ≤ 7200000000) =
        ((rising.on cutFile 10800000000).records risingSetup.start).filter
          (·.barTime ≤ 7200000000) ∧
      rising.RunsRecords risingSetup.start ∧
      (rising.on cutFile 10800000000).RunsRecords risingSetup.start :=
  records_agree agreeUntil_cutFile rfl (by decide) risingSetup.start

/-- At the third bar both runs open a position; the run on the short file also closes it there. -/
theorem not_executedUntil_cutFile : rising.dataProvider.AgreeUntil 7200000000 cutFile ∧
    ∃ result rt result' rt', rising.run risingSetup.start = .ok (result, rt) ∧
      (rising.on cutFile 10800000000).run risingSetup.start = .ok (result', rt') ∧
      executedUntil 7200000000 rt ≠ executedUntil 7200000000 rt' := by
  refine ⟨agreeUntil_cutFile, ?_⟩
  have hlong : (rising.run risingSetup.start).map (fun p =>
      (executedUntil 7200000000 p.2).length) = .ok 2 := by decide +kernel
  have hcut : ((rising.on cutFile 10800000000).run risingSetup.start).map (fun p =>
      (executedUntil 7200000000 p.2).length) = .ok 3 := by decide +kernel
  obtain ⟨⟨result, rt⟩, hrun, hcount⟩ := Except.map_eq_ok.mp hlong
  obtain ⟨⟨result', rt'⟩, hrun', hcount'⟩ := Except.map_eq_ok.mp hcut
  refine ⟨result, rt, result', rt', hrun, hrun', fun hsame => ?_⟩
  rw [hsame] at hcount
  exact absurd (hcount.symm.trans hcount') (by decide)

end ValidationHarness

end TradingPlatform
