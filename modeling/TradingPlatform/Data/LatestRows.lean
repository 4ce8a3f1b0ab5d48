import TradingPlatform.Data.CsvProvider
import TradingPlatform.Data.LiveProvider

/-!
# The latest rows, live and in a backtest

A backtest cuts the whole file at the end time, the live provider the last `limit + 1` bars of the
exchange. Both return the same rows as long as the bar that is fetched in addition makes up for what
is dropped: the bar that is still forming and the closed bars after the end time.
-/

namespace TradingPlatform

/-! ## Rows cut at a time -/

/-- What `get_latest` returns up to a time. -/
theorem CsvDataProvider.getLatest_eq (p : CsvDataProvider) (limit : ℕ) (t : ℤ) :
    (p.getLatest p.symbol p.timeframe limit (some t)).toOption =
      if p.df.takeWhile (·.timestamp ≤ t) = [] then none
      else some ((p.df.takeWhile (·.timestamp ≤ t)).rtake limit) := by
  have hidx : searchsortedRight p.df t = 0 ↔ p.df.takeWhile (·.timestamp ≤ t) = [] :=
    List.length_eq_zero_iff
  have hvalid : p.validateSymbolTimeframe p.symbol p.timeframe = .ok () := by
    simp [validateSymbolTimeframe]
    rfl
  unfold getLatest
  rw [hvalid]
  by_cases hnone : p.df.takeWhile (·.timestamp ≤ t) = []
  · rw [if_pos hnone]
    by_cases hempty : p.df = []
    · simp [hempty, Except.toOption]
      rfl
    · simp [hempty, hidx.mpr hnone, Except.toOption]
      rfl
  · have hempty : p.df ≠ [] := fun h => hnone (by rw [h]; rfl)
    have hpos : searchsortedRight p.df t ≠ 0 := fun h => hnone (hidx.mp h)
    rw [if_neg hnone]
    simp only [hempty, hpos, if_false]
    change some ((p.df.take (searchsortedRight p.df t)).drop _) = _
    rw [take_searchsortedRight]
    rfl

namespace LiveProvider

variable {exchange : Exchange} {symbol timeframe : String} {barSeconds now : ℤ}
  {opened : List OhlcvRow} {limit : ℕ} {endTime : ℤ}

/-- The bars that are fetched beyond the closed ones: the newest one while it is forming. -/
def formingBars (barSeconds now : ℤ) (opened : List OhlcvRow) : ℕ :=
  (opened.map OhlcvRow.toCandle).countP (¬ Closed barSeconds now ·)

/-- The closed bars after the end time. -/
def laterBars (barSeconds now : ℤ) (opened : List OhlcvRow) (endTime : ℤ) : ℕ :=
  (closedBars barSeconds now opened).countP (endTime < ·.timestamp)

/-- The closed bars on or before the end time. -/
def barsUntil (barSeconds now : ℤ) (opened : List OhlcvRow) (endTime : ℤ) : ℕ :=
  (closedBars barSeconds now opened).countP (·.timestamp ≤ endTime)

theorem closedBars_sorted (h : Chronological barSeconds now opened) :
    (closedBars barSeconds now opened).Pairwise fun a b => a.timestamp ≤ b.timestamp :=
  (List.pairwise_map.mpr (h.imp fun hab => hab.1.le)).sublist List.filter_sublist

theorem formingBars_concat {init : List OhlcvRow} {last : OhlcvRow}
    (h : Chronological barSeconds now (init ++ [last])) :
    formingBars barSeconds now (init ++ [last]) =
      if Closed barSeconds now last.toCandle then 0 else 1 := by
  have hinit : (init.map OhlcvRow.toCandle).countP (¬ Closed barSeconds now ·) = 0 :=
    List.countP_eq_zero.mpr fun c hc => by simpa using h.closed c hc
  unfold formingBars
  rw [List.map_append, List.countP_append, hinit]
  by_cases hclosed : Closed barSeconds now last.toCandle
  · simp [hclosed]
  · simp [hclosed]

/-- Of the bars fetched last, those that have closed are the last closed ones. -/
theorem closedBars_rtake (h : Chronological barSeconds now opened) (n : ℕ) :
    closedBars barSeconds now (opened.rtake (n + 1)) =
      (closedBars barSeconds now opened).rtake (n + 1 - formingBars barSeconds now opened) := by
  rcases List.eq_nil_or_concat' opened with rfl | ⟨init, last, rfl⟩
  · simp [closedBars]
  · have htake := h.rtake (n + 1)
    have hmap : (init.rtake n).map OhlcvRow.toCandle = (init.map OhlcvRow.toCandle).rtake n := by
      simp [List.rtake]
    rw [List.rtake_concat_succ] at htake ⊢
    rw [closedBars_concat h, closedBars_concat htake, formingBars_concat h, hmap]
    by_cases hclosed : Closed barSeconds now last.toCandle
    · simp [hclosed, List.rtake_concat_succ]
    · simp [hclosed]

/-- The rows up to a time of the last ones are the last ones up to that time. -/
theorem filter_rtake {df : Frame} {t : ℤ}
    (hsorted : df.Pairwise fun a b => a.timestamp ≤ b.timestamp) (n : ℕ) :
    (df.rtake n).filter (·.timestamp ≤ t) =
      (df.takeWhile (·.timestamp ≤ t)).rtake (n - df.countP (t < ·.timestamp)) := by
  have hearly : ∀ c ∈ df.takeWhile (·.timestamp ≤ t), c.timestamp ≤ t := fun c hc => by
    simpa using List.mem_takeWhile_imp hc
  have hlate : ∀ c ∈ df.dropWhile (·.timestamp ≤ t), t < c.timestamp := fun c hc =>
    CsvDataProvider.lt_of_mem_dropWhile hsorted hc
  have hsplit := List.takeWhile_append_dropWhile (p := fun c : Candle => c.timestamp ≤ t) (l := df)
  generalize df.takeWhile (·.timestamp ≤ t) = early at hearly hsplit ⊢
  generalize df.dropWhile (·.timestamp ≤ t) = late at hlate hsplit
  subst hsplit
  have hcount : (early ++ late).countP (t < ·.timestamp) = late.length := by
    rw [List.countP_append, List.countP_eq_zero.mpr fun c hc => by simpa using hearly c hc,
      List.countP_eq_length.mpr fun c hc => by simpa using hlate c hc, Nat.zero_add]
  rw [hcount]
  unfold List.rtake
  rw [List.drop_append, List.filter_append,
    List.filter_eq_self.mpr fun c hc => by simpa using hearly c (List.mem_of_mem_drop hc),
    List.filter_eq_nil_iff.mpr fun c hc => by simpa using hlate c (List.mem_of_mem_drop hc),
    List.append_nil, List.length_append]
  by_cases hn : late.length ≤ n
  · congr 1
    omega
  · rw [List.drop_eq_nil_of_le (by omega), List.drop_eq_nil_of_le (by omega)]

/-- What `get_latest` returns up to a time. -/
theorem getLatest_eq (h : Chronological barSeconds now opened)
    (hserves : Serves exchange symbol timeframe barSeconds opened) (limit : ℕ) (endTime : ℤ) :
    (getLatest exchange now symbol timeframe limit (some endTime)).toOption =
      let rows := ((closedBars barSeconds now opened).takeWhile (·.timestamp ≤ endTime)).rtake
        (limit + 1 - formingBars barSeconds now opened - laterBars barSeconds now opened endTime)
      if rows = [] then none else some (rows.rtake limit) := by
  have hrows := filter_rtake (t := endTime) (closedBars_sorted h)
    (limit + 1 - formingBars barSeconds now opened)
  rw [← closedBars_rtake h] at hrows
  rw [getLatest_served h hserves]
  by_cases hnone : opened = []
  · subst hnone
    simp [closedBars, Except.toOption]
  · rw [if_neg hnone, laterBars, ← hrows]
    simp only [cutFrame, List.isEmpty_iff]
    split_ifs with hempty
    · rfl
    · rfl

/-- The last rows of the last `limit + 1`, less those that are dropped, are the last `limit` rows if
at most one of them is dropped. -/
theorem rtake_agrees_iff {rows : Frame} (hlong : limit ≤ rows.length) (hpos : 0 < rows.length)
    (forming later : ℕ) :
    (if rows.rtake (limit + 1 - forming - later) = [] then none
      else some ((rows.rtake (limit + 1 - forming - later)).rtake limit)) =
        some (rows.rtake limit) ↔ forming + later ≤ min limit 1 := by
  generalize hkept : limit + 1 - forming - later = kept
  have hlength : ∀ n (l : Frame), (l.rtake n).length = min n l.length := fun n l => by
    rw [List.rtake, List.length_drop]
    omega
  by_cases hnone : rows.rtake kept = []
  · have hzero := hlength kept rows
    rw [hnone, List.length_nil] at hzero
    rw [if_pos hnone]
    refine iff_of_false (by simp) ?_
    omega
  · have hkeep : kept ≠ 0 := fun hzero => hnone (by rw [hzero, List.rtake_zero])
    rw [if_neg hnone, Option.some_inj]
    constructor
    · intro hsame
      have hlen := congrArg List.length hsame
      rw [hlength, hlength, hlength] at hlen
      omega
    · intro hfew
      rw [List.rtake, hlength, List.rtake, List.drop_drop, List.rtake]
      congr 1
      omega

/-- A live call returns the rows of a call on the file, or none as that does. -/
def SameRows (exchange : Exchange) (now : ℤ) (p : CsvDataProvider) (limit : ℕ) (endTime : ℤ) :
    Prop :=
  (getLatest exchange now p.symbol p.timeframe limit (some endTime)).toOption =
    (p.getLatest p.symbol p.timeframe limit (some endTime)).toOption

/-- Where at least `limit` closed bars lie on or before the end time, a live call returns the rows
that it returns on a file of the closed bars exactly when at most one fetched bar is still forming
or lies after the end time (none for a limit of zero, unless there is no row to return). -/
theorem sameRows_iff {p : CsvDataProvider} (h : Chronological barSeconds now opened)
    (hserves : Serves exchange p.symbol p.timeframe barSeconds opened)
    (hfile : p.df = closedBars barSeconds now opened)
    (hlong : limit ≤ barsUntil barSeconds now opened endTime) :
    SameRows exchange now p limit endTime ↔
      formingBars barSeconds now opened + laterBars barSeconds now opened endTime ≤ min limit 1 ∨
        barsUntil barSeconds now opened endTime = 0 := by
  have hsorted := closedBars_sorted h
  unfold SameRows
  rw [getLatest_eq h hserves, p.getLatest_eq, hfile]
  have hlength : barsUntil barSeconds now opened endTime =
      ((closedBars barSeconds now opened).takeWhile (·.timestamp ≤ endTime)).length := by
    rw [barsUntil, List.countP_eq_length_filter, CsvDataProvider.takeWhile_of_sorted hsorted]
  rw [hlength] at hlong ⊢
  generalize (closedBars barSeconds now opened).takeWhile (·.timestamp ≤ endTime) = rows at hlong ⊢
  generalize formingBars barSeconds now opened = forming
  generalize laterBars barSeconds now opened endTime = later
  by_cases hnone : rows = []
  · simp [hnone]
  · have hpos : 0 < rows.length := List.length_pos_iff.mpr hnone
    rw [if_neg hnone, or_iff_left hpos.ne']
    exact rtake_agrees_iff hlong hpos forming later

/-- Three hourly bars, of which the last is forming at half past two. -/
def threeHours : List OhlcvRow :=
  [0, 1, 2].map fun (h : ℤ) => ⟨h * 3600000, 100, 100, 100, 100, 1⟩

def threeHoursExchange : Exchange where
  fetchOhlcv _ _ limit _ := .ok (threeHours.rtake limit)
  parseTimeframe _ := .ok 3600

theorem chronological_threeHours : Chronological 3600 9000000000 threeHours := by
  simp only [Chronological, Closed]
  decide

theorem serves_threeHours (symbol timeframe : String) :
    Serves threeHoursExchange symbol timeframe 3600 threeHours where
  parses := rfl
  fetches := ⟨0, by decide, fun k hk => absurd hk (Nat.not_lt_zero k), fun _ => rfl⟩

/-- The file with the two that have closed. -/
def threeHoursFile : CsvDataProvider where
  symbol := "BTC/USDT"
  timeframe := "1h"
  df := closedBars 3600 9000000000 threeHours
  sorted := closedBars_sorted chronological_threeHours

theorem sameRows_newest : SameRows threeHoursExchange 9000000000 threeHoursFile 2 3600000000 :=
  (sameRows_iff chronological_threeHours (serves_threeHours _ _) rfl (by decide)).mpr (by decide)

/-- Up to the first bar there is a row, which the live provider does not fetch. -/
theorem not_sameRows_first :
    Chronological 3600 9000000000 threeHours ∧
      Serves threeHoursExchange threeHoursFile.symbol threeHoursFile.timeframe 3600 threeHours ∧
      threeHoursFile.df = closedBars 3600 9000000000 threeHours ∧
      1 ≤ barsUntil 3600 9000000000 threeHours 0 ∧
      ¬ SameRows threeHoursExchange 9000000000 threeHoursFile 1 0 := by
  refine ⟨chronological_threeHours, serves_threeHours _ _, rfl, by decide, fun hsame => ?_⟩
  unfold SameRows at hsame
  rw [getLatest_eq chronological_threeHours (serves_threeHours _ _),
    CsvDataProvider.getLatest_eq] at hsame
  revert hsame
  decide

end LiveProvider

end TradingPlatform
