import TradingPlatform.Contracts
import TradingPlatform.Lib.Ordered
import TradingPlatform.Lib.Outcome

/-!
# The CSV data provider

`CsvDataProvider` holds the rows of a file sorted by timestamp and answers for one symbol and
timeframe. `searchsorted` on the sorted rows is the length of an initial stretch.
-/

namespace TradingPlatform

/-- A `CsvDataProvider` after `_load`, which sorts the rows. -/
structure CsvDataProvider where
  symbol : String
  timeframe : String
  df : Frame
  sorted : df.Pairwise fun a b => a.timestamp ≤ b.timestamp

namespace CsvDataProvider

/-- `searchsorted(t, side="left")` -/
def searchsortedLeft (df : Frame) (t : ℤ) : ℕ := (df.takeWhile (·.timestamp < t)).length

/-- `searchsorted(t, side="right")` -/
def searchsortedRight (df : Frame) (t : ℤ) : ℕ := (df.takeWhile (·.timestamp ≤ t)).length

variable (p : CsvDataProvider)

/-- `_validate_symbol_timeframe` -/
def validateSymbolTimeframe (symbol timeframe : String) : Except PyError Unit := do
  if symbol ≠ p.symbol then
    throw (.dataProviderError ("CSV provider only supports symbol " ++ p.symbol))
  if timeframe ≠ p.timeframe then
    throw (.dataProviderError ("CSV provider only supports timeframe " ++ p.timeframe))

/-- The rows of `_range_slice`. -/
def rangeSlice (start endTime : ℤ) : Frame :=
  (p.df.take (searchsortedRight p.df endTime)).drop (searchsortedLeft p.df start)

/-- `timestamps` -/
def timestamps (symbol timeframe : String) (start endTime : ℤ) : Except PyError (List ℤ) := do
  p.validateSymbolTimeframe symbol timeframe
  return (p.rangeSlice start endTime).map (·.timestamp)

/-- `get_latest` -/
def getLatest (symbol timeframe : String) (limit : ℕ := 200) (endTime : Option ℤ := none) :
    Except PyError Frame := do
  p.validateSymbolTimeframe symbol timeframe
  if p.df = [] then throw (.dataProviderError "CSV OHLCV data is empty")
  match endTime with
  | some t =>
    let idx := searchsortedRight p.df t
    if idx = 0 then throw (.dataProviderError "No OHLCV rows on or before end time")
    return (p.df.take idx).drop (idx - limit)
  | none => return p.df.drop (p.df.length - limit)

/-! ## Rows in order -/

theorem take_searchsortedRight (df : Frame) (t : ℤ) :
    df.take (searchsortedRight df t) = df.takeWhile (·.timestamp ≤ t) :=
  (List.prefix_iff_eq_take.mp (List.takeWhile_prefix _)).symm

/-- In sorted rows, the stretch that `searchsorted` ends holds the rows up to `t`. -/
theorem takeWhile_of_sorted {df : Frame} {t : ℤ}
    (hsorted : df.Pairwise fun a b => a.timestamp ≤ b.timestamp) :
    df.takeWhile (·.timestamp ≤ t) = df.filter (·.timestamp ≤ t) :=
  Ordered.takeWhile_eq_filter
    (hsorted.imp fun hab hb => decide_eq_true (hab.trans (of_decide_eq_true hb)))

theorem mem_takeWhile_of_sorted {df : Frame} {t : ℤ} {c : Candle}
    (hsorted : df.Pairwise fun a b => a.timestamp ≤ b.timestamp) (hc : c ∈ df)
    (ht : c.timestamp ≤ t) : c ∈ df.takeWhile (·.timestamp ≤ t) := by
  rw [takeWhile_of_sorted hsorted]
  exact List.mem_filter.mpr ⟨hc, decide_eq_true ht⟩

/-- The rows after the stretch that `searchsorted` ends are later. -/
theorem lt_of_mem_dropWhile {df : Frame} {t : ℤ} {c : Candle}
    (hsorted : df.Pairwise fun a b => a.timestamp ≤ b.timestamp)
    (hc : c ∈ df.dropWhile (·.timestamp ≤ t)) : t < c.timestamp := by
  have hpast := Ordered.not_of_mem_dropWhile (p := fun c : Candle => c.timestamp ≤ t)
    (hsorted.imp fun {a b} hab hb => decide_eq_true (hab.trans (of_decide_eq_true hb))) hc
  exact not_le.mp (of_decide_eq_false (Bool.not_eq_true _ ▸ hpast))

/-- The rows of a range are those from its start to its end. -/
theorem rangeSlice_eq_filter (start endTime : ℤ) :
    p.rangeSlice start endTime =
      (p.df.filter (start ≤ ·.timestamp)).filter (·.timestamp ≤ endTime) := by
  have hsorted : p.df.Pairwise fun a b =>
      decide (b.timestamp < start) → decide (a.timestamp < start) :=
    p.sorted.imp fun {a b} hab hb => decide_eq_true (hab.trans_lt (of_decide_eq_true hb))
  have hearly : ∀ c ∈ p.df.takeWhile (·.timestamp < start), c.timestamp < start := fun c hc => by
    simpa using List.mem_takeWhile_imp hc
  have hlate : ∀ c ∈ p.df.dropWhile (·.timestamp < start), start ≤ c.timestamp := fun c hc => by
    simpa using Ordered.not_of_mem_dropWhile hsorted hc
  have hsplit := List.takeWhile_append_dropWhile (p := fun c : Candle => c.timestamp < start)
    (l := p.df)
  unfold rangeSlice
  rw [take_searchsortedRight, takeWhile_of_sorted p.sorted, searchsortedLeft]
  generalize p.df.takeWhile (·.timestamp < start) = early at hearly hsplit ⊢
  generalize p.df.dropWhile (·.timestamp < start) = late at hlate hsplit
  have hstart : (early ++ late).filter (start ≤ ·.timestamp) = late := by
    rw [List.filter_append, List.filter_eq_nil_iff.mpr fun c hc => by simpa using hearly c hc,
      List.nil_append, List.filter_eq_self.mpr fun c hc => by simpa using hlate c hc]
  rw [← hsplit, hstart, List.filter_append]
  by_cases hle : ∀ c ∈ early, c.timestamp ≤ endTime
  · rw [List.filter_eq_self.mpr fun c hc => by simpa using hle c hc, List.drop_left]
  · -- a row before the start is after the end, and so are all rows from the start on
    have hnone : late.filter (·.timestamp ≤ endTime) = [] := by
      push Not at hle
      obtain ⟨c, hc, hlt⟩ := hle
      exact List.filter_eq_nil_iff.mpr fun d hd => by
        simpa using hlt.trans ((hearly c hc).trans_le (hlate d hd))
    rw [hnone, List.append_nil, List.drop_eq_nil_of_le (List.length_filter_le _ _)]

theorem mem_rangeSlice {start endTime : ℤ} {c : Candle} :
    c ∈ p.rangeSlice start endTime ↔ c ∈ p.df ∧ start ≤ c.timestamp ∧ c.timestamp ≤ endTime := by
  rw [rangeSlice_eq_filter, List.mem_filter, List.mem_filter, and_assoc, decide_eq_true_iff,
    decide_eq_true_iff]

theorem rangeSlice_sublist (start endTime : ℤ) : (p.rangeSlice start endTime).Sublist p.df :=
  (List.drop_sublist _ _).trans (List.take_sublist _ _)

variable {p} {symbol timeframe : String} {start endTime t : ℤ} {times : List ℤ} {frame : Frame}

/-- The timestamps of a range are those of rows of the file, in order. -/
theorem timestamps_ok (h : p.timestamps symbol timeframe start endTime = .ok times) :
    times.Pairwise (· ≤ ·) ∧ ∀ t ∈ times, ∃ c ∈ p.df, c.timestamp = t := by
  obtain ⟨_, _, h⟩ := Except.bind_eq_ok.mp h
  cases h
  refine ⟨List.pairwise_map.mpr (p.sorted.sublist (p.rangeSlice_sublist start endTime)), ?_⟩
  intro t ht
  obtain ⟨c, hc, rfl⟩ := List.mem_map.mp ht
  exact ⟨c, (p.rangeSlice_sublist start endTime).subset hc, rfl⟩

/-- What `get_latest` returns up to the timestamp of a row ends with a row of that timestamp. -/
theorem getLast?_getLatest {limit : ℕ} (hlimit : 0 < limit)
    (h : p.getLatest symbol timeframe limit (some t) = .ok frame)
    (ht : ∃ c ∈ p.df, c.timestamp = t) : ∃ c, frame.getLast? = some c ∧ c.timestamp = t := by
  obtain ⟨c, hc, rfl⟩ := ht
  have hmem : c ∈ p.df.takeWhile (·.timestamp ≤ c.timestamp) :=
    mem_takeWhile_of_sorted p.sorted hc le_rfl
  rw [← take_searchsortedRight] at hmem
  let idx := searchsortedRight p.df c.timestamp
  have hframe : frame = (p.df.take idx).drop (idx - limit) := by
    obtain ⟨_, _, h⟩ := Except.bind_eq_ok.mp h
    have hdf : p.df ≠ [] := List.ne_nil_of_mem hc
    have hidx : idx ≠ 0 := fun h0 => by simp [idx, h0] at hmem
    simp only [hdf, hidx, idx, if_false] at h
    cases h
    rfl
  have hlen : (p.df.take idx).length = idx := by
    rw [take_searchsortedRight]
    rfl
  have hdrop : ¬ (p.df.take idx).length ≤ idx - limit := by
    have hpos : 0 < idx := hlen ▸ List.length_pos_of_mem hmem
    rw [hlen]
    omega
  rw [hframe, List.getLast?_drop, if_neg hdrop]
  obtain ⟨last, hlast⟩ := Option.isSome_iff_exists.mp
    (List.getLast?_isSome.mpr (List.ne_nil_of_mem hmem))
  refine ⟨last, hlast, le_antisymm ?_ ?_⟩
  · have hin := List.mem_of_getLast? hlast
    rw [take_searchsortedRight] at hin
    simpa using List.mem_takeWhile_imp hin
  · exact Ordered.key_le_getLast (p.sorted.sublist (List.take_sublist idx p.df)) hlast hmem

end CsvDataProvider

end TradingPlatform
