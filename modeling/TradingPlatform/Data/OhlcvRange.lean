import TradingPlatform.Data.LiveProvider
import TradingPlatform.Lib.Calendar
import TradingPlatform.Lib.Outcome
import TradingPlatform.Lib.Window

/-!
# Fetching a range

`LiveProvider.fetch_ohlcv_range` asks the exchange for one page after another, each from the end of
the last, and cuts the rows to the range. A fetch that returns has every bar of the exchange in the
range, however often attempts fail and however short the pages are.
-/

namespace TradingPlatform

/-- The exchange as it behaves during a fetch: `fetch_ohlcv symbol timeframe since limit` at each
attempt, and `parse_timeframe`, in seconds. The errors carry the text of the exception. -/
structure PagedExchange where
  fetchOhlcv : String → String → ℤ → ℕ → ℕ → Except String (List OhlcvRow)
  parseTimeframe : String → Except String ℤ

/-- The bars of a symbol and timeframe an exchange has, oldest first; they do not overlap. -/
structure History where
  barSeconds : ℤ
  rows : List OhlcvRow
  positive : 0 < barSeconds
  spaced : rows.Pairwise fun a b => a.ms + barSeconds * 1000 ≤ b.ms

def History.bars (history : History) : Frame := history.rows.map OhlcvRow.toCandle

namespace LiveProvider

/-- `int(ts.timestamp() * 1000)` -/
def wholeMs (t : ℤ) : ℤ := t.tdiv 1000

/-- A page of `fetch_ohlcv_range`, over the attempts still to be made. -/
def fetchPage (exchange : PagedExchange) (symbol timeframe : String) (since : ℤ) (limit : ℕ)
    (lastError : String) : List ℕ → Except PyError (List OhlcvRow)
  | [] =>
    throw (.dataProviderError
      ("Failed to fetch historical OHLCV for " ++ symbol ++ ": " ++ lastError))
  | n :: rest =>
    match exchange.fetchOhlcv symbol timeframe since limit n with
    | .ok batch => return batch
    | .error e => fetchPage exchange symbol timeframe since limit e rest

/-- The loop over the pages. -/
def fetchPages (exchange : PagedExchange) (symbol timeframe : String) (limit : ℕ)
    (timeframeMs endMs since : ℤ) (allRows : List OhlcvRow) : Except PyError (List OhlcvRow) :=
  if since ≤ endMs then
    match fetchPage exchange symbol timeframe since limit "None" (List.range 3) with
    | .error e => .error e
    | .ok batch =>
      match batch.getLast? with
      | none => .ok allRows
      | some last =>
        if endMs ≤ last.ms then .ok (allRows ++ batch)
        else if last.ms + timeframeMs ≤ since then .ok (allRows ++ batch)
        else fetchPages exchange symbol timeframe limit timeframeMs endMs (last.ms + timeframeMs)
          (allRows ++ batch)
  else .ok allRows
termination_by (endMs + 1 - since).toNat

/-- The rows as a frame with one bar for each time, cut to the range. -/
def cutRange (symbol timeframe : String) (start stop : ℤ) (allRows : List OhlcvRow) :
    Except PyError Frame :=
  let between := symbol ++ " " ++ timeframe ++ " between " ++ Calendar.isoformat start ++ " and " ++
    Calendar.isoformat stop
  if allRows.isEmpty then throw (.dataProviderError ("No OHLCV data returned for " ++ between))
  else do
    let df ← toDataframe allRows
    let df := Window.sortByKey Candle.timestamp (Window.keepFirst Candle.timestamp df)
    let filtered := df.filter fun c => start ≤ c.timestamp ∧ c.timestamp ≤ stop
    if filtered.isEmpty then
      throw (.dataProviderError ("No OHLCV bars in range for " ++ between))
    else return filtered

def fetchOhlcvRange (exchange : PagedExchange) (symbol timeframe : String) (start stop : ℤ)
    (limit : ℕ := 1000) : Except PyError Frame :=
  if stop < start then throw (.dataProviderError "Start date must be on or before end date")
  else do
    let timeframeSeconds ← (exchange.parseTimeframe timeframe).mapError PyError.raised
    let allRows ← fetchPages exchange symbol timeframe limit (timeframeSeconds * 1000)
      (wholeMs stop) (wholeMs start) []
    cutRange symbol timeframe start stop allRows

end LiveProvider

/-- The exchange has the given bars: where it answers, it sends the oldest of them from the asked
time on, at least one where there is one, and parses the timeframe to the length of a bar. -/
structure PagedExchange.Serves (exchange : PagedExchange) (symbol timeframe : String)
    (history : History) : Prop where
  parses : ∀ s, exchange.parseTimeframe timeframe = .ok s → s = history.barSeconds
  page : ∀ since limit n batch, 0 < limit →
    exchange.fetchOhlcv symbol timeframe since limit n = .ok batch →
      batch <+: history.rows.filter (since ≤ ·.ms) ∧
        (batch = [] → history.rows.filter (since ≤ ·.ms) = [])

/-- The exchange answers every page at one of the attempts, and parses the timeframe. -/
structure PagedExchange.Answers (exchange : PagedExchange) (symbol timeframe : String) : Prop where
  parses : ∃ s, exchange.parseTimeframe timeframe = .ok s
  page : ∀ since limit, ∃ n < 3, ∃ batch,
    exchange.fetchOhlcv symbol timeframe since limit n = .ok batch

/-- The exchange that has the given bars and always answers. -/
def History.exchange (history : History) : PagedExchange where
  fetchOhlcv _ _ since limit _ := .ok ((history.rows.filter (since ≤ ·.ms)).take limit)
  parseTimeframe _ := .ok history.barSeconds

/-! ## The bars -/

namespace History

variable {history : History} {row row' : OhlcvRow} {c : Candle}

theorem ms_injOn (h : row ∈ history.rows) (h' : row' ∈ history.rows) (hms : row.ms = row'.ms) :
    row = row' := by
  have hnodup : (history.rows.map OhlcvRow.ms).Nodup := by
    rw [List.Nodup, List.pairwise_map]
    refine history.spaced.imp fun {a b} hab => ?_
    have hpos := history.positive
    omega
  exact List.inj_on_of_nodup_map hnodup h h' hms

/-- After a bar the next one comes a bar's length later. -/
theorem next_bar (h : row ∈ history.rows) (h' : row' ∈ history.rows) (hlt : row.ms < row'.ms) :
    row.ms + history.barSeconds * 1000 ≤ row'.ms := by
  have hpos := history.positive
  obtain ⟨before, after, hsplit⟩ := List.append_of_mem h
  have hspaced := history.spaced
  rw [hsplit, List.pairwise_append] at hspaced
  rw [hsplit, List.mem_append, List.mem_cons] at h'
  rcases h' with hbefore | rfl | hafter
  · have hle := hspaced.2.2 row' hbefore row List.mem_cons_self
    omega
  · exact absurd hlt (lt_irrefl _)
  · exact List.rel_of_pairwise_cons hspaced.2.1 hafter

/-- Of the bars from a time on, the oldest few hold every bar up to the last of them. -/
theorem mem_of_prefix {since : ℤ} {batch : List OhlcvRow} {last : OhlcvRow}
    (hbatch : batch <+: history.rows.filter (since ≤ ·.ms)) (hlast : batch.getLast? = some last)
    (hrow : row ∈ history.rows) (hsince : since ≤ row.ms) (hle : row.ms ≤ last.ms) :
    row ∈ batch := by
  obtain ⟨rest, hrest⟩ := hbatch
  have hpos := history.positive
  have hmem : row ∈ history.rows.filter (since ≤ ·.ms) :=
    List.mem_filter.mpr ⟨hrow, decide_eq_true hsince⟩
  have hspaced := history.spaced.sublist (List.filter_sublist (p := (since ≤ ·.ms)))
  rw [← hrest] at hmem hspaced
  rcases List.mem_append.mp hmem with hin | hout
  · exact hin
  · have hlater := (List.pairwise_append.mp hspaced).2.2 last (List.mem_of_getLast? hlast) row hout
    omega

theorem mem_bars : c ∈ history.bars ↔ ∃ row ∈ history.rows, row.toCandle = c := List.mem_map

theorem unique_bars (history : History) :
    Window.Unique Candle.timestamp (· ∈ history.bars) := by
  intro c c' hc hc' htimestamp
  obtain ⟨row, hrow, rfl⟩ := mem_bars.mp hc
  obtain ⟨row', hrow', rfl⟩ := mem_bars.mp hc'
  rw [ms_injOn hrow hrow' (mul_right_cancel₀ (by norm_num) htimestamp)]

theorem exchange_serves (history : History) (symbol timeframe : String) :
    history.exchange.Serves symbol timeframe history where
  parses _ h := (Except.ok.inj h).symm
  page since limit _ batch hlimit h := by
    cases h
    refine ⟨List.take_prefix _ _, fun hempty => ?_⟩
    exact (List.take_eq_nil_iff.mp hempty).resolve_left hlimit.ne'

theorem exchange_answers (history : History) (symbol timeframe : String) :
    history.exchange.Answers symbol timeframe :=
  ⟨⟨_, rfl⟩, fun _ _ => ⟨0, three_pos, _, rfl⟩⟩

end History

namespace LiveProvider

variable {history : History} {exchange : PagedExchange} {symbol timeframe : String} {limit : ℕ}
  {since endMs start stop : ℤ} {batch allRows allRows' : List OhlcvRow} {df : Frame}

/-! ## The pages -/

/-- A page that comes is one the exchange has sent. -/
theorem fetchPage_ok {lastError : String} {attempts : List ℕ}
    (h : fetchPage exchange symbol timeframe since limit lastError attempts = .ok batch) :
    ∃ n, exchange.fetchOhlcv symbol timeframe since limit n = .ok batch := by
  induction attempts generalizing lastError with
  | nil => cases h
  | cons n rest ih =>
    cases hfetch : exchange.fetchOhlcv symbol timeframe since limit n with
    | error e =>
      simp only [fetchPage, hfetch] at h
      exact ih h
    | ok batch' =>
      simp only [fetchPage, hfetch] at h
      cases h
      exact ⟨n, hfetch⟩

/-- The rows are bars of the exchange, all of those from the start of the range up to the time of
the next page. -/
structure Fetched (history : History) (first since : ℤ) (rows : List OhlcvRow) : Prop where
  bars : ∀ row ∈ rows, row ∈ history.rows
  complete : ∀ row ∈ history.rows, first ≤ row.ms → row.ms < since → row ∈ rows

theorem Fetched.append {first : ℤ} {last : OhlcvRow} (h : Fetched history first since allRows)
    (hbatch : batch <+: history.rows.filter (since ≤ ·.ms)) (hlast : batch.getLast? = some last) :
    Fetched history first (last.ms + history.barSeconds * 1000) (allRows ++ batch) := by
  have hlastMem : last ∈ history.rows :=
    List.mem_of_mem_filter (hbatch.subset (List.mem_of_getLast? hlast))
  constructor
  · intro row hrow
    rcases List.mem_append.mp hrow with hold | hnew
    · exact h.bars row hold
    · exact List.mem_of_mem_filter (hbatch.subset hnew)
  · intro row hrow hfirst hbelow
    rw [List.mem_append]
    by_cases hsince : row.ms < since
    · exact .inl (h.complete row hrow hfirst hsince)
    · refine .inr (History.mem_of_prefix hbatch hlast hrow (not_lt.mp hsince) ?_)
      by_contra hlate
      have hnext := History.next_bar hlastMem hrow (not_le.mp hlate)
      omega

theorem Fetched.mono {first since' : ℤ} (h : Fetched history first since allRows)
    (hle : since' ≤ since) : Fetched history first since' allRows :=
  ⟨h.bars, fun row hrow hfirst hbelow => h.complete row hrow hfirst (hbelow.trans_le hle)⟩

/-- The pages of a fetch that returns hold every bar up to the end. -/
theorem fetchPages_spec {first : ℤ} (hserves : exchange.Serves symbol timeframe history)
    (hlimit : 0 < limit) (hfetched : Fetched history first since allRows)
    (h : fetchPages exchange symbol timeframe limit (history.barSeconds * 1000) endMs since
      allRows = .ok allRows') : Fetched history first (endMs + 1) allRows' := by
  have hpos := history.positive
  fun_induction fetchPages exchange symbol timeframe limit (history.barSeconds * 1000) endMs since
    allRows with
  | case1 => cases h
  | case2 since allRows hle batch hpage hempty =>
    cases h
    obtain ⟨n, hn⟩ := fetchPage_ok hpage
    have hnone := (hserves.page _ _ _ _ hlimit hn).2 (List.getLast?_eq_none_iff.mp hempty)
    refine ⟨hfetched.bars, fun row hrow hfirst _ => hfetched.complete row hrow hfirst ?_⟩
    by_contra hlate
    exact List.filter_eq_nil_iff.mp hnone row hrow (decide_eq_true (not_lt.mp hlate))
  | case3 since allRows hle batch hpage last hlast hend =>
    cases h
    obtain ⟨n, hn⟩ := fetchPage_ok hpage
    exact (hfetched.append (hserves.page _ _ _ _ hlimit hn).1 hlast).mono (by omega)
  | case4 since allRows hle batch hpage last hlast hend hstuck =>
    obtain ⟨n, hn⟩ := fetchPage_ok hpage
    have hmem := (hserves.page _ _ _ _ hlimit hn).1.subset (List.mem_of_getLast? hlast)
    have hsince : since ≤ last.ms := of_decide_eq_true (List.mem_filter.mp hmem).2
    omega
  | case5 since allRows hle batch hpage last hlast hend hnext ih =>
    obtain ⟨n, hn⟩ := fetchPage_ok hpage
    exact ih (hfetched.append (hserves.page _ _ _ _ hlimit hn).1 hlast) h
  | case6 since allRows hlt =>
    cases h
    exact hfetched.mono (by omega)

/-! ## The range -/

theorem wholeMs_le {t ms : ℤ} (h : t ≤ ms * 1000) : wholeMs t ≤ ms := by
  have hle := Int.tdiv_le_tdiv (show (0 : ℤ) < 1000 by norm_num) h
  rwa [Int.mul_tdiv_cancel ms (by norm_num)] at hle

theorem le_wholeMs {t ms : ℤ} (h : ms * 1000 ≤ t) : ms ≤ wholeMs t := by
  have hle := Int.tdiv_le_tdiv (show (0 : ℤ) < 1000 by norm_num) h
  rwa [Int.mul_tdiv_cancel ms (by norm_num)] at hle

/-- The frame of rows of the exchange has them all. -/
theorem toDataframe_ok (h : toDataframe allRows = .ok df) {c : Candle} :
    c ∈ df ↔ ∃ row ∈ allRows, row.toCandle = c := by
  rw [toDataframe] at h
  split at h
  · cases h
  · cases h
    rw [List.mem_mergeSort, List.mem_map]

/-- What is cut from rows of the exchange are those in the range, in their order. -/
theorem cutRange_spec (hrows : ∀ row ∈ allRows, row ∈ history.rows)
    (h : cutRange symbol timeframe start stop allRows = .ok df) :
    df ≠ [] ∧ (df.Pairwise fun a b => a.timestamp < b.timestamp) ∧
      ∀ c, c ∈ df ↔ (∃ row ∈ allRows, row.toCandle = c) ∧
        start ≤ c.timestamp ∧ c.timestamp ≤ stop := by
  simp only [cutRange] at h
  split at h
  · cases h
  obtain ⟨frame, hframe, h⟩ := Except.bind_eq_ok.mp h
  have hbars : ∀ c ∈ frame, c ∈ history.bars := by
    intro c hc
    obtain ⟨row, hrow, rfl⟩ := (toDataframe_ok hframe).mp hc
    exact List.mem_map_of_mem (hrows row hrow)
  split at h
  · cases h
  · next hnonempty =>
    cases h
    refine ⟨by simpa using hnonempty, ?_, fun c => ?_⟩
    · exact (Window.pairwise_sortByKey Window.nodup_keepFirst).filter _
    · rw [List.mem_filter, Window.mem_sortByKey, Window.mem_keepFirst history.unique_bars hbars,
        decide_eq_true_eq, toDataframe_ok hframe]

/-- A fetch that returns has the bars of the exchange in the range, in their order. -/
theorem fetchOhlcvRange_spec (hserves : exchange.Serves symbol timeframe history)
    (hlimit : 0 < limit)
    (h : fetchOhlcvRange exchange symbol timeframe start stop limit = .ok df) :
    df ≠ [] ∧ (df.Pairwise fun a b => a.timestamp < b.timestamp) ∧
      Window.Holds Candle.timestamp (· ∈ history.bars) start stop df := by
  rw [fetchOhlcvRange] at h
  split at h
  · cases h
  obtain ⟨timeframeSeconds, hparse, h⟩ := Except.bind_eq_ok.mp h
  obtain ⟨allRows, hpages, h⟩ := Except.bind_eq_ok.mp h
  have hseconds : timeframeSeconds = history.barSeconds := by
    cases hparsed : exchange.parseTimeframe timeframe with
    | error e =>
      rw [hparsed] at hparse
      cases hparse
    | ok _ =>
      rw [hparsed] at hparse
      cases hparse
      exact hserves.parses _ hparsed
  rw [hseconds] at hpages
  have hstart : Fetched history (wholeMs start) (wholeMs start) [] :=
    ⟨by nofun, fun row _ hle hlt => absurd hlt (not_lt.mpr hle)⟩
  have hfetched := fetchPages_spec hserves hlimit hstart hpages
  obtain ⟨hne, hsorted, hmem⟩ := cutRange_spec hfetched.bars h
  refine ⟨hne, hsorted, fun c => (hmem c).trans (and_congr_left fun hrange => ?_)⟩
  constructor
  · rintro ⟨row, hrow, rfl⟩
    exact List.mem_map_of_mem (hfetched.bars row hrow)
  · intro hc
    obtain ⟨row, hrow, rfl⟩ := History.mem_bars.mp hc
    have hstop := le_wholeMs hrange.2
    exact ⟨row, hfetched.complete row hrow (wholeMs_le hrange.1) (by omega), rfl⟩

/-! ## Fetches that return -/

theorem fetchPage_returns {lastError : String} {attempts : List ℕ} {n : ℕ} (hn : n ∈ attempts)
    (h : ∃ batch, exchange.fetchOhlcv symbol timeframe since limit n = .ok batch) :
    ∃ batch, fetchPage exchange symbol timeframe since limit lastError attempts = .ok batch := by
  induction attempts generalizing lastError with
  | nil => cases hn
  | cons m rest ih =>
    cases hfetch : exchange.fetchOhlcv symbol timeframe since limit m with
    | ok batch => exact ⟨batch, by simp only [fetchPage, hfetch]; rfl⟩
    | error e =>
      simp only [fetchPage, hfetch]
      rcases List.mem_cons.mp hn with rfl | hn
      · obtain ⟨batch, hbatch⟩ := h
        cases hfetch.symm.trans hbatch
      · exact ih hn

theorem fetchPages_returns {timeframeMs : ℤ} (h : exchange.Answers symbol timeframe) :
    ∃ rows, fetchPages exchange symbol timeframe limit timeframeMs endMs since allRows =
      .ok rows := by
  fun_induction fetchPages exchange symbol timeframe limit timeframeMs endMs since allRows with
  | case1 since allRows hle e hpage =>
    obtain ⟨n, hn, hbatch⟩ := h.page since limit
    obtain ⟨batch, hok⟩ : ∃ batch, fetchPage exchange symbol timeframe since limit "None"
      (List.range 3) = .ok batch := fetchPage_returns (List.mem_range.mpr hn) hbatch
    cases hpage.symm.trans hok
  | case5 since allRows hle batch hpage last hlast hend hnext ih => exact ih
  | _ => exact ⟨_, rfl⟩

theorem cutRange_returns (hrows : ∀ row ∈ allRows, row ∈ history.rows) {row : OhlcvRow}
    (hrow : row ∈ allRows)
    (hrange : start ≤ row.toCandle.timestamp ∧ row.toCandle.timestamp ≤ stop) :
    ∃ df, cutRange symbol timeframe start stop allRows = .ok df := by
  have hne : ¬ allRows.isEmpty = true := by
    rw [List.isEmpty_iff]
    exact List.ne_nil_of_mem hrow
  obtain ⟨frame, hframe⟩ : ∃ frame, toDataframe allRows = .ok frame := by
    rw [toDataframe, if_neg hne]
    exact ⟨_, rfl⟩
  have hbars : ∀ c ∈ frame, c ∈ history.bars := by
    intro c hc
    obtain ⟨row', hrow', rfl⟩ := (toDataframe_ok hframe).mp hc
    exact List.mem_map_of_mem (hrows row' hrow')
  have hkept : row.toCandle ∈ (Window.sortByKey Candle.timestamp
      (Window.keepFirst Candle.timestamp frame)).filter fun c =>
        start ≤ c.timestamp ∧ c.timestamp ≤ stop := by
    rw [List.mem_filter, Window.mem_sortByKey, Window.mem_keepFirst history.unique_bars hbars,
      toDataframe_ok hframe]
    exact ⟨⟨row, hrow, rfl⟩, decide_eq_true hrange⟩
  simp only [cutRange, if_neg hne, hframe]
  refine ⟨_, if_neg ?_⟩
  rw [List.isEmpty_iff]
  exact List.ne_nil_of_mem hkept

/-- Where the exchange answers and has a bar in the range, the fetch returns. -/
theorem fetchOhlcvRange_returns (hserves : exchange.Serves symbol timeframe history)
    (hanswers : exchange.Answers symbol timeframe) (hlimit : 0 < limit) {c : Candle}
    (hc : c ∈ history.bars) (hrange : start ≤ c.timestamp ∧ c.timestamp ≤ stop) :
    ∃ df, fetchOhlcvRange exchange symbol timeframe start stop limit = .ok df := by
  obtain ⟨s, hparse⟩ := hanswers.parses
  obtain rfl := hserves.parses s hparse
  obtain ⟨allRows, hpages⟩ : ∃ rows, fetchPages exchange symbol timeframe limit
    (history.barSeconds * 1000) (wholeMs stop) (wholeMs start) [] = .ok rows :=
      fetchPages_returns hanswers
  have hstart : Fetched history (wholeMs start) (wholeMs start) [] :=
    ⟨by nofun, fun row _ hle hlt => absurd hlt (not_lt.mpr hle)⟩
  have hfetched := fetchPages_spec hserves hlimit hstart hpages
  obtain ⟨row, hrow, rfl⟩ := History.mem_bars.mp hc
  have hstop := le_wholeMs hrange.2
  have hmem : row ∈ allRows := hfetched.complete row hrow (wholeMs_le hrange.1) (by omega)
  obtain ⟨df, hcut⟩ : ∃ df, cutRange symbol timeframe start stop allRows = .ok df :=
    cutRange_returns hfetched.bars hmem hrange
  have hle : ¬ stop < start := not_lt.mpr (hrange.1.trans hrange.2)
  refine ⟨df, ?_⟩
  rw [fetchOhlcvRange, if_neg hle, hparse]
  exact Except.bind_eq_ok.mpr ⟨_, rfl, Except.bind_eq_ok.mpr ⟨allRows, hpages, hcut⟩⟩

end LiveProvider

end TradingPlatform
