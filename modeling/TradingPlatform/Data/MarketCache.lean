import TradingPlatform.Data.OhlcvRange
import TradingPlatform.Lib.Run

/-!
# The market cache

A cache file holds the bars of one symbol and timeframe, and `download_csv` extends it by the ranges
that are asked for. What the file covers is read off its first and its last row. An extension
fetches from the end of the file on, so that the rows stay a window of the exchange's history; a
forced download fetches its own range only, and may leave a hole between that and the file.
-/

namespace TradingPlatform

/-- What the path of a cache file is made from. -/
structure CacheKey where
  exchangeId : String
  symbol : String
  timeframe : String

/-- A call of `download_csv` on the range from `start` to `stop`. `fetches` gives the exchange as
each fetch of the call finds it, none where `ccxt` has no such exchange. -/
structure DownloadCall where
  start : ℤ
  stop : ℤ
  force : Bool := false
  fetches : ℕ → Option PagedExchange

namespace MarketCache

/-- `read_coverage`; `file` holds the rows of the file, if there is one. -/
def readCoverage (file : Option Frame) : Option (ℤ × ℤ) := do
  let rows ← file
  let first ← rows.head?
  let last ← rows.getLast?
  return (first.timestamp, last.timestamp)

def mergeOhlcv (existing new : Frame) : Frame :=
  let combined :=
    if existing.isEmpty then new
    else if new.isEmpty then existing
    else existing ++ new
  Window.sortByKey Candle.timestamp (Window.keepLast Candle.timestamp combined)

def fetchOhlcvDf (key : CacheKey) (exchange : Option PagedExchange) (start stop : ℤ) :
    Except PyError Frame :=
  match exchange with
  | none => throw (.dataProviderError ("Unsupported exchange: " ++ key.exchangeId))
  | some exchange => LiveProvider.fetchOhlcvRange exchange key.symbol key.timeframe start stop

def tryFetchGap (key : CacheKey) (exchange : Option PagedExchange) (start stop : ℤ) :
    Except PyError (Option Frame) :=
  if stop < start then return none
  else
    match fetchOhlcvDf key exchange start stop with
    | .ok df => return some df
    | .error (.dataProviderError text) =>
      if "No OHLCV bars".toList <:+: text.toList then return none
      else throw (.dataProviderError text)
    | .error e => throw e

/-- The bars before those of the file, where the range starts before it. -/
def leftGap (key : CacheKey) (call : DownloadCall) (first : ℤ) : Except PyError (Option Frame) :=
  if call.start < first then tryFetchGap key (call.fetches 0) call.start first else return none

/-- The bars after those of the file, where the range ends after it. -/
def rightGap (key : CacheKey) (call : DownloadCall) (last : ℤ) : Except PyError (Option Frame) :=
  if last < call.stop then tryFetchGap key (call.fetches 1) last call.stop else return none

/-- The file with what it lacks on either side of its rows, if anything has come. -/
def fetchGaps (key : CacheKey) (call : DownloadCall) (existing : Frame) (first last : ℤ) :
    Except PyError (Option Frame) := do
  let left ← leftGap key call first
  let right ← rightGap key call last
  let frames := [left, right].reduceOption.filter fun df => !df.isEmpty
  return if frames.isEmpty then none else some (frames.foldl mergeOhlcv existing)

/-- The rows `download_csv` writes, if any. -/
def refresh (key : CacheKey) (file : Option Frame) (call : DownloadCall) :
    Except PyError (Option Frame) :=
  match readCoverage file with
  | none => (fetchOhlcvDf key (call.fetches 0) call.start call.stop).map some
  | some (first, last) =>
    if call.force then
      (fetchOhlcvDf key (call.fetches 0) call.start call.stop).map fun new =>
        some (mergeOhlcv (file.getD []) new)
    else if first ≤ call.start ∧ call.stop ≤ last then return none
    else fetchGaps key call (file.getD []) first last

/-- `download_csv`: whether the file has been refreshed, and the file. -/
def downloadCsv (key : CacheKey) (file : Option Frame) (call : DownloadCall) :
    Except PyError Bool × Option Frame :=
  match refresh key file call with
  | .ok none => (.ok false, file)
  | .ok (some df) => (.ok true, some df)
  | .error (.raised what) =>
    (.error (.dataProviderError
      ("Failed to download market data from " ++ key.exchangeId ++ ": " ++ what)), file)
  | .error e => (.error e, file)

/-- The file after the call. -/
def step (key : CacheKey) (file : Option Frame) (call : DownloadCall) : Option Frame :=
  (downloadCsv key file call).2

/-! ## What the file holds -/

/-- The rows are sorted, no two of one time, and have every bar of the exchange from the first of
them to the last. -/
structure Continuous (history : History) (rows : Frame) : Prop where
  sorted : rows.Pairwise fun a b => a.timestamp ≤ b.timestamp
  distinct : (rows.map Candle.timestamp).Nodup
  complete : ∀ first last, readCoverage (some rows) = some (first, last) →
    ∀ c ∈ history.bars, first ≤ c.timestamp → c.timestamp ≤ last → c ∈ rows

/-- The call finds its range covered. -/
def CoverageHit (file : Option Frame) (call : DownloadCall) : Prop :=
  call.force = false ∧ ∃ first last, readCoverage file = some (first, last) ∧
    first ≤ call.start ∧ call.stop ≤ last

/-- After the call the file is continuous, and where the call has found its range covered, the file
has every bar in the range. -/
def Faithful (history : History) (key : CacheKey) (file : Option Frame) (call : DownloadCall) :
    Prop :=
  (∀ rows, step key file call = some rows → Continuous history rows) ∧
    (CoverageHit file call → ∃ rows, step key file call = some rows ∧
      ∀ c ∈ history.bars, call.start ≤ c.timestamp → c.timestamp ≤ call.stop → c ∈ rows)

/-- A forced call that gets bars leaves no bar of the exchange out between its range and the
file. -/
def Bridged (history : History) (key : CacheKey) (file : Option Frame) (call : DownloadCall) :
    Prop :=
  call.force = true → ∀ first last, readCoverage file = some (first, last) →
    (∃ df, fetchOhlcvDf key (call.fetches 0) call.start call.stop = .ok df) →
      ∀ c ∈ history.bars, ¬ (last < c.timestamp ∧ c.timestamp < call.start) ∧
        ¬ (call.stop < c.timestamp ∧ c.timestamp < first)

/-- The exchange has the given bars whenever the call finds it. -/
def Served (history : History) (key : CacheKey) (call : DownloadCall) : Prop :=
  ∀ n exchange, call.fetches n = some exchange →
    exchange.Serves key.symbol key.timeframe history

/-- Some bars of the exchange, one after another. -/
structure Listed (history : History) (rows : Frame) : Prop where
  ne : rows ≠ []
  sorted : rows.Pairwise fun a b => a.timestamp < b.timestamp
  bars : ∀ c ∈ rows, c ∈ history.bars

/-- The rows are a window of the history. -/
def Stored (history : History) (rows : Frame) : Prop :=
  Listed history rows ∧ Window.Gapless Candle.timestamp (· ∈ history.bars) rows

variable {history : History} {key : CacheKey} {file : Option Frame} {call : DownloadCall}
  {rows new : Frame} {start stop first last : ℤ} {exchange : Option PagedExchange}

/-- What is covered is what lies between two rows of the file. -/
theorem Listed.coverage (h : Listed history rows) : ∃ a ∈ rows, ∃ b ∈ rows,
    readCoverage (some rows) = some (a.timestamp, b.timestamp) ∧
      (∀ c ∈ rows, a.timestamp ≤ c.timestamp) ∧ ∀ c ∈ rows, c.timestamp ≤ b.timestamp := by
  obtain ⟨a, rest, rfl⟩ := List.exists_cons_of_ne_nil h.ne
  obtain ⟨b, hb⟩ := Option.isSome_iff_exists.mp (List.getLast?_isSome.mpr h.ne)
  have hsorted : (a :: rest).Pairwise fun a b => a.timestamp ≤ b.timestamp :=
    h.sorted.imp fun hlt => hlt.le
  refine ⟨a, List.mem_cons_self, b, List.mem_of_getLast? hb, ?_, fun c hc => ?_,
    fun c hc => Ordered.key_le_getLast hsorted hb hc⟩
  · simp only [readCoverage, List.head?_cons, hb, Option.bind_eq_bind, Option.bind_some]
    rfl
  · rcases List.mem_cons.mp hc with rfl | hc
    · exact le_rfl
    · exact List.rel_of_pairwise_cons hsorted hc

/-- Listed rows are continuous exactly when nothing is missing between them. -/
theorem Listed.continuous_iff (h : Listed history rows) : Continuous history rows ↔
    Window.Gapless Candle.timestamp (· ∈ history.bars) rows := by
  obtain ⟨a, ha, b, hb, hcoverage, hleast, hgreatest⟩ := h.coverage
  constructor
  · intro hcontinuous c hc x hx y hy hxc hcy
    exact hcontinuous.complete _ _ hcoverage c hc ((hleast x hx).trans hxc)
      (hcy.trans (hgreatest y hy))
  · intro hgapless
    refine ⟨h.sorted.imp fun {a b} hlt => hlt.le, ?_, fun first last hspan c hc hlo hhi => ?_⟩
    · rw [List.Nodup, List.pairwise_map]
      exact h.sorted.imp fun {a b} hlt => hlt.ne
    · cases hcoverage.symm.trans hspan
      exact hgapless c hc a ha b hb hlo hhi

/-- A stored file is the window it covers. -/
theorem Stored.holds (h : Stored history rows)
    (hcoverage : readCoverage (some rows) = some (first, last)) :
    Window.Holds Candle.timestamp (· ∈ history.bars) first last rows ∧
      (∃ a ∈ rows, a.timestamp = first) ∧ (∃ b ∈ rows, b.timestamp = last) ∧ first ≤ last := by
  obtain ⟨a, ha, b, hb, hspan, hleast, hgreatest⟩ := h.1.coverage
  cases hspan.symm.trans hcoverage
  exact ⟨h.2.holds h.1.bars ha hb hleast hgreatest, ⟨a, ha, rfl⟩, ⟨b, hb, rfl⟩, hleast b hb⟩

/-! ## Fetches and merges -/

theorem fetchOhlcvDf_spec
    (hserves : ∀ e, exchange = some e → e.Serves key.symbol key.timeframe history)
    (h : fetchOhlcvDf key exchange start stop = .ok new) : Listed history new ∧
      Window.Holds Candle.timestamp (· ∈ history.bars) start stop new := by
  cases exchange with
  | none => cases h
  | some e =>
    obtain ⟨hne, hsorted, hholds⟩ :=
      LiveProvider.fetchOhlcvRange_spec (hserves e rfl) (by norm_num) h
    exact ⟨⟨hne, hsorted, fun c hc => hholds.isRow hc⟩, hholds⟩

theorem tryFetchGap_spec
    (hserves : ∀ e, exchange = some e → e.Serves key.symbol key.timeframe history)
    (h : tryFetchGap key exchange start stop = .ok (some new)) : Listed history new ∧
      Window.Holds Candle.timestamp (· ∈ history.bars) start stop new := by
  rw [tryFetchGap] at h
  split at h
  · cases h
  cases hfetch : fetchOhlcvDf key exchange start stop with
  | ok df =>
    rw [hfetch] at h
    cases h
    exact fetchOhlcvDf_spec hserves hfetch
  | error e =>
    rw [hfetch] at h
    cases e with
    | dataProviderError text =>
      simp only at h
      split at h <;> cases h
    | _ => cases h

theorem mem_mergeOhlcv (hrows : ∀ c ∈ rows, c ∈ history.bars) (hnew : ∀ c ∈ new, c ∈ history.bars)
    (c : Candle) : c ∈ mergeOhlcv rows new ↔ c ∈ rows ∨ c ∈ new := by
  have hcombined : (if rows.isEmpty then new else if new.isEmpty then rows else rows ++ new) =
      rows ++ new := by
    cases rows with
    | nil => rfl
    | cons a rows =>
      cases new with
      | nil => exact (List.append_nil _).symm
      | cons b new => rfl
  have hall : ∀ c ∈ rows ++ new, c ∈ history.bars := by
    intro c hc
    exact (List.mem_append.mp hc).elim (hrows c) (hnew c)
  rw [mergeOhlcv, hcombined, Window.mem_sortByKey, Window.mem_keepLast history.unique_bars hall,
    List.mem_append]

theorem Listed.merge (h : Listed history rows) (hnew : Listed history new) :
    Listed history (mergeOhlcv rows new) := by
  have hmem := mem_mergeOhlcv h.bars hnew.bars
  refine ⟨?_, Window.pairwise_sortByKey Window.nodup_keepLast, fun c hc => ?_⟩
  · obtain ⟨c, hc⟩ := List.exists_mem_of_ne_nil _ h.ne
    exact List.ne_nil_of_mem ((hmem c).mpr (.inl hc))
  · exact ((hmem c).mp hc).elim (h.bars c) (hnew.bars c)

/-- Rows that reach from `first` to `last` at least are still a window with a frame that touches
them. -/
structure Reaches (history : History) (first last : ℤ) (rows : Frame) : Prop where
  listed : Listed history rows
  window : ∃ lo hi, Window.Holds Candle.timestamp (· ∈ history.bars) lo hi rows ∧
    lo ≤ first ∧ last ≤ hi

/-- A frame of bars that touches the span from `first` to `last`. -/
structure Touches (history : History) (first last : ℤ) (frame : Frame) : Prop where
  listed : Listed history frame
  window : ∃ lo hi, Window.Holds Candle.timestamp (· ∈ history.bars) lo hi frame ∧
    lo ≤ last ∧ first ≤ hi

theorem Reaches.merge (h : Reaches history first last rows)
    (hnew : Touches history first last new) :
    Reaches history first last (mergeOhlcv rows new) := by
  obtain ⟨lo, hi, hholds, hlo, hhi⟩ := h.window
  obtain ⟨lo', hi', hholds', hlo', hhi'⟩ := hnew.window
  have hunion := hholds.union hholds' (mem_mergeOhlcv h.listed.bars hnew.listed.bars)
    (hlo'.trans hhi) (hlo.trans hhi')
  exact ⟨h.listed.merge hnew.listed, _, _, hunion, (min_le_left _ _).trans hlo,
    hhi.trans (le_max_left _ _)⟩

theorem Reaches.foldl_merge {frames : List Frame} (h : Reaches history first last rows)
    (hframes : ∀ frame ∈ frames, Touches history first last frame) :
    Reaches history first last (frames.foldl mergeOhlcv rows) := by
  induction frames generalizing rows with
  | nil => exact h
  | cons frame frames ih =>
    exact ih (h.merge (hframes frame List.mem_cons_self)) fun frame' hmem =>
      hframes frame' (List.mem_cons_of_mem _ hmem)

theorem Reaches.stored (h : Reaches history first last rows) : Stored history rows := by
  obtain ⟨lo, hi, hholds, -⟩ := h.window
  exact ⟨h.listed, hholds.gapless⟩

theorem leftGap_touches (hserved : Served history key call) (hle : first ≤ last)
    (h : leftGap key call first = .ok (some new)) : Touches history first last new := by
  rw [leftGap] at h
  split at h
  · next hlt =>
    obtain ⟨hlisted, hholds⟩ := tryFetchGap_spec (hserved 0) h
    exact ⟨hlisted, _, _, hholds, hlt.le.trans hle, le_rfl⟩
  · cases h

theorem rightGap_touches (hserved : Served history key call) (hle : first ≤ last)
    (h : rightGap key call last = .ok (some new)) : Touches history first last new := by
  rw [rightGap] at h
  split at h
  · next hlt =>
    obtain ⟨hlisted, hholds⟩ := tryFetchGap_spec (hserved 1) h
    exact ⟨hlisted, _, _, hholds, le_rfl, hle.trans hlt.le⟩
  · cases h

/-- What the file lacks is fetched from its end on. -/
theorem fetchGaps_spec (hserved : Served history key call) (h : Reaches history first last rows)
    (hle : first ≤ last) (hfetched : fetchGaps key call rows first last = .ok (some new)) :
    Stored history new := by
  rw [fetchGaps] at hfetched
  obtain ⟨left, hleft, hfetched⟩ := Except.bind_eq_ok.mp hfetched
  obtain ⟨right, hright, hfetched⟩ := Except.bind_eq_ok.mp hfetched
  have hframes : ∀ frame ∈ [left, right].reduceOption.filter fun df => !df.isEmpty,
      Touches history first last frame := by
    intro frame hframe
    have hgap := List.reduceOption_mem_iff.mp (List.mem_of_mem_filter hframe)
    simp only [List.mem_cons, List.not_mem_nil, or_false] at hgap
    rcases hgap with rfl | rfl
    · exact leftGap_touches hserved hle hleft
    · exact rightGap_touches hserved hle hright
  have hreturned := Except.ok.inj hfetched
  split at hreturned
  · cases hreturned
  · cases hreturned
    exact (h.foldl_merge hframes).stored

/-! ## The calls -/

/-- A call that writes nothing leaves the file, and one that writes leaves the rows it writes. -/
theorem step_eq (key : CacheKey) (file : Option Frame) (call : DownloadCall) :
    (step key file call = file ∧ ∀ df, refresh key file call ≠ .ok (some df)) ∨
      ∃ df, refresh key file call = .ok (some df) ∧ step key file call = some df := by
  rw [step, downloadCsv]
  cases hrefresh : refresh key file call with
  | ok result =>
    cases result with
    | none => exact .inl ⟨rfl, nofun⟩
    | some df => exact .inr ⟨df, rfl, rfl⟩
  | error e =>
    refine .inl ⟨?_, nofun⟩
    cases e <;> rfl

/-- Rows that are written are bars of the exchange, with none missing exactly where the call is
bridged. -/
theorem refresh_spec (hserved : Served history key call)
    (hfile : ∀ rows ∈ file, Stored history rows)
    (hrefresh : refresh key file call = .ok (some new)) : Listed history new ∧
      (Window.Gapless Candle.timestamp (· ∈ history.bars) new ↔ Bridged history key file call) := by
  cases hcoverage : readCoverage file with
  | none =>
    simp only [refresh, hcoverage] at hrefresh
    obtain ⟨df, hfetch, hsome⟩ := Except.map_eq_ok.mp hrefresh
    cases hsome
    obtain ⟨hlisted, hholds⟩ := fetchOhlcvDf_spec (hserved 0) hfetch
    refine ⟨hlisted, iff_of_true hholds.gapless fun _ first last hspan => ?_⟩
    cases hcoverage.symm.trans hspan
  | some span =>
    obtain ⟨first, last⟩ := span
    cases file with
    | none => cases hcoverage
    | some rows =>
    have hstored := hfile rows rfl
    obtain ⟨hholds, hfirst, hlast, hle⟩ := hstored.holds hcoverage
    simp only [refresh, hcoverage, Option.getD_some] at hrefresh
    cases hforce : call.force with
    | true =>
      simp only [hforce, if_true] at hrefresh
      obtain ⟨df, hfetch, hsome⟩ := Except.map_eq_ok.mp hrefresh
      cases hsome
      obtain ⟨hlisted, hholds'⟩ := fetchOhlcvDf_spec (hserved 0) hfetch
      refine ⟨hstored.1.merge hlisted, ?_⟩
      rw [Window.gapless_union_iff hholds hholds' (mem_mergeOhlcv hstored.1.bars hlisted.bars)
        hfirst hlast hlisted.ne]
      constructor
      · intro hnone _ first' last' hspan _
        cases hcoverage.symm.trans hspan
        exact hnone
      · exact fun hbridged => hbridged hforce first last hcoverage ⟨df, hfetch⟩
    | false =>
      have hbridged : Bridged history key (some rows) call := fun h =>
        absurd (hforce.symm.trans h) Bool.false_ne_true
      simp only [hforce, Bool.false_eq_true, if_false] at hrefresh
      split at hrefresh
      · cases hrefresh
      · have hreaches : Reaches history first last rows :=
          ⟨hstored.1, first, last, hholds, le_rfl, le_rfl⟩
        have hnew := fetchGaps_spec hserved hreaches hle hrefresh
        exact ⟨hnew.1, iff_of_true hnew.2 hbridged⟩

/-- A covered range is in the file, and the call leaves the file alone. -/
theorem holds_of_hit (hfile : ∀ rows ∈ file, Stored history rows) (hhit : CoverageHit file call) :
    ∃ rows, step key file call = some rows ∧
      ∀ c ∈ history.bars, call.start ≤ c.timestamp → c.timestamp ≤ call.stop → c ∈ rows := by
  obtain ⟨hforce, first, last, hcoverage, hfirst, hlast⟩ := hhit
  cases file with
  | none => cases hcoverage
  | some rows =>
    have hsame : step key (some rows) call = some rows := by
      simp only [step, downloadCsv, refresh, hcoverage, hforce, Bool.false_eq_true, if_false,
        if_pos (And.intro hfirst hlast)]
      rfl
    obtain ⟨hholds, -⟩ := (hfile rows rfl).holds hcoverage
    exact ⟨rows, hsame, fun c hc hlo hhi =>
      (hholds c).mpr ⟨hc, hfirst.trans hlo, hhi.trans hlast⟩⟩

/-- A call that writes nothing is bridged. -/
theorem bridged_of_unwritten (h : ∀ df, refresh key file call ≠ .ok (some df)) :
    Bridged history key file call := by
  rintro hforce first last hcoverage ⟨df, hfetch⟩
  refine absurd ?_ (h (mergeOhlcv (file.getD []) df))
  simp only [refresh, hcoverage, hforce, if_true, hfetch]
  rfl

/-- A call is faithful to a stored file exactly when it is bridged, and leaves it stored then. -/
theorem step_spec (hserved : Served history key call)
    (hfile : ∀ rows ∈ file, Stored history rows) :
    (Faithful history key file call ↔ Bridged history key file call) ∧
      (Bridged history key file call → ∀ rows ∈ step key file call, Stored history rows) := by
  rcases step_eq key file call with ⟨hsame, hnothing⟩ | ⟨df, hrefresh, hwritten⟩
  · rw [Faithful, hsame]
    refine ⟨iff_of_true ⟨fun rows hrows => ?_, fun hhit => ?_⟩ (bridged_of_unwritten hnothing),
      fun _ => hfile⟩
    · exact (hfile rows hrows).1.continuous_iff.mpr (hfile rows hrows).2
    · exact hsame ▸ holds_of_hit hfile hhit
  · obtain ⟨hlisted, hgapless⟩ := refresh_spec hserved hfile hrefresh
    refine ⟨⟨fun hfaithful => ?_, fun hbridged => ⟨fun rows hrows => ?_, holds_of_hit hfile⟩⟩,
      fun hbridged rows hrows => ?_⟩
    · exact hgapless.mp (hlisted.continuous_iff.mp (hfaithful.1 df hwritten))
    · cases hwritten.symm.trans hrows
      exact hlisted.continuous_iff.mpr (hgapless.mpr hbridged)
    · cases hwritten.symm.trans hrows
      exact ⟨hlisted, hgapless.mpr hbridged⟩

/-- Along the calls on a cache file, the file stays continuous and a covered range is all there,
exactly when every forced call that gets bars leaves none out between its range and the file. -/
theorem along_faithful_iff {calls : List DownloadCall}
    (hserved : ∀ call ∈ calls, Served history key call) :
    Run.Along (step key) (Faithful history key) none calls ↔
      Run.Along (step key) (Bridged history key) none calls :=
  Run.along_iff (I := fun file => ∀ rows ∈ file, Stored history rows)
    (D := fun _ call => Served history key call)
    (fun _ _ hfile hserved => (step_spec hserved hfile).2)
    (fun _ _ hfile hserved => (step_spec hserved hfile).1) nofun
    (Run.along_of_forall fun call hcall _ => hserved call hcall)

def hourRows : List OhlcvRow := [0, 3600000, 7200000].map fun ms => ⟨ms, ⟨1, 2, 1, 1, 10⟩⟩

theorem hour_pos : (0 : ℤ) < 3600 := by norm_num

theorem spaced_hourRows : hourRows.Pairwise fun a b => a.ms + 3600 * 1000 ≤ b.ms := by decide

/-- Three bars of an hour. -/
def threeHours : History where
  barSeconds := 3600
  rows := hourRows
  positive := hour_pos
  spaced := spaced_hourRows

/-- A call on an exchange that always answers. -/
def hourlyCall (start stop : ℤ) (force : Bool) : DownloadCall :=
  { start, stop, force, fetches := fun _ => some threeHours.exchange }

def hourlyFile : CacheKey := ⟨"binance", "BTC/USDT", "1h"⟩

/-- The first hour, and then the third by force. -/
def disjointRanges : List DownloadCall :=
  [hourlyCall 0 0 false, hourlyCall 7200000000 7200000000 true]

theorem served_hourlyCall (start stop : ℤ) (force : Bool) :
    Served threeHours hourlyFile (hourlyCall start stop force) := by
  rintro n _ hexchange
  cases hexchange
  exact threeHours.exchange_serves _ _

theorem along_faithful_iff_disjointRanges :
    Run.Along (step hourlyFile) (Faithful threeHours hourlyFile) none disjointRanges ↔
      Run.Along (step hourlyFile) (Bridged threeHours hourlyFile) none disjointRanges := by
  refine along_faithful_iff fun call hcall => ?_
  simp only [disjointRanges, List.mem_cons, List.not_mem_nil, or_false] at hcall
  rcases hcall with rfl | rfl <;> exact served_hourlyCall _ _ _

theorem fetch_hourlyCall {c : Candle} (hc : c ∈ threeHours.bars) (force : Bool) :
    ∃ df, fetchOhlcvDf hourlyFile ((hourlyCall c.timestamp c.timestamp force).fetches 0)
      c.timestamp c.timestamp = .ok df :=
  LiveProvider.fetchOhlcvRange_returns (threeHours.exchange_serves _ _)
    (threeHours.exchange_answers _ _) (by norm_num) hc ⟨le_rfl, le_rfl⟩

/-- The second hour is missing from the file. -/
theorem not_faithful_disjointRanges :
    ¬ Run.Along (step hourlyFile) (Faithful threeHours hourlyFile) none disjointRanges := by
  rintro ⟨-, hfaithful, -⟩
  have hbars : ∀ hour ∈ [0, 3600000, 7200000], (OhlcvRow.mk hour ⟨1, 2, 1, 1, 10⟩).toCandle ∈
      threeHours.bars := by decide
  obtain ⟨df, hfetch⟩ := fetch_hourlyCall (hbars 0 (by decide)) false
  have hrefresh : refresh hourlyFile none (hourlyCall 0 0 false) = .ok (some df) :=
    congrArg (Except.map some) hfetch
  have hwritten : step hourlyFile none (hourlyCall 0 0 false) = some df := by
    rw [step, downloadCsv, hrefresh]
  obtain ⟨hlisted, hholds⟩ := fetchOhlcvDf_spec (served_hourlyCall 0 0 false 0) hfetch
  have hstored : ∀ rows ∈ step hourlyFile none (hourlyCall 0 0 false), Stored threeHours rows := by
    intro rows hrows
    cases hwritten.symm.trans hrows
    exact ⟨hlisted, hholds.gapless⟩
  have hbridged := (step_spec (served_hourlyCall _ _ _) hstored).1.mp hfaithful
  obtain ⟨a, -, b, hb, hcoverage, -⟩ := hlisted.coverage
  have hnone := hbridged rfl _ _ (hwritten ▸ hcoverage)
    (fetch_hourlyCall (hbars 7200000 (by decide)) true) _ (hbars 3600000 (by decide))
  exact hnone.1 ⟨((hholds b).mp hb).2.2.trans_lt (by decide), by decide⟩

end MarketCache

end TradingPlatform
