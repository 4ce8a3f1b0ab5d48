import TradingPlatform.Contracts

/-!
# The live provider

`LiveProvider.get_latest` asks the exchange for one bar more than wanted, drops the last bar while
it is still forming and cuts the frame at the end time. The exchange object of `ccxt` is a
parameter: it answers the attempts of a call one by one, and every attempt may fail. The pauses
between attempts are left out.
-/

namespace TradingPlatform

/-- A row of `fetch_ohlcv`; the open time is in milliseconds. -/
structure OhlcvRow where
  ms : ℤ
  bar : Bar
  deriving DecidableEq, Repr

/-- The row of the frame; times are in microseconds. -/
def OhlcvRow.toCandle (row : OhlcvRow) : Candle := ⟨row.ms * 1000, row.bar⟩

/-- The exchange as it behaves during a call: `fetch_ohlcv symbol timeframe limit` at each attempt,
and `parse_timeframe`, in seconds. The errors carry the text of the exception. -/
structure Exchange where
  fetchOhlcv : String → String → ℕ → ℕ → Except String (List OhlcvRow)
  parseTimeframe : String → Except String ℤ

namespace LiveProvider

/-- `_to_dataframe` -/
def toDataframe (ohlcv : List OhlcvRow) : Except PyError Frame :=
  if ohlcv.isEmpty then throw (.dataProviderError "Exchange returned empty OHLCV")
  else return (ohlcv.map OhlcvRow.toCandle).mergeSort fun a b => a.timestamp ≤ b.timestamp

/-- `_drop_forming_candle`; `now` is the wall-clock time. -/
def dropFormingCandle (exchange : Exchange) (now : ℤ) (df : Frame) (timeframe : String) :
    Except String Frame :=
  match df.getLast? with
  | none => return df
  | some last => do
    let timeframeSeconds ← exchange.parseTimeframe timeframe
    let closeTime := last.timestamp + seconds timeframeSeconds
    return if now < closeTime then df.dropLast else df

/-- The rows on or before the end time, `limit` at most. -/
def cutFrame (df : Frame) (limit : ℕ) : Option ℤ → Except PyError Frame
  | none => return df.rtake limit
  | some endTime =>
    let df := df.filter (·.timestamp ≤ endTime)
    if df.isEmpty then throw (.dataProviderError "No OHLCV rows on or before end time")
    else return df.rtake limit

/-- One attempt of `get_latest`. The outer error is one that is tried again. -/
def attempt (exchange : Exchange) (now : ℤ) (symbol timeframe : String) (limit : ℕ)
    (endTime : Option ℤ) (n : ℕ) : Except String (Except PyError Frame) := do
  let ohlcv ← exchange.fetchOhlcv symbol timeframe (limit + 1) n
  match toDataframe ohlcv with
  | .error e => return .error e
  | .ok df =>
    let df ← dropFormingCandle exchange now df timeframe
    return cutFrame df limit endTime

/-- The loop of `get_latest` over the attempts still to be made. -/
def attempts (exchange : Exchange) (now : ℤ) (symbol timeframe : String) (limit : ℕ)
    (endTime : Option ℤ) (lastError : String) : List ℕ → Except PyError Frame
  | [] => throw (.dataProviderError ("Failed to fetch OHLCV for " ++ symbol ++ ": " ++ lastError))
  | n :: rest =>
    match attempt exchange now symbol timeframe limit endTime n with
    | .error e => attempts exchange now symbol timeframe limit endTime e rest
    | .ok outcome => outcome

/-- `get_latest` -/
def getLatest (exchange : Exchange) (now : ℤ) (symbol timeframe : String) (limit : ℕ := 200)
    (endTime : Option ℤ := none) : Except PyError Frame :=
  attempts exchange now symbol timeframe limit endTime "None" (List.range 3)

/-! ## What a served call returns -/

/-- The bar has closed by `now`. -/
def Closed (barSeconds now : ℤ) (c : Candle) : Prop := c.timestamp + seconds barSeconds ≤ now

instance (barSeconds now : ℤ) (c : Candle) : Decidable (Closed barSeconds now c) :=
  inferInstanceAs (Decidable (_ ≤ _))

/-- The bars of a symbol and timeframe, oldest first: a bar opens before the later ones, and has
closed by `now` if there is a later one. -/
def Chronological (barSeconds now : ℤ) (opened : List OhlcvRow) : Prop :=
  opened.Pairwise fun a b =>
    a.toCandle.timestamp < b.toCandle.timestamp ∧ Closed barSeconds now a.toCandle

/-- The bars that have closed, of those that have opened. -/
def closedBars (barSeconds now : ℤ) (opened : List OhlcvRow) : Frame :=
  (opened.map OhlcvRow.toCandle).filter (Closed barSeconds now ·)

/-- The bars of a symbol and timeframe that have opened by `now`, oldest first, do not overlap. -/
structure Series (barSeconds now : ℤ) (opened : List OhlcvRow) : Prop where
  positive : 0 < barSeconds
  spaced : opened.Pairwise fun a b =>
    a.toCandle.timestamp + seconds barSeconds ≤ b.toCandle.timestamp
  begun : ∀ row ∈ opened, row.toCandle.timestamp ≤ now

/-- The exchange serves the latest of the opened bars at some attempt, after failures at most. -/
structure Serves (exchange : Exchange) (symbol timeframe : String) (barSeconds : ℤ)
    (opened : List OhlcvRow) : Prop where
  parses : exchange.parseTimeframe timeframe = .ok barSeconds
  fetches : ∃ n < 3,
    (∀ k < n, ∃ e, ∀ limit, exchange.fetchOhlcv symbol timeframe limit k = .error e) ∧
    ∀ limit, exchange.fetchOhlcv symbol timeframe limit n = .ok (opened.rtake limit)

variable {exchange : Exchange} {symbol timeframe : String} {barSeconds now : ℤ}
  {opened : List OhlcvRow} {limit : ℕ} {endTime : Option ℤ}

theorem attempts_of_first {lastError : String} {n : ℕ} {outcome : Except PyError Frame}
    {ks : List ℕ}
    (hbefore : ∀ k < n, ∃ e, attempt exchange now symbol timeframe limit endTime k = .error e)
    (hn : attempt exchange now symbol timeframe limit endTime n = .ok outcome)
    (hmem : n ∈ ks) (hsorted : ks.Pairwise (· < ·)) :
    attempts exchange now symbol timeframe limit endTime lastError ks = outcome := by
  induction ks generalizing lastError with
  | nil => cases hmem
  | cons k ks ih =>
    rcases List.mem_cons.mp hmem with rfl | hmem
    · simp only [attempts, hn]
    · obtain ⟨hlt, hsorted⟩ := List.pairwise_cons.mp hsorted
      obtain ⟨e, he⟩ := hbefore k (hlt n hmem)
      simp only [attempts, he]
      exact ih hmem hsorted

theorem seconds_pos {n : ℤ} (h : 0 < n) : 0 < seconds n := by
  unfold seconds
  omega

theorem Series.chronological (h : Series barSeconds now opened) :
    Chronological barSeconds now opened := by
  refine h.spaced.imp_of_mem fun {a b} _ hb hab => ⟨?_, hab.trans (h.begun b hb)⟩
  have hpos := seconds_pos h.positive
  omega

theorem Chronological.rtake (h : Chronological barSeconds now opened) (n : ℕ) :
    Chronological barSeconds now (opened.rtake n) := h.sublist (List.drop_sublist _ _)

theorem toDataframe_chronological (h : Chronological barSeconds now opened) (hne : opened ≠ []) :
    toDataframe opened = .ok (opened.map OhlcvRow.toCandle) := by
  have hsorted : (opened.map OhlcvRow.toCandle).Pairwise fun a b =>
      (decide (a.timestamp ≤ b.timestamp)) = true :=
    List.pairwise_map.mpr (h.imp fun hab => decide_eq_true hab.1.le)
  unfold toDataframe
  rw [if_neg (by simpa using hne), List.mergeSort_of_pairwise hsorted]
  rfl

theorem Chronological.closed {init : List OhlcvRow} {last : OhlcvRow}
    (h : Chronological barSeconds now (init ++ [last])) :
    ∀ c ∈ init.map OhlcvRow.toCandle, Closed barSeconds now c := by
  intro c hc
  obtain ⟨row, hrow, rfl⟩ := List.mem_map.mp hc
  exact ((List.pairwise_append.mp h).2.2 row hrow last (List.mem_singleton_self _)).2

/-- Only the last of the opened bars can be forming. -/
theorem closedBars_concat {init : List OhlcvRow} {last : OhlcvRow}
    (h : Chronological barSeconds now (init ++ [last])) :
    closedBars barSeconds now (init ++ [last]) = init.map OhlcvRow.toCandle ++
      [last.toCandle].filter (Closed barSeconds now ·) := by
  unfold closedBars
  rw [List.map_append, List.filter_append, List.filter_eq_self.mpr]
  · rfl
  · exact fun c hc => decide_eq_true (h.closed c hc)

variable (exchange timeframe) in
theorem dropFormingCandle_chronological (h : Chronological barSeconds now opened)
    (hparse : exchange.parseTimeframe timeframe = .ok barSeconds) :
    dropFormingCandle exchange now (opened.map OhlcvRow.toCandle) timeframe =
      .ok (closedBars barSeconds now opened) := by
  rcases List.eq_nil_or_concat' opened with rfl | ⟨init, last, rfl⟩
  · rfl
  · rw [closedBars_concat h]
    have hlast : ((init ++ [last]).map OhlcvRow.toCandle).getLast? = some last.toCandle := by simp
    have hdrop : ((init ++ [last]).map OhlcvRow.toCandle).dropLast =
        init.map OhlcvRow.toCandle := by
      simp
    unfold dropFormingCandle
    rw [hlast]
    simp only [hparse, hdrop]
    change Except.ok _ = Except.ok _
    by_cases hforming : now < last.toCandle.timestamp + seconds barSeconds
    · have hopen : ¬ Closed barSeconds now last.toCandle := not_le.mpr hforming
      simp [hforming, hopen]
    · have hdone : Closed barSeconds now last.toCandle := not_lt.mp hforming
      simp [hforming, hdone]

/-- What `get_latest` returns when the exchange serves the opened bars. -/
theorem getLatest_served (h : Chronological barSeconds now opened)
    (hserves : Serves exchange symbol timeframe barSeconds opened) (endTime : Option ℤ) :
    getLatest exchange now symbol timeframe limit endTime =
      if opened = [] then .error (.dataProviderError "Exchange returned empty OHLCV")
      else cutFrame (closedBars barSeconds now (opened.rtake (limit + 1))) limit endTime := by
  obtain ⟨n, hn, hbefore, hfetch⟩ := hserves.fetches
  refine attempts_of_first (n := n) (fun k hk => ?_) ?_ (List.mem_range.mpr hn) (by decide)
  · obtain ⟨e, he⟩ := hbefore k hk
    exact ⟨e, by simp only [attempt, he]; rfl⟩
  · have htake : opened.rtake (limit + 1) = [] ↔ opened = [] := by
      unfold List.rtake
      rw [List.drop_eq_nil_iff]
      refine ⟨fun hle => List.length_eq_zero_iff.mp (by omega), fun hnil => by simp [hnil]⟩
    by_cases hnil : opened = []
    · have hempty : toDataframe (opened.rtake (limit + 1)) =
          .error (.dataProviderError "Exchange returned empty OHLCV") := by rw [htake.mpr hnil]; rfl
      simp only [attempt, hfetch, if_pos hnil]
      change (match toDataframe (opened.rtake (limit + 1)) with
        | .error e => _
        | .ok df => _) = _
      rw [hempty]
      rfl
    · have hframe := toDataframe_chronological (h.rtake (limit + 1)) (fun h => hnil (htake.mp h))
      have hdrop := dropFormingCandle_chronological exchange timeframe
        (h.rtake (limit + 1)) hserves.parses
      simp only [attempt, hfetch, if_neg hnil]
      change (match toDataframe (opened.rtake (limit + 1)) with
        | .error e => _
        | .ok df => _) = _
      rw [hframe]
      simp only [hdrop]
      rfl

/-- The open time of the newest bar that has closed. -/
def newestClosed (barSeconds now : ℤ) (opened : List OhlcvRow) : Option ℤ :=
  (closedBars barSeconds now opened).getLast?.map (·.timestamp)

theorem getLast?_rtake {α : Type*} (l : List α) (n : ℕ) :
    (l.rtake (n + 1)).getLast? = l.getLast? := by
  rcases List.eq_nil_or_concat' l with rfl | ⟨init, last, rfl⟩
  · simp
  · rw [List.rtake_concat_succ, List.getLast?_concat, List.getLast?_concat]

/-- The last two bars suffice to find the newest that has closed. -/
theorem newestClosed_rtake (h : Chronological barSeconds now opened) (n : ℕ) :
    newestClosed barSeconds now (opened.rtake (n + 2)) = newestClosed barSeconds now opened := by
  rcases List.eq_nil_or_concat' opened with rfl | ⟨init, last, rfl⟩
  · simp
  · have htake := h.rtake (n + 2)
    rw [List.rtake_concat_succ] at htake ⊢
    unfold newestClosed
    rw [closedBars_concat h, closedBars_concat htake, List.getLast?_append, List.getLast?_append,
      List.getLast?_map, List.getLast?_map, getLast?_rtake]

/-- The last row of a frame that is cut at `e` is the last one on or before `e`. -/
theorem getLast?_cutFrame (df : Frame) (n : ℕ) (e : ℤ) :
    (cutFrame df (n + 1) (some e)).toOption.bind (·.getLast?) =
      (df.filter (·.timestamp ≤ e)).getLast? := by
  simp only [cutFrame]
  cases df.filter (·.timestamp ≤ e) with
  | nil => rfl
  | cons row rows => exact getLast?_rtake (row :: rows) n

/-- The row `get_latest` returns last is the newest closed bar exactly when that bar is not cut off
by the end time. -/
theorem getLast?_getLatest_iff (h : Chronological barSeconds now opened)
    (hserves : Serves exchange symbol timeframe barSeconds opened) (n : ℕ) (e : ℤ) :
    ((getLatest exchange now symbol timeframe (n + 1) (some e)).toOption.bind (·.getLast?)).map
        (·.timestamp) = newestClosed barSeconds now opened ↔
      ∀ c ∈ newestClosed barSeconds now opened, c ≤ e := by
  rw [getLatest_served h hserves, ← newestClosed_rtake h n]
  unfold newestClosed
  by_cases hnil : opened = []
  · subst hnil
    simp [closedBars, Except.toOption]
  rw [if_neg hnil]
  generalize closedBars barSeconds now (opened.rtake (n + 1 + 1)) = closed
  rw [getLast?_cutFrame]
  rcases List.eq_nil_or_concat' closed with rfl | ⟨init, last, rfl⟩
  · simp
  · by_cases hle : last.timestamp ≤ e
    · simp [List.filter_append, hle]
    · refine iff_of_false (fun hlast => ?_) (fun h => hle (h _ (by simp)))
      rw [List.getLast?_concat] at hlast
      obtain ⟨row, hrow, htime⟩ := Option.map_eq_some_iff.mp hlast
      have hkept : row.timestamp ≤ e :=
        of_decide_eq_true (List.mem_filter.mp (List.mem_of_getLast? hrow)).2
      exact hle (htime.symm.trans_le hkept)

end LiveProvider

end TradingPlatform
