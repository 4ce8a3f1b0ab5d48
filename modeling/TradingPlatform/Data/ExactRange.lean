import TradingPlatform.Data.OhlcvRange

/-!
# What a fetch of a range returns

On an exchange that has the bars of a history and answers, `fetch_ohlcv_range` is a cut of the
history: it returns exactly the bars in the range, or raises one of two errors, by whether the
exchange has any bar from the start of the range on. It makes one request more than there are bars
in the range at most.
-/

namespace TradingPlatform

/-- The bars of the range, oldest first. -/
def History.inRange (history : History) (start stop : ℤ) : Frame :=
  history.bars.filter fun c => start ≤ c.timestamp ∧ c.timestamp ≤ stop

namespace LiveProvider

/-- The times the loop over the pages asks from. -/
def pageRequests (exchange : PagedExchange) (symbol timeframe : String) (limit : ℕ)
    (timeframeMs endMs since : ℤ) : List ℤ :=
  if since ≤ endMs then
    match fetchPage exchange symbol timeframe since limit "None" (List.range 3) with
    | .error _ => [since]
    | .ok batch =>
      match batch.getLast? with
      | none => [since]
      | some last =>
        if endMs ≤ last.ms then [since]
        else if last.ms + timeframeMs ≤ since then [since]
        else since :: pageRequests exchange symbol timeframe limit timeframeMs endMs
          (last.ms + timeframeMs)
  else []
termination_by (endMs + 1 - since).toNat

/-- The text of an error about a range. -/
def between (symbol timeframe : String) (start stop : ℤ) : String :=
  symbol ++ " " ++ timeframe ++ " between " ++ Calendar.isoformat start ++ " and " ++
    Calendar.isoformat stop

variable {history : History} {exchange : PagedExchange} {symbol timeframe : String} {limit : ℕ}
  {since endMs start stop : ℤ} {batch allRows allRows' : List OhlcvRow} {df : Frame}

theorem mem_inRange {c : Candle} : c ∈ history.inRange start stop ↔
    c ∈ history.bars ∧ start ≤ c.timestamp ∧ c.timestamp ≤ stop := by
  rw [History.inRange, List.mem_filter, decide_eq_true_eq]

/-! ## The requests -/

/-- Every page but the last one ends with a bar of the range, and the next page starts after it. -/
theorem length_pageRequests_le (hserves : exchange.Serves symbol timeframe history)
    (hlimit : 0 < limit) :
    (pageRequests exchange symbol timeframe limit (history.barSeconds * 1000) endMs since).length ≤
      (history.rows.filter fun row => since ≤ row.ms ∧ row.ms < endMs).length + 1 := by
  have hpos := history.positive
  fun_induction pageRequests exchange symbol timeframe limit (history.barSeconds * 1000) endMs
    since with
  | case5 since hle batch hpage last hlast hend hnext ih =>
    obtain ⟨n, hn⟩ := fetchPage_ok hpage
    have hmem := (hserves.page _ _ _ _ hlimit hn).1.subset (List.mem_of_getLast? hlast)
    obtain ⟨hrow, hsince⟩ := List.mem_filter.mp hmem
    have hsince : since ≤ last.ms := of_decide_eq_true hsince
    have hfewer : (history.rows.filter fun row =>
        last.ms + history.barSeconds * 1000 ≤ row.ms ∧ row.ms < endMs).length <
        (history.rows.filter fun row => since ≤ row.ms ∧ row.ms < endMs).length := by
      have hlater : (history.rows.filter fun row =>
          last.ms + history.barSeconds * 1000 ≤ row.ms ∧ row.ms < endMs) =
          (history.rows.filter fun row => since ≤ row.ms ∧ row.ms < endMs).filter fun row =>
            decide (last.ms + history.barSeconds * 1000 ≤ row.ms) := by
        rw [List.filter_filter]
        refine List.filter_congr fun row _ => ?_
        rw [Bool.eq_iff_iff, Bool.and_eq_true, decide_eq_true_eq, decide_eq_true_eq,
          decide_eq_true_eq]
        omega
      rw [hlater, List.length_filter_lt_length_iff_exists]
      refine ⟨last, List.mem_filter.mpr ⟨hrow, decide_eq_true ⟨hsince, not_le.mp hend⟩⟩, ?_⟩
      rw [decide_eq_true_eq]
      omega
    rw [List.length_cons]
    omega
  | case6 => exact Nat.zero_le _
  | _ => exact Nat.succ_le_succ (Nat.zero_le _)

/-! ## The result -/

theorem prefix_fetchPages {timeframeMs : ℤ}
    (h : fetchPages exchange symbol timeframe limit timeframeMs endMs since allRows =
      .ok allRows') : allRows <+: allRows' := by
  fun_induction fetchPages exchange symbol timeframe limit timeframeMs endMs since allRows with
  | case1 => cases h
  | case5 since allRows hle batch hpage last hlast hend hnext ih =>
    exact (List.prefix_append _ _).trans (ih h)
  | case2 | case6 =>
    cases h
    exact List.prefix_rfl
  | case3 | case4 =>
    cases h
    exact List.prefix_append _ _

/-- The pages are empty only if the exchange has no bar from the start on. -/
theorem fetchPages_eq_nil_iff (hserves : exchange.Serves symbol timeframe history)
    (hlimit : 0 < limit) {timeframeMs : ℤ} (hle : since ≤ endMs)
    (h : fetchPages exchange symbol timeframe limit timeframeMs endMs since [] = .ok allRows) :
    allRows = [] ↔ history.rows.filter (since ≤ ·.ms) = [] := by
  have hstart := h
  rw [fetchPages, if_pos hle] at h
  cases hpage : fetchPage exchange symbol timeframe since limit "None" (List.range 3) with
  | error e =>
    rw [hpage] at h
    cases h
  | ok batch =>
    obtain ⟨n, hn⟩ := fetchPage_ok hpage
    obtain ⟨hfrom, hempty⟩ := hserves.page _ _ _ _ hlimit hn
    cases hlast : batch.getLast? with
    | none =>
      simp only [hpage, hlast] at h
      cases h
      exact iff_of_true rfl (hempty (List.getLast?_eq_none_iff.mp hlast))
    | some last =>
      have hmem := List.mem_of_getLast? hlast
      have hbatch : batch <+: allRows := by
        simp only [hpage, hlast, List.nil_append] at h
        split at h
        · cases h
          exact List.prefix_rfl
        split at h
        · cases h
          exact List.prefix_rfl
        · exact prefix_fetchPages h
      exact iff_of_false (List.ne_nil_of_mem (hbatch.subset hmem))
        (List.ne_nil_of_mem (hfrom.subset hmem))

/-- Rows in the order of their times are determined by which they are. -/
theorem eq_of_mem_iff {df df' : Frame} (h : df.Pairwise fun a b => a.timestamp < b.timestamp)
    (h' : df'.Pairwise fun a b => a.timestamp < b.timestamp) (hmem : ∀ c, c ∈ df ↔ c ∈ df') :
    df = df' := by
  have hnodup : ∀ {l : Frame}, l.Pairwise (fun a b => a.timestamp < b.timestamp) → l.Nodup := by
    intro l h
    rw [List.Nodup]
    exact h.imp fun {a b} hlt => ne_of_apply_ne Candle.timestamp hlt.ne
  have hperm : df.Perm df' := (List.perm_ext_iff_of_nodup (hnodup h) (hnodup h')).mpr hmem
  exact hperm.eq_of_pairwise (fun a b _ _ hab hba => absurd hab hba.not_gt) h h'

theorem pairwise_inRange : (history.inRange start stop).Pairwise
    fun a b => a.timestamp < b.timestamp := by
  refine List.Pairwise.filter _ (List.pairwise_map.mpr (history.spaced.imp fun {a b} hab => ?_))
  have hpos := history.positive
  simp only [OhlcvRow.toCandle]
  omega

/-- What is cut from rows without one of the range. -/
theorem cutRange_error (hrows : ∀ row ∈ allRows, row ∈ history.rows)
    (hnone : history.inRange start stop = []) :
    cutRange symbol timeframe start stop allRows =
      if allRows = [] then
        .error (.dataProviderError ("No OHLCV data returned for " ++
          between symbol timeframe start stop))
      else .error (.dataProviderError ("No OHLCV bars in range for " ++
        between symbol timeframe start stop)) := by
  cases hcut : cutRange symbol timeframe start stop allRows with
  | ok df =>
    obtain ⟨hne, -, hmem⟩ := cutRange_spec hrows hcut
    obtain ⟨c, hc⟩ := List.exists_mem_of_ne_nil _ hne
    obtain ⟨⟨row, hrow, rfl⟩, hrange⟩ := (hmem c).mp hc
    refine absurd (mem_inRange.mpr ⟨List.mem_map_of_mem (hrows row hrow), hrange⟩) ?_
    rw [hnone]
    exact List.not_mem_nil
  | error e =>
    rw [← hcut]
    simp only [cutRange, List.isEmpty_iff] at hcut ⊢
    split
    · rfl
    · next hne =>
      simp only [toDataframe, List.isEmpty_iff, hne, if_false] at hcut ⊢
      change (if _ then _ else _) = _ at hcut
      change (if _ then _ else _) = _
      split
      · rfl
      · next hsome =>
        rw [if_neg hsome] at hcut
        cases hcut

theorem fetchOhlcvRange_eq (hserves : exchange.Serves symbol timeframe history)
    (hanswers : exchange.Answers symbol timeframe) (hlimit : 0 < limit) (hle : start ≤ stop) :
    fetchOhlcvRange exchange symbol timeframe start stop limit =
      if history.inRange start stop ≠ [] then .ok (history.inRange start stop)
      else if history.rows.filter (wholeMs start ≤ ·.ms) = [] then
        .error (.dataProviderError ("No OHLCV data returned for " ++
          between symbol timeframe start stop))
      else .error (.dataProviderError ("No OHLCV bars in range for " ++
        between symbol timeframe start stop)) := by
  by_cases hsome : history.inRange start stop ≠ []
  · rw [if_pos hsome]
    obtain ⟨c, hc⟩ := List.exists_mem_of_ne_nil _ hsome
    obtain ⟨hbar, hrange⟩ := mem_inRange.mp hc
    obtain ⟨df, hdf⟩ : ∃ df, fetchOhlcvRange exchange symbol timeframe start stop limit = .ok df :=
      fetchOhlcvRange_returns hserves hanswers hlimit hbar hrange
    obtain ⟨-, hsorted, hholds⟩ := fetchOhlcvRange_spec hserves hlimit hdf
    rw [hdf, eq_of_mem_iff hsorted pairwise_inRange fun c => (hholds c).trans mem_inRange.symm]
  · rw [if_neg hsome]
    obtain ⟨s, hparse⟩ := hanswers.parses
    obtain ⟨allRows, hpages⟩ : ∃ rows, fetchPages exchange symbol timeframe limit (s * 1000)
      (wholeMs stop) (wholeMs start) [] = .ok rows := fetchPages_returns hanswers
    have hms : wholeMs start ≤ wholeMs stop := Int.tdiv_le_tdiv (by norm_num) hle
    simp only [← fetchPages_eq_nil_iff hserves hlimit hms hpages]
    obtain rfl := hserves.parses s hparse
    have hstart : Fetched history (wholeMs start) (wholeMs start) [] :=
      ⟨by simp, fun row _ hle hlt => absurd hlt (not_lt.mpr hle)⟩
    have hfetched := fetchPages_spec hserves hlimit hstart hpages
    rw [← cutRange_error hfetched.bars (not_not.mp hsome), fetchOhlcvRange,
      if_neg (not_lt.mpr hle), hparse]
    simp only [Except.mapError, hpages, bind, Except.bind]

/-- A fetch ends after one request more than there are bars in the range at most. It returns the
bars of the exchange in the range, in the order of their times, and raises where there are none. -/
theorem fetchOhlcvRange_exact (hserves : exchange.Serves symbol timeframe history)
    (hanswers : exchange.Answers symbol timeframe) (hlimit : 1 ≤ limit) (hle : start ≤ stop) :
    (pageRequests exchange symbol timeframe limit (history.barSeconds * 1000) (wholeMs stop)
      (wholeMs start)).length ≤
        (history.rows.filter fun row => wholeMs start ≤ row.ms ∧ row.ms < wholeMs stop).length + 1 ∧
    (history.inRange start stop).Pairwise (fun a b => a.timestamp < b.timestamp) ∧
    (history.inRange start stop ≠ [] →
      fetchOhlcvRange exchange symbol timeframe start stop limit =
        .ok (history.inRange start stop)) ∧
    (history.inRange start stop = [] →
      ∃ text, fetchOhlcvRange exchange symbol timeframe start stop limit =
        .error (.dataProviderError text)) := by
  refine ⟨length_pageRequests_le hserves hlimit, pairwise_inRange, fun hsome => ?_, fun hnone => ?_⟩
  · rw [fetchOhlcvRange_eq hserves hanswers hlimit hle, if_pos hsome]
  · rw [fetchOhlcvRange_eq hserves hanswers hlimit hle, if_neg (not_not.mpr hnone)]
    split
    · exact ⟨_, rfl⟩
    · exact ⟨_, rfl⟩

def rowsWithGap : List OhlcvRow := [0, 3600000, 18000000].map fun ms => ⟨ms, ⟨1, 2, 1, 1, 10⟩⟩

theorem barSeconds_pos : (0 : ℤ) < 3600 := by norm_num

theorem spaced_rowsWithGap :
    rowsWithGap.Pairwise fun a b => a.ms + 3600 * 1000 ≤ b.ms := by decide

/-- Bars of an hour, of which three are missing. -/
def historyWithGap : History where
  barSeconds := 3600
  rows := rowsWithGap
  positive := barSeconds_pos
  spaced := spaced_rowsWithGap

/-- The second and the third bar, in pages of one row. -/
theorem fetchOhlcvRange_exact_gap :
    fetchOhlcvRange historyWithGap.exchange "BTC/USDT" "1h" 3600000000 18000000000 1 =
      .ok (historyWithGap.inRange 3600000000 18000000000) :=
  (fetchOhlcvRange_exact (historyWithGap.exchange_serves _ _) (historyWithGap.exchange_answers _ _)
    (by norm_num) (by norm_num)).2.2.1 (by decide)

end LiveProvider

end TradingPlatform
