import TradingPlatform.Data.ExactRange
import TradingPlatform.Data.MarketCache

/-!
# Gaps without bars

`_try_fetch_gap` knows a gap without bars by the text of the exception. The provider raises one text
where the exchange sends later bars than those of the gap, and another where it sends none at all,
and only the first one is known. This file says when an extension of a cache file counts a gap
without bars as empty.
-/

namespace TradingPlatform

namespace MarketCache

/-- The exchange has the given bars and answers, whenever the call finds it. -/
def Available (history : History) (key : CacheKey) (call : DownloadCall) : Prop :=
  ∀ n, ∃ exchange, call.fetches n = some exchange ∧
    exchange.Serves key.symbol key.timeframe history ∧
      exchange.Answers key.symbol key.timeframe

/-- The bars of a gap that the call has to fill, if there are any. -/
def gapBars (history : History) (needed : Prop) [Decidable needed] (start stop : ℤ) :
    Option Frame :=
  if needed ∧ history.inRange start stop ≠ [] then some (history.inRange start stop) else none

/-- What a call that is not forced gives, if a gap without bars counts as empty: the file with the
bars of its gaps merged in, and the same file if there are none. -/
def extended (history : History) (rows : Frame) (call : DownloadCall) (first last : ℤ) :
    Except PyError Bool × Option Frame :=
  let frames := [gapBars history (call.start < first) call.start first,
    gapBars history (last < call.stop) last call.stop].reduceOption
  if frames = [] then (.ok false, some rows) else (.ok true, some (frames.foldl mergeOhlcv rows))

/-- The text of the error when the exchange sends nothing. -/
def noData (key : CacheKey) (start stop : ℤ) : String :=
  "No OHLCV data returned for " ++ LiveProvider.between key.symbol key.timeframe start stop

/-- A gap without bars is followed by some bar of the exchange, or the symbol or timeframe happens
to have the text in it that the error is known by. -/
def SeenEmpty (history : History) (key : CacheKey) (start stop : ℤ) : Prop :=
  history.inRange start stop = [] →
    history.rows.filter (LiveProvider.wholeMs start ≤ ·.ms) ≠ [] ∨
      "No OHLCV bars".toList <:+: (noData key start stop).toList

instance {history : History} {key : CacheKey} {start stop : ℤ} :
    Decidable (SeenEmpty history key start stop) := inferInstanceAs (Decidable (_ → _))

variable {history : History} {key : CacheKey} {call : DownloadCall} {rows : Frame}
  {start stop first last : ℤ} {exchange : PagedExchange}

/-- The text for a range without bars has the text it is known by. -/
theorem barsText_known (text : String) :
    "No OHLCV bars".toList <:+: ("No OHLCV bars in range for " ++ text).toList := by
  refine List.IsPrefix.isInfix ⟨" in range for ".toList ++ text.toList, ?_⟩
  rw [String.toList_append, ← List.append_assoc]
  rfl

theorem tryFetchGap_eq (hserves : exchange.Serves key.symbol key.timeframe history)
    (hanswers : exchange.Answers key.symbol key.timeframe) (hle : start ≤ stop) :
    tryFetchGap key (some exchange) start stop =
      if SeenEmpty history key start stop then .ok (gapBars history True start stop)
      else .error (.dataProviderError (noData key start stop)) := by
  have hfetch := LiveProvider.fetchOhlcvRange_eq hserves hanswers (by norm_num : 0 < 1000) hle
  rw [tryFetchGap, if_neg (not_lt.mpr hle), fetchOhlcvDf, hfetch]
  by_cases hsome : history.inRange start stop ≠ []
  · have hseen : SeenEmpty history key start stop := fun hnone => absurd hnone hsome
    rw [if_pos hsome, if_pos hseen, gapBars, if_pos ⟨trivial, hsome⟩]
    rfl
  have hgap : gapBars history True start stop = none := if_neg fun h => hsome h.2
  rw [if_neg hsome, hgap]
  by_cases hlater : history.rows.filter (LiveProvider.wholeMs start ≤ ·.ms) = []
  · have hseen : SeenEmpty history key start stop ↔
        "No OHLCV bars".toList <:+: (noData key start stop).toList :=
      ⟨fun h => (h (not_not.mp hsome)).resolve_left (not_not.mpr hlater), fun h _ => .inr h⟩
    rw [if_pos hlater]
    exact (if_congr hseen rfl rfl).symm
  · have hseen : SeenEmpty history key start stop := fun _ => .inl hlater
    rw [if_neg hlater, if_pos hseen]
    exact if_pos (barsText_known _)

theorem gap_eq (havailable : Available history key call) (n : ℕ) (hlt : start < stop) :
    tryFetchGap key (call.fetches n) start stop =
      if SeenEmpty history key start stop then .ok (gapBars history True start stop)
      else .error (.dataProviderError (noData key start stop)) := by
  obtain ⟨exchange, hfetches, hserves, hanswers⟩ := havailable n
  rw [hfetches, tryFetchGap_eq hserves hanswers hlt.le]

/-- The gaps the call has to fill are seen to be empty where they are. -/
structure GapsSeen (history : History) (key : CacheKey) (call : DownloadCall) (first last : ℤ) :
    Prop where
  left : call.start < first → SeenEmpty history key call.start first
  right : last < call.stop → SeenEmpty history key last call.stop

/-- A gap is read as its bars exactly when it is seen to be empty where it is. -/
theorem needed_eq {needed : Prop} [Decidable needed] {gap : Except PyError (Option Frame)}
    (hgap : needed → gap = if SeenEmpty history key start stop then
        .ok (gapBars history True start stop)
      else .error (.dataProviderError (noData key start stop))) :
    (if needed then gap else .ok none) =
      if needed → SeenEmpty history key start stop then .ok (gapBars history needed start stop)
      else .error (.dataProviderError (noData key start stop)) := by
  by_cases hneeded : needed
  · rw [if_pos hneeded, hgap hneeded]
    simp only [hneeded, forall_const, gapBars, true_and]
  · simp [hneeded, gapBars]

theorem gapBars_ne_nil {needed : Prop} [Decidable needed] {frame : Frame}
    (h : gapBars history needed start stop = some frame) : frame ≠ [] := by
  unfold gapBars at h
  split at h
  · next hsome =>
    cases h
    exact hsome.2
  · cases h

theorem leftGap_eq (havailable : Available history key call) : leftGap key call first =
    if call.start < first → SeenEmpty history key call.start first then
      .ok (gapBars history (call.start < first) call.start first)
    else .error (.dataProviderError (noData key call.start first)) :=
  needed_eq fun hlt => gap_eq havailable 0 hlt

theorem rightGap_eq (havailable : Available history key call) : rightGap key call last =
    if last < call.stop → SeenEmpty history key last call.stop then
      .ok (gapBars history (last < call.stop) last call.stop)
    else .error (.dataProviderError (noData key last call.stop)) :=
  needed_eq fun hlt => gap_eq havailable 1 hlt

/-- The gaps are all filled, or the call raises. -/
theorem fetchGaps_eq (havailable : Available history key call) :
    (GapsSeen history key call first last →
      fetchGaps key call rows first last =
        let frames := [gapBars history (call.start < first) call.start first,
          gapBars history (last < call.stop) last call.stop].reduceOption
        .ok (if frames = [] then none else some (frames.foldl mergeOhlcv rows))) ∧
    (¬ GapsSeen history key call first last →
      ∃ text, fetchGaps key call rows first last = .error (.dataProviderError text)) := by
  unfold fetchGaps
  rw [leftGap_eq havailable, rightGap_eq havailable]
  constructor
  · intro hseen
    rw [if_pos hseen.left, if_pos hseen.right]
    have hfilter : ∀ frames : List (Option Frame),
        (∀ frame ∈ frames.reduceOption, frame ≠ []) →
          (frames.reduceOption.filter fun df => !df.isEmpty) = frames.reduceOption := by
      intro frames hframes
      rw [List.filter_eq_self]
      intro frame hframe
      simpa using hframes frame hframe
    have hne : ∀ frame ∈ [gapBars history (call.start < first) call.start first,
        gapBars history (last < call.stop) last call.stop].reduceOption, frame ≠ [] := by
      intro frame hframe
      rw [List.reduceOption_mem_iff] at hframe
      simp only [List.mem_cons, List.not_mem_nil, or_false] at hframe
      rcases hframe with hframe | hframe
      · exact gapBars_ne_nil hframe.symm
      · exact gapBars_ne_nil hframe.symm
    simp only [bind, Except.bind, pure, Except.pure, hfilter _ hne, List.isEmpty_iff]
  · intro hunseen
    by_cases hleft : call.start < first → SeenEmpty history key call.start first
    · have hright : ¬ (last < call.stop → SeenEmpty history key last call.stop) :=
        fun hright => hunseen ⟨hleft, hright⟩
      rw [if_pos hleft, if_neg hright]
      exact ⟨_, rfl⟩
    · rw [if_neg hleft]
      exact ⟨_, rfl⟩

theorem downloadCsv_of_seen (havailable : Available history key call)
    (hforce : call.force = false) (hcoverage : readCoverage (some rows) = some (first, last))
    (hseen : GapsSeen history key call first last) :
    downloadCsv key (some rows) call = extended history rows call first last := by
  unfold downloadCsv refresh extended
  simp only [hcoverage, hforce, Bool.false_eq_true, if_false, Option.getD_some]
  by_cases hcovered : first ≤ call.start ∧ call.stop ≤ last
  · have hleft : ¬ call.start < first := not_lt.mpr hcovered.1
    have hright : ¬ last < call.stop := not_lt.mpr hcovered.2
    rw [if_pos hcovered]
    simp [gapBars, hleft, hright, List.reduceOption]
    rfl
  · rw [if_neg hcovered, (fetchGaps_eq havailable).1 hseen]
    dsimp only
    generalize [gapBars history (call.start < first) call.start first,
      gapBars history (last < call.stop) last call.stop].reduceOption = frames
    by_cases hnone : frames = []
    · rw [if_pos hnone, if_pos hnone]
    · rw [if_neg hnone, if_neg hnone]

theorem downloadCsv_of_not_seen (havailable : Available history key call)
    (hforce : call.force = false) (hcoverage : readCoverage (some rows) = some (first, last))
    (hseen : ¬ GapsSeen history key call first last) :
    ∃ text, downloadCsv key (some rows) call = (.error (.dataProviderError text), some rows) := by
  unfold downloadCsv refresh
  simp only [hcoverage, hforce, Bool.false_eq_true, if_false, Option.getD_some]
  have hcovered : ¬ (first ≤ call.start ∧ call.stop ≤ last) := fun h =>
    hseen ⟨fun hlt => absurd hlt (not_lt.mpr h.1), fun hlt => absurd hlt (not_lt.mpr h.2)⟩
  obtain ⟨text, hraised⟩ : ∃ text, fetchGaps key call rows first last =
    .error (.dataProviderError text) := (fetchGaps_eq havailable).2 hseen
  rw [if_neg hcovered, hraised]
  exact ⟨text, rfl⟩

theorem extended_ok : ∃ refreshed, (extended history rows call first last).1 = .ok refreshed := by
  unfold extended
  dsimp only
  split
  · exact ⟨_, rfl⟩
  · exact ⟨_, rfl⟩

/-- A call that is not forced, on a file that covers something, counts the gaps without bars as
empty exactly if each of them is followed by a bar of the exchange. -/
theorem downloadCsv_eq_extended_iff (havailable : Available history key call)
    (hforce : call.force = false) (hcoverage : readCoverage (some rows) = some (first, last)) :
    downloadCsv key (some rows) call = extended history rows call first last ↔
      GapsSeen history key call first last := by
  refine ⟨fun heq => ?_, downloadCsv_of_seen havailable hforce hcoverage⟩
  by_contra hseen
  obtain ⟨text, hraised⟩ := downloadCsv_of_not_seen havailable hforce hcoverage hseen
  obtain ⟨refreshed, hok⟩ : ∃ refreshed,
    (extended history rows call first last).1 = .ok refreshed := extended_ok
  rw [← heq, hraised] at hok
  cases hok

/-- An exchange that has no bars of a market any more. -/
def delisted : History where
  barSeconds := 3600
  rows := []
  positive := hour_pos
  spaced := List.Pairwise.nil

/-- The first hour is in the file, and the second is asked for too. -/
def cachedHour : Frame := [⟨0, ⟨1, 2, 1, 1, 10⟩⟩]

def secondHour (history : History) : DownloadCall :=
  { start := 0, stop := 3600000000, fetches := fun _ => some history.exchange }

theorem available_exchange (history : History) :
    Available history hourlyFile (secondHour history) := fun _ =>
  ⟨_, rfl, history.exchange_serves _ _, history.exchange_answers _ _⟩

theorem downloadCsv_eq_extended_iff_threeHours :
    downloadCsv hourlyFile (some cachedHour) (secondHour threeHours) =
        extended threeHours cachedHour (secondHour threeHours) 0 0 ↔
      GapsSeen threeHours hourlyFile (secondHour threeHours) 0 0 :=
  downloadCsv_eq_extended_iff (available_exchange threeHours) rfl rfl

/-- The second hour is empty, and the call raises. -/
theorem not_extended_delisted : ¬ ∀ (history : History) (key : CacheKey) (rows : Frame)
    (call : DownloadCall) (first last : ℤ), Available history key call → call.force = false →
      readCoverage (some rows) = some (first, last) →
      call.start < first ∧ history.inRange call.start first = [] ∨
        last < call.stop ∧ history.inRange last call.stop = [] →
      downloadCsv key (some rows) call = extended history rows call first last := by
  intro h
  have heq := h delisted hourlyFile cachedHour (secondHour delisted) 0 0
    (available_exchange delisted) rfl rfl (.inr ⟨by decide, rfl⟩)
  have hunseen : ¬ GapsSeen delisted hourlyFile (secondHour delisted) 0 0 := fun hseen =>
    absurd (hseen.right (by decide) rfl) (by decide +kernel)
  obtain ⟨text, hraised⟩ : ∃ text, downloadCsv hourlyFile (some cachedHour) (secondHour delisted) =
    (.error (.dataProviderError text), some cachedHour) :=
      downloadCsv_of_not_seen (available_exchange delisted) rfl rfl hunseen
  obtain ⟨refreshed, hok⟩ : ∃ refreshed,
    (extended delisted cachedHour (secondHour delisted) 0 0).1 = .ok refreshed := extended_ok
  rw [← heq, hraised] at hok
  cases hok

end MarketCache

end TradingPlatform
