import TradingPlatform.Research.Holdout

/-!
# Sweeps that the held-out window decides

The converse: where the last window is not isolated there are frames that agree before it and a
filter under which the sweeps differ. The bars carry the value of the filter as their volume. All of
them pass the lower of two thresholds, one only the higher one, and whether that one wins is a
matter of the last window.
-/

namespace TradingPlatform

/-! ## Choices between two groups of thresholds -/

section Choice

variable {thresholds : List ℚ} {trainScore : ℚ → WithBot ℚ} {windowScore : ℚ → ℕ → WithBot ℚ}
  {k : ℕ} {low best : ℚ}

/-- Where the low thresholds score zero and the others do not count, the first low one is best. -/
theorem argmax_trainScore (htrain : ∀ θ, trainScore θ = if θ ≤ low then 0 else ⊥)
    (hlow : low ∈ thresholds) :
    (thresholds.filter fun θ => ⊥ < trainScore θ).argmax trainScore =
      thresholds.find? fun θ => θ ≤ low := by
  have heligible : (thresholds.filter fun θ => ⊥ < trainScore θ) =
      thresholds.filter fun θ => θ ≤ low := by
    refine List.filter_congr fun θ _ => decide_eq_decide.mpr ?_
    rw [htrain]
    split
    · next hle => exact iff_of_true (WithBot.bot_lt_coe 0) hle
    · next hgt => exact iff_of_false (lt_irrefl _) hgt
  rw [heligible, List.argmax_eq_find? (p := fun θ => decide (θ ≤ low)) (c := 0)]
  · rw [List.find?_filter]
    simp
  · intro θ hθ _
    rw [htrain, if_pos (of_decide_eq_true (List.mem_filter.mp hθ).2)]
  · exact fun θ hθ hnot => absurd (List.mem_filter.mp hθ).2 hnot
  · exact ⟨low, List.mem_filter.mpr ⟨hlow, by simp⟩, by simp⟩

/-- In every window that has a score the first low threshold wins. -/
theorem selectThreshold_of_stable (htrain : ∀ θ, trainScore θ = if θ ≤ low then 0 else ⊥)
    (hlow : low ∈ thresholds)
    (hwins : ∀ i < k, (∃ θ ∈ thresholds, ⊥ < windowScore θ i) →
      thresholds.argmax (windowScore · i) = thresholds.find? fun θ => θ ≤ low) :
    (selectThreshold thresholds trainScore windowScore k).2 = false := by
  obtain ⟨best, hbest⟩ := Option.isSome_iff_exists.mp
    (List.find?_isSome (p := fun θ : ℚ => θ ≤ low) |>.mpr ⟨low, hlow, decide_eq_true le_rfl⟩)
  unfold selectThreshold
  rw [argmax_trainScore htrain hlow, hbest]
  refine List.any_eq_false.mpr fun i hi => ?_
  obtain ⟨hi, hscored⟩ := List.mem_filter.mp hi
  obtain ⟨θ, hθ, hscore⟩ := List.any_eq_true.mp hscored
  rw [decide_eq_true_iff, not_not, ← hbest]
  exact hwins i (List.mem_range.mp hi) ⟨θ, hθ, of_decide_eq_true hscore⟩

/-- In some window a high threshold wins. -/
theorem selectThreshold_of_unstable (htrain : ∀ θ, trainScore θ = if θ ≤ low then 0 else ⊥)
    (hlow : low ∈ thresholds) {i : ℕ} (hi : i < k) {winner : ℚ}
    (hwinner : thresholds.argmax (windowScore · i) = some winner) (hhigh : low < winner)
    (hscored : ⊥ < windowScore winner i) :
    (selectThreshold thresholds trainScore windowScore k).2 = true := by
  obtain ⟨best, hbest⟩ := Option.isSome_iff_exists.mp
    (List.find?_isSome (p := fun θ : ℚ => θ ≤ low) |>.mpr ⟨low, hlow, decide_eq_true le_rfl⟩)
  have hle : best ≤ low := of_decide_eq_true (List.find?_some hbest :)
  unfold selectThreshold
  rw [argmax_trainScore htrain hlow, hbest]
  refine List.any_eq_true.mpr ⟨i, List.mem_filter.mpr ⟨List.mem_range.mpr hi, ?_⟩, ?_⟩
  · exact List.any_eq_true.mpr ⟨winner, List.argmax_mem hwinner, decide_eq_true hscored⟩
  · rw [hwinner, decide_eq_true_iff]
    rintro ⟨⟩
    exact absurd hle (not_le.mpr hhigh)

end Choice

/-! ## Frames with the filter in their volume -/

/-- A bar of one price. -/
def markedBar (price volume : ℚ) : Bar where
  «open» := price
  high := price
  low := price
  close := price
  volume := volume

def markedCandle (price volume : ℕ → ℚ) (t : ℕ) : Candle where
  timestamp := t
  bar := markedBar (price t) (volume t)

def markedFrame (n : ℕ) (price volume : ℕ → ℚ) : Frame :=
  (List.range n).map (markedCandle price volume)

def upSignal : BaseSignal := fun _ _ => .up

def volumeFilter : MagnitudeFilter := fun window i => window[i]?.map (·.candle.bar.volume)

theorem causal_upSignal : Causal upSignal := fun _ _ _ _ => rfl

theorem causal_volumeFilter : Causal volumeFilter := by
  intro window window' i hbars
  have hat := congrArg (·[i]?) hbars
  simp only [List.getElem?_map, List.getElem?_take, if_pos (Nat.lt_succ_self i)] at hat
  have hvolume := congrArg (Option.map (·.bar.volume)) hat
  rw [Option.map_map, Option.map_map] at hvolume
  exact hvolume

/-! ## Trades upwards -/

section Up

variable {window : List TargetRow} {mask mask' : ℕ → Bool} {signal : ℕ → BaseLabel}

theorem pnls_congr {fwd : List (Option ℚ)} {k : ℕ}
    (h : ∀ j < fwd.length, mask (k + j) = mask' (k + j)) :
    (fwd.zipIdx k).filterMap (tradePnl signal mask) =
      (fwd.zipIdx k).filterMap (tradePnl signal mask') := by
  refine List.filterMap_congr fun p hp => ?_
  obtain ⟨o, j⟩ := p
  obtain ⟨hle, hlt, -⟩ := List.mem_zipIdx hp
  have hmask := h (j - k) (by omega)
  rw [Nat.add_sub_cancel' hle] at hmask
  simp only [tradePnl, hmask]

theorem tradePnls_congr (h : ∀ j < window.length, mask j = mask' j) :
    tradePnls window signal mask = tradePnls window signal mask' := by
  refine pnls_congr fun j hj => ?_
  rw [Nat.zero_add]
  exact h j (by simpa using hj)

theorem tradePnls_false : tradePnls window signal (fun _ => false) = [] :=
  List.filterMap_eq_nil_iff.mpr fun _ _ => rfl

theorem tradePnls_true : tradePnls window (fun _ => .up) (fun _ => true) =
    (window.map (·.fwdRet)).filterMap id := by
  have hfst := List.filterMap_map (f := Prod.fst) (g := id)
    (l := (window.map (·.fwdRet)).zipIdx)
  rw [List.zipIdx_map_fst] at hfst
  exact hfst.symm

theorem pnls_single (fwd : List (Option ℚ)) (k j : ℕ) :
    (fwd.zipIdx k).filterMap (tradePnl (fun _ => .up) fun m => m == k + j) =
      (fwd[j]?.join).toList := by
  induction fwd generalizing k j with
  | nil => rfl
  | cons o fwd ih =>
    rw [List.zipIdx_cons, List.filterMap_cons]
    cases j with
    | zero =>
      have hrest : (fwd.zipIdx (k + 1)).filterMap (tradePnl (fun _ => .up) fun m => m == k + 0) =
          [] := by
        refine List.filterMap_eq_nil_iff.mpr fun p hp => ?_
        obtain ⟨hle, -, -⟩ := List.mem_zipIdx (x := p.1) (i := p.2) hp
        have hne : ¬ p.2 = k := by omega
        simp [tradePnl, hne]
      rw [hrest]
      cases o with
      | none => simp [tradePnl]
      | some r => simp [tradePnl]
    | succ j =>
      have hhead : tradePnl (fun _ => .up) (fun m => m == k + (j + 1)) (o, k) = none := by
        simp [tradePnl]
      have hshift : (fun m => m == k + (j + 1)) = fun m => m == k + 1 + j := by
        funext m
        rw [Nat.add_right_comm, Nat.add_assoc]
      rw [hhead, hshift]
      exact ih (k + 1) j

end Up

section Marked

variable {n horizon nWindows i y : ℕ} {price volume : ℕ → ℚ} {low high θ : ℚ}

theorem length_markedFrame : (markedFrame n price volume).length = n := by
  simp [markedFrame]

theorem getElem?_markedFrame {t : ℕ} (ht : t < n) :
    (markedFrame n price volume)[t]? = some (markedCandle price volume t) := by
  rw [markedFrame, List.getElem?_map, List.getElem?_range ht]
  rfl

/-- The target of a row. -/
def markedRet (price : ℕ → ℚ) (horizon t : ℕ) : ℚ := (price (t + horizon) / price t - 1) * 100

variable (n horizon price volume) in
/-- The targets of a window. -/
theorem getElem?_markedWindow (hi : i < nWindows) (j : ℕ) :
    ((subWindow (computeForwardTargets (markedFrame n price volume) horizon) nWindows i).map
      (·.fwdRet))[j]? =
      if windowEdge n nWindows i + j < windowEdge n nWindows (i + 1) then
        some (if windowEdge n nWindows i + j + horizon < n then
          some (markedRet price horizon (windowEdge n nWindows i + j)) else none) else none := by
  rw [map_subWindow, getElem?_subWindow, List.length_map, length_computeForwardTargets,
    length_markedFrame]
  refine if_ctx_congr Iff.rfl (fun hj => ?_) fun _ => rfl
  have ht : windowEdge n nWindows i + j < n :=
    hj.trans_le (windowEdge_le hi (Nat.zero_lt_of_lt hi))
  rw [getElem?_fwdRet, getElem?_markedFrame ht, Option.map_some]
  congr 1
  by_cases htarget : windowEdge n nWindows i + j + horizon < n
  · rw [if_pos htarget, getElem?_markedFrame htarget]
    rfl
  · rw [if_neg htarget, List.getElem?_eq_none (by rw [length_markedFrame]; omega)]
    rfl

/-- The filter reads the volume. -/
theorem volumeFilter_markedWindow (hi : i < nWindows) {j : ℕ}
    (hj : windowEdge n nWindows i + j < windowEdge n nWindows (i + 1)) :
    volumeFilter (subWindow (computeForwardTargets (markedFrame n price volume) horizon) nWindows i)
      j = some (volume (windowEdge n nWindows i + j)) := by
  have ht : windowEdge n nWindows i + j < n :=
    hj.trans_le (windowEdge_le hi (Nat.zero_lt_of_lt hi))
  have hcandle : ((subWindow (computeForwardTargets (markedFrame n price volume) horizon) nWindows
      i).map (·.candle))[j]? = some (markedCandle price volume (windowEdge n nWindows i + j)) := by
    rw [map_subWindow, candle_computeForwardTargets, getElem?_subWindow, length_markedFrame,
      if_pos hj, getElem?_markedFrame ht]
  rw [List.getElem?_map] at hcandle
  obtain ⟨row, hrow, hsame⟩ := Option.map_eq_some_iff.mp hcandle
  unfold volumeFilter
  rw [hrow, Option.map_some, hsame]
  rfl

/-! ### The scores -/

/-- The rows of a frame in which the filter is low at all bars but one. -/
def markedRows (n : ℕ) (price : ℕ → ℚ) (low high : ℚ) (y horizon : ℕ) : List TargetRow :=
  computeForwardTargets (markedFrame n price fun t => if t = y then high else low) horizon

/-- The rows with a target of a window. -/
def windowPnls (n : ℕ) (price : ℕ → ℚ) (low high : ℚ) (y horizon nWindows i : ℕ) : List ℚ :=
  tradePnls (subWindow (markedRows n price low high y horizon) nWindows i) (fun _ => .up)
    fun _ => true

theorem length_markedRows : (markedRows n price low high y horizon).length = n := by
  rw [markedRows, length_computeForwardTargets, length_markedFrame]

theorem length_windowPnls (n : ℕ) (price : ℕ → ℚ) (low high : ℚ) (y horizon nWindows i : ℕ) :
    (windowPnls n price low high y horizon nWindows i).length =
      targetRows n nWindows horizon i := by
  have hcount := countP_fwdRet_subWindow
    (markedFrame n price fun t => if t = y then high else low) horizon nWindows i
  rw [length_markedFrame] at hcount
  rw [windowPnls, tradePnls_true, ← hcount, List.length_filterMap_eq_countP]
  rfl

theorem mem_windowPnls {t : ℕ} (hi : i < nWindows) (hstart : windowEdge n nWindows i ≤ t)
    (hend : t < targetEnd n nWindows horizon i) :
    markedRet price horizon t ∈ windowPnls n price low high y horizon nWindows i := by
  unfold targetEnd at hend
  have hat := getElem?_markedWindow n horizon price (fun t => if t = y then high else low) hi
    (t - windowEdge n nWindows i)
  rw [Nat.add_sub_cancel' hstart, if_pos (by omega), if_pos (by omega)] at hat
  rw [windowPnls, tradePnls_true]
  exact List.mem_filterMap.mpr ⟨_, List.mem_of_getElem? hat, rfl⟩

/-- The trades of a window that pass a threshold. -/
def passedPnls (n : ℕ) (price : ℕ → ℚ) (low high : ℚ) (y horizon nWindows : ℕ) (θ : ℚ) (i : ℕ) :
    List ℚ :=
  if θ ≤ low then windowPnls n price low high y horizon nWindows i
  else if θ ≤ high ∧ windowEdge n nWindows i ≤ y ∧ y < targetEnd n nWindows horizon i then
    [markedRet price horizon y]
  else []

variable (n horizon y price θ) in
theorem gated_markedWindow (hi : i < nWindows) (hlt : low < high) :
    tradePnls (subWindow (markedRows n price low high y horizon) nWindows i)
        (upSignal (subWindow (markedRows n price low high y horizon) nWindows i))
        (gateMask (volumeFilter (subWindow (markedRows n price low high y horizon) nWindows i)) θ) =
      passedPnls n price low high y horizon nWindows θ i := by
  have hlength : (subWindow (markedRows n price low high y horizon) nWindows i).length =
      windowEdge n nWindows (i + 1) - windowEdge n nWindows i := by
    rw [length_subWindow _ hi, length_markedRows]
  have hgate : ∀ j < (subWindow (markedRows n price low high y horizon) nWindows i).length,
      gateMask (volumeFilter (subWindow (markedRows n price low high y horizon) nWindows i)) θ j =
        decide (θ ≤ if windowEdge n nWindows i + j = y then high else low) := fun j hj => by
    unfold gateMask markedRows
    rw [volumeFilter_markedWindow hi (by omega)]
    rfl
  unfold passedPnls
  split
  · next hle =>
    refine tradePnls_congr fun j hj => ?_
    rw [hgate j hj]
    refine decide_eq_true ?_
    split
    · exact hle.trans hlt.le
    · exact hle
  · next hgt =>
    by_cases hpass : θ ≤ high ∧ windowEdge n nWindows i ≤ y ∧ y < windowEdge n nWindows (i + 1)
    · obtain ⟨hle, hstart, hend⟩ := hpass
      have hsingle : tradePnls (subWindow (markedRows n price low high y horizon) nWindows i)
          (fun _ => .up) (gateMask (volumeFilter
            (subWindow (markedRows n price low high y horizon) nWindows i)) θ) =
          tradePnls (subWindow (markedRows n price low high y horizon) nWindows i) (fun _ => .up)
            fun j => j == 0 + (y - windowEdge n nWindows i) := by
        refine tradePnls_congr fun j hj => ?_
        rw [hgate j hj]
        by_cases hy : windowEdge n nWindows i + j = y
        · have hmarked : (j == 0 + (y - windowEdge n nWindows i)) = true :=
            beq_iff_eq.mpr (by omega)
          rw [if_pos hy, decide_eq_true hle, hmarked]
        · have hother : (j == 0 + (y - windowEdge n nWindows i)) = false :=
            beq_eq_false_iff_ne.mpr (by omega)
          rw [if_neg hy, decide_eq_false hgt, hother]
      have hat := getElem?_markedWindow n horizon price (fun t => if t = y then high else low) hi
        (y - windowEdge n nWindows i)
      rw [Nat.add_sub_cancel' hstart, if_pos hend] at hat
      change tradePnls _ (fun _ => .up) _ = _
      rw [hsingle, tradePnls, pnls_single]
      unfold markedRows
      rw [hat]
      unfold targetEnd
      by_cases htarget : y + horizon < n
      · rw [if_pos htarget, if_pos ⟨hle, hstart, by omega⟩]
        rfl
      · rw [if_neg htarget, if_neg fun h => htarget (by omega)]
        rfl
    · unfold targetEnd
      rw [if_neg fun h => hpass ⟨h.1, h.2.1, by omega⟩]
      refine (tradePnls_congr fun j hj => ?_).trans tradePnls_false
      rw [hgate j hj]
      refine decide_eq_false fun hle => ?_
      split at hle
      · next hy => exact hpass ⟨hle, by omega, by omega⟩
      · exact hgt hle

variable (n horizon y price) in
theorem sweepWindow_marked (hi : i < nWindows) (hlt : low < high) (θ : ℚ) :
    let r := sweepWindow (markedRows n price low high y horizon) upSignal volumeFilter nWindows θ i
    let passed := passedPnls n price low high y horizon nWindows θ i
    r.filteredStats.trades = passed.length ∧
      r.winRateImprovementPp =
        improvement passed (windowPnls n price low high y horizon nWindows i) := by
  have hgated := gated_markedWindow n horizon y price θ hi hlt
  constructor
  · exact congrArg List.length hgated
  · exact congrArg (improvement · _) hgated

/-- The points of a marked sweep. -/
def markedPoint (n : ℕ) (price : ℕ → ℚ) (low high : ℚ) (y horizon nWindows : ℕ) (θ : ℚ) :
    PercentileSweepPoint :=
  sweepPoint (markedRows n price low high y horizon) upSignal volumeFilter nWindows θ

/-- The low thresholds score zero, the others have too few trades. -/
theorem trainScore_markedPoint (hlt : low < high) (hsampled : Sampled n nWindows horizon) (θ : ℚ) :
    (markedPoint n price low high y horizon nWindows θ).trainScore = if θ ≤ low then 0 else ⊥ := by
  have hcounted : ∀ i ∈ trainWindows n nWindows, countedImprovement
      (markedRows n price low high y horizon) upSignal volumeFilter nWindows θ i =
        if θ ≤ low ∧ minTradesForComparison ≤ targetRows n nWindows horizon i then some 0
        else none := by
    intro i hi
    have hi' : i < nWindows := (mem_trainWindows.mp hi).1.trans_le (Nat.sub_le _ _)
    obtain ⟨htrades, himprovement⟩ := sweepWindow_marked n horizon y price hi' hlt θ
    unfold countedImprovement
    dsimp only at htrades himprovement ⊢
    rw [htrades, himprovement]
    unfold passedPnls
    by_cases hle : θ ≤ low
    · rw [if_pos hle, length_windowPnls]
      by_cases hmany : minTradesForComparison ≤ targetRows n nWindows horizon i
      · rw [if_pos hmany, if_pos ⟨hle, hmany⟩]
        refine improvement_self fun hnil => ?_
        have hlength := length_windowPnls n price low high y horizon nWindows i
        rw [hnil] at hlength
        rw [← hlength] at hmany
        exact absurd hmany (by decide)
      · rw [if_neg hmany, if_neg fun h => hmany h.2]
    · have hhigh : ¬ (θ ≤ low ∧ minTradesForComparison ≤ targetRows n nWindows horizon i) :=
        fun h => hle h.1
      rw [if_neg hle, if_neg hhigh]
      refine if_neg fun hmany => ?_
      split at hmany
      · exact absurd hmany (by decide : ¬ 30 ≤ 1)
      · exact absurd hmany (by decide)
  unfold markedPoint
  rw [trainScore_sweepPoint, length_markedRows, List.filterMap_congr hcounted]
  dsimp only
  by_cases hle : θ ≤ low
  · obtain ⟨i, hi, hmany⟩ := hsampled
    have hpos : 0 < targetRows n nWindows horizon i := hmany.trans_lt' (by decide)
    have hmem : i ∈ trainWindows n nWindows := by
      unfold targetRows targetEnd at hpos
      exact mem_trainWindows.mpr ⟨hi, by omega⟩
    have hzero : ∀ v ∈ (trainWindows n nWindows).filterMap fun i =>
        if θ ≤ low ∧ minTradesForComparison ≤ targetRows n nWindows horizon i then some (0 : ℚ)
        else none, v = 0 := by
      intro v hv
      obtain ⟨j, -, hj⟩ := List.mem_filterMap.mp hv
      split at hj
      · exact (Option.some.inj hj).symm
      · cases hj
    have hne : (trainWindows n nWindows).filterMap (fun i =>
        if θ ≤ low ∧ minTradesForComparison ≤ targetRows n nWindows horizon i then some (0 : ℚ)
        else none) ≠ [] :=
      List.ne_nil_of_mem (List.mem_filterMap.mpr ⟨i, hmem, if_pos ⟨hle, hmany⟩⟩)
    rw [if_neg hne, if_pos hle, List.sum_eq_zero hzero, zero_div]
    rfl
  · rw [if_neg hle, if_pos]
    exact List.filterMap_eq_nil_iff.mpr fun i _ => if_neg fun h => hle h.1

/-- The low thresholds score zero in every window that has a trade. -/
theorem windowScore_of_low (hlt : low < high) (hi : i < nWindows - 1) (hθ : θ ≤ low) :
    (markedPoint n price low high y horizon nWindows θ).windowScore i =
      if 0 < targetRows n nWindows horizon i then 0 else ⊥ := by
  obtain ⟨-, himprovement⟩ :=
    sweepWindow_marked n horizon y price (hi.trans_le (Nat.sub_le _ _)) hlt θ
  unfold markedPoint
  rw [windowScore_sweepPoint, length_markedRows, himprovement, passedPnls, if_pos hθ]
  have hlength := length_windowPnls n price low high y horizon nWindows i
  by_cases hpos : 0 < targetRows n nWindows horizon i
  · have hmem : i ∈ trainWindows n nWindows := by
      have htarget := hpos
      unfold targetRows targetEnd at htarget
      exact mem_trainWindows.mpr ⟨hi, by omega⟩
    rw [if_pos hmem, if_pos hpos, improvement_self]
    · rfl
    · exact List.length_pos_iff.mp (hlength ▸ hpos)
  · have hnil : windowPnls n price low high y horizon nWindows i = [] :=
      List.length_eq_zero_iff.mp (by omega)
    rw [if_neg hpos, hnil, improvement_nil, ite_self]
    rfl

/-- The others score in the window of the marked row only, up to the higher threshold. -/
theorem windowScore_of_high (hlt : low < high) (hi : i < nWindows - 1) (hθ : low < θ) :
    (markedPoint n price low high y horizon nWindows θ).windowScore i =
      if θ ≤ high ∧ windowEdge n nWindows i ≤ y ∧ y < targetEnd n nWindows horizon i then
        improvement [markedRet price horizon y]
          (windowPnls n price low high y horizon nWindows i)
      else none := by
  obtain ⟨-, himprovement⟩ :=
    sweepWindow_marked n horizon y price (hi.trans_le (Nat.sub_le _ _)) hlt θ
  unfold markedPoint
  rw [windowScore_sweepPoint, length_markedRows, himprovement, passedPnls,
    if_neg (not_le.mpr hθ)]
  by_cases hmarked : θ ≤ high ∧ windowEdge n nWindows i ≤ y ∧ y < targetEnd n nWindows horizon i
  · have hmem : i ∈ trainWindows n nWindows := by
      have htarget := hmarked.2
      unfold targetEnd at htarget
      exact mem_trainWindows.mpr ⟨hi, by omega⟩
    rw [if_pos hmem, if_pos hmarked, if_pos hmarked]
  · rw [if_neg hmarked, if_neg hmarked, improvement_nil, ite_self]

end Marked

/-! ## The two sweeps -/

/-- One trade against the win rate of a window. -/
theorem improvement_single {baseline : List ℚ} (hne : baseline ≠ []) (r : ℚ) :
    improvement [r] baseline = some ((if 0 < r then 100 else 0) -
      (baseline.countP (0 < ·) : ℚ) / baseline.length * 100) := by
  unfold improvement tradeStatsFromPnls
  dsimp only
  rw [if_neg hne, if_neg (List.cons_ne_nil r [])]
  by_cases hr : 0 < r
  · simp [hr]
  · simp [hr]

section Rates

variable {baseline : List ℚ} {r : ℚ}

theorem winRate_nonneg (baseline : List ℚ) :
    (0 : ℚ) ≤ (baseline.countP (0 < ·) : ℚ) / baseline.length * 100 := by positivity

theorem winRate_le (baseline : List ℚ) :
    (baseline.countP (0 < ·) : ℚ) / baseline.length * 100 ≤ 100 := by
  have hle : (baseline.countP (0 < ·) : ℚ) ≤ baseline.length := by
    exact_mod_cast List.countP_le_length
  have hshare := div_le_one_of_le₀ hle (Nat.cast_nonneg _)
  linarith

theorem winRate_pos (hr : r ∈ baseline) (hwin : 0 < r) :
    (0 : ℚ) < (baseline.countP (0 < ·) : ℚ) / baseline.length * 100 := by
  have hcount : 0 < baseline.countP (0 < ·) := List.countP_pos_iff.mpr ⟨r, hr, decide_eq_true hwin⟩
  have hlength : 0 < baseline.length := List.length_pos_of_mem hr
  positivity

theorem winRate_lt (hr : r ∈ baseline) (hloss : ¬ 0 < r) :
    (baseline.countP (0 < ·) : ℚ) / baseline.length * 100 < 100 := by
  have hlt : (baseline.countP (0 < ·) : ℚ) < baseline.length := by
    have hne : baseline.countP (0 < ·) ≠ baseline.length := fun hall =>
      hloss (of_decide_eq_true (List.countP_eq_length.mp hall r hr))
    exact_mod_cast lt_of_le_of_ne List.countP_le_length hne
  have hpos : (0 : ℚ) < baseline.length := (Nat.cast_nonneg _).trans_lt hlt
  have hshare := (div_lt_one hpos).mpr hlt
  linarith

end Rates

section Leak

variable {n horizon nWindows i j y : ℕ} {price : ℕ → ℚ} {low high : ℚ} {rest : List ℚ} {head : ℚ}

variable (price) in
/-- The score of the higher threshold in the window of the marked row. -/
theorem windowScore_marked (hlt : low < high) (hi : i < nWindows - 1)
    (hstart : windowEdge n nWindows i ≤ y) (hend : y < targetEnd n nWindows horizon i) {θ : ℚ}
    (hθ : low < θ) (hle : θ ≤ high) :
    (markedPoint n price low high y horizon nWindows θ).windowScore i =
      (((if 0 < markedRet price horizon y then 100 else 0) -
        ((windowPnls n price low high y horizon nWindows i).countP (0 < ·) : ℚ) /
          (windowPnls n price low high y horizon nWindows i).length * 100 : ℚ) : WithBot ℚ) := by
  rw [windowScore_of_high hlt hi hθ, if_pos ⟨hle, hstart, hend⟩, improvement_single]
  · rfl
  · exact List.ne_nil_of_mem (mem_windowPnls (hi.trans_le (Nat.sub_le _ _)) hstart hend)

/-- The first of two groups of thresholds wins if no other scores more. -/
theorem argmax_head {f : ℚ → WithBot ℚ} (h : ∀ θ ∈ head :: rest, f θ ≤ f head) :
    (head :: rest).argmax f = some head :=
  List.argmax_eq_some_iff.mpr ⟨List.mem_cons_self, h, fun _ _ _ => by
    rw [List.idxOf_cons_self]
    exact Nat.zero_le _⟩

/-- While the marked row loses, the low thresholds win everywhere. -/
theorem stable_marked (hlt : low < high) (hlow : low ∈ head :: rest)
    (hloss : ¬ 0 < markedRet price horizon y)
    (hj : j < nWindows - 1) (hfirst : head = low ∨ (windowEdge n nWindows j ≤ y →
      y < targetEnd n nWindows horizon j →
        ∃ r ∈ windowPnls n price low high y horizon nWindows j, 0 < r))
    (hscored : ∃ θ ∈ head :: rest,
      ⊥ < (markedPoint n price low high y horizon nWindows θ).windowScore j) :
    (head :: rest).argmax (fun θ =>
        (markedPoint n price low high y horizon nWindows θ).windowScore j) =
      (head :: rest).find? fun θ => θ ≤ low := by
  have hrows : 0 < targetRows n nWindows horizon j := by
    obtain ⟨θ, -, hθ⟩ := hscored
    by_contra hnone
    rcases le_or_gt θ low with hle | hgt
    · rw [windowScore_of_low hlt hj hle, if_neg hnone] at hθ
      exact lt_irrefl _ hθ
    · rw [windowScore_of_high hlt hj hgt, if_neg] at hθ
      · exact lt_irrefl _ hθ
      · unfold targetRows at hnone
        omega
  have hzero : ∀ θ ≤ low, (markedPoint n price low high y horizon nWindows θ).windowScore j = 0 :=
    fun θ hle => by rw [windowScore_of_low hlt hj hle, if_pos hrows]
  have hothers : ∀ θ, low < θ →
      (markedPoint n price low high y horizon nWindows θ).windowScore j ≤ 0 ∧ (head ≠ low →
        (markedPoint n price low high y horizon nWindows θ).windowScore j < 0) := by
    intro θ hgt
    by_cases hmarked : θ ≤ high ∧ windowEdge n nWindows j ≤ y ∧ y < targetEnd n nWindows horizon j
    · obtain ⟨hle, hstart, hend⟩ := hmarked
      rw [windowScore_marked price hlt hj hstart hend hgt hle, if_neg hloss, zero_sub]
      refine ⟨?_, fun hne => ?_⟩
      · exact_mod_cast neg_nonpos.mpr (winRate_nonneg _)
      · obtain ⟨r, hr, hwin⟩ := hfirst.resolve_left hne hstart hend
        exact_mod_cast neg_lt_zero.mpr (winRate_pos hr hwin)
    · rw [windowScore_of_high hlt hj hgt, if_neg hmarked]
      exact ⟨bot_le, fun _ => WithBot.bot_lt_coe 0⟩
  by_cases hhead : head = low
  · rw [argmax_head]
    · exact (List.find?_cons_of_pos (by simpa using hhead.le)).symm
    intro θ _
    rw [hzero head hhead.le]
    rcases le_or_gt θ low with hle | hgt
    · exact (hzero θ hle).le
    · exact (hothers θ hgt).1
  · refine List.argmax_eq_find? (c := 0) (fun θ _ hle => hzero θ (of_decide_eq_true hle))
      (fun θ _ hnot => (hothers θ (not_le.mp fun hle => hnot (decide_eq_true hle))).2 hhead)
      ⟨low, hlow, decide_eq_true le_rfl⟩

/-- Once the marked row wins, so does a high threshold in its window. -/
theorem unstable_marked (hlt : low < high) (hhigh : high ∈ head :: rest) (hi : i < nWindows - 1)
    (hstart : windowEdge n nWindows i ≤ y) (hend : y < targetEnd n nWindows horizon i)
    (hwin : 0 < markedRet price horizon y)
    (hfirst : head = high ∨ ∃ r ∈ windowPnls n price low high y horizon nWindows i, ¬ 0 < r) :
    ∃ winner, (head :: rest).argmax (fun θ =>
        (markedPoint n price low high y horizon nWindows θ).windowScore i) = some winner ∧
      low < winner ∧
        ⊥ < (markedPoint n price low high y horizon nWindows winner).windowScore i := by
  have hscore := windowScore_marked price hlt hi hstart hend hlt le_rfl
  rw [if_pos hwin] at hscore
  have hpositive : 0 ≤ (markedPoint n price low high y horizon nWindows high).windowScore i := by
    rw [hscore]
    exact_mod_cast sub_nonneg.mpr (winRate_le _)
  obtain ⟨winner, hwinner⟩ := Option.ne_none_iff_exists'.mp
    (mt List.argmax_eq_none.mp (List.ne_nil_of_mem hhigh) : (head :: rest).argmax (fun θ =>
      (markedPoint n price low high y horizon nWindows θ).windowScore i) ≠ none)
  have hge := List.le_of_mem_argmax hhigh hwinner
  refine ⟨winner, hwinner, not_le.mp fun hle => ?_, ?_⟩
  · have hrows : 0 < targetRows n nWindows horizon i := by
      unfold targetRows
      omega
    have hzero : (markedPoint n price low high y horizon nWindows winner).windowScore i = 0 := by
      rw [windowScore_of_low hlt hi hle, if_pos hrows]
    rcases hfirst with rfl | ⟨r, hr, hloss⟩
    · -- the first threshold scores no less, so it would have won
      have hfirst := (List.argmax_eq_some_iff.mp hwinner).2.2 head hhigh
        (hzero.trans_le hpositive)
      rw [List.idxOf_cons_self, Nat.le_zero] at hfirst
      have hsame : winner = head := by
        by_contra hne
        rw [List.idxOf_cons_ne _ (Ne.symm hne)] at hfirst
        exact absurd hfirst (Nat.succ_ne_zero _)
      exact absurd hlt (not_lt.mpr (hsame ▸ hle))
    · have hmore : 0 < (markedPoint n price low high y horizon nWindows high).windowScore i := by
        rw [hscore]
        exact_mod_cast sub_pos.mpr (winRate_lt hr hloss)
      exact absurd (hge.trans hzero.le) (not_le.mpr hmore)
  · exact (WithBot.bot_lt_coe 0).trans_le (hpositive.trans hge)

/-- Frames whose prices differ at the end only agree before it. -/
theorem take_markedFrame {price' volume : ℕ → ℚ} {m : ℕ} (h : ∀ t < m, price t = price' t) :
    (markedFrame n price volume).take m = (markedFrame n price' volume).take m := by
  unfold markedFrame
  rw [← List.map_take, ← List.map_take]
  refine List.map_congr_left fun t ht => ?_
  rw [List.take_range] at ht
  rw [markedCandle, markedCandle, h t ((List.mem_range.mp ht).trans_le (min_le_left _ _))]

/-- The prices of the two frames: the row before the marked one wins or not, and the marked one is
rated by a price of its own. -/
def leakPrice (y horizon : ℕ) (before after : ℚ) (t : ℕ) : ℚ :=
  if t = y + 1 + horizon then after else if t = y then before else 100

theorem leakPrice_pos {before after : ℚ} (hbefore : 0 < before) (hafter : 0 < after) (t : ℕ) :
    0 < leakPrice y horizon before after t := by
  unfold leakPrice
  split_ifs
  · exact hafter
  · exact hbefore
  · norm_num

theorem markedRet_marked (hhorizon : 0 < horizon) (before after : ℚ) :
    markedRet (leakPrice y horizon before after) horizon (y + 1) = after - 100 := by
  have hself : ¬ y + 1 = y + 1 + horizon := by omega
  have hnext : ¬ y + 1 = y := by omega
  rw [markedRet, leakPrice, leakPrice, if_pos rfl, if_neg hself, if_neg hnext]
  ring

theorem markedRet_before (hhorizon : 0 < horizon) (before after : ℚ) :
    markedRet (leakPrice y horizon before after) horizon y = (100 / before - 1) * 100 := by
  have hself : ¬ y = y + 1 + horizon := by omega
  have hlater : ¬ y + horizon = y + 1 + horizon := by omega
  have hpast : ¬ y + horizon = y := by omega
  rw [markedRet, leakPrice, leakPrice, if_neg hself, if_neg hlater, if_neg hpast, if_pos rfl]

/-- The price of the row before the marked one: it wins where the higher threshold is the one tried
first. -/
def leakBefore (head low : ℚ) : ℚ := if head = low then 100 else 50

theorem leakBefore_pos : 0 < leakBefore head low := by
  unfold leakBefore
  split_ifs <;> norm_num

theorem markedRet_leakBefore (hhorizon : 0 < horizon) (after : ℚ) :
    markedRet (leakPrice y horizon (leakBefore head low) after) horizon y =
      if head = low then 0 else 100 := by
  rw [markedRet_before hhorizon, leakBefore]
  split_ifs <;> norm_num

/-- On a flat last window the choice is stable. -/
theorem stable_leak (hsampled : Sampled n nWindows horizon) (hhorizon : 0 < horizon)
    (hy : targetEnd n nWindows horizon i = y + 2) (hstart : windowEdge n nWindows i ≤ y)
    (hlt : low < high) (hlow : low ∈ head :: rest) (hhead : head = low ∨ head = high) :
    (selectThreshold (head :: rest)
      (fun θ => (markedPoint n (leakPrice y horizon (leakBefore head low) 100) low high (y + 1)
        horizon nWindows θ).trainScore)
      (fun θ => (markedPoint n (leakPrice y horizon (leakBefore head low) 100) low high (y + 1)
        horizon nWindows θ).windowScore) (nWindows - 1)).2 = false := by
  refine selectThreshold_of_stable (trainScore_markedPoint hlt hsampled) hlow
    fun j hj hscored => stable_marked hlt hlow ?_ hj ?_ hscored
  · rw [markedRet_marked hhorizon]
    norm_num
  · refine hhead.imp_right fun hhead hstart' hend' => ?_
    have hne : ¬ head = low := fun h => hlt.ne (h.symm.trans hhead)
    have hsame : windowEdge n nWindows j ≤ y := by
      by_contra hgt
      rcases Nat.lt_or_ge i j with hlater | hearlier
      · have hedge : windowEdge n nWindows (i + 1) ≤ windowEdge n nWindows j :=
          windowEdge_mono hlater
        unfold targetEnd at hy
        omega
      · exact hgt ((windowEdge_mono hearlier).trans hstart)
    refine ⟨_, mem_windowPnls (hj.trans_le (Nat.sub_le _ _)) hsame (by omega), ?_⟩
    rw [markedRet_leakBefore hhorizon, if_neg hne]
    norm_num

/-- On one where the price has doubled it is not. -/
theorem unstable_leak (hsampled : Sampled n nWindows horizon) (hhorizon : 0 < horizon)
    (hi : i < nWindows - 1) (hy : targetEnd n nWindows horizon i = y + 2)
    (hstart : windowEdge n nWindows i ≤ y) (hlt : low < high) (hlow : low ∈ head :: rest)
    (hhigh : high ∈ head :: rest) (hhead : head = low ∨ head = high) :
    (selectThreshold (head :: rest)
      (fun θ => (markedPoint n (leakPrice y horizon (leakBefore head low) 200) low high (y + 1)
        horizon nWindows θ).trainScore)
      (fun θ => (markedPoint n (leakPrice y horizon (leakBefore head low) 200) low high (y + 1)
        horizon nWindows θ).windowScore) (nWindows - 1)).2 = true := by
  have hmarked :
      0 < markedRet (leakPrice y horizon (leakBefore head low) 200) horizon (y + 1) := by
    rw [markedRet_marked hhorizon]
    norm_num
  have hloser : head = high ∨ ∃ r ∈ windowPnls n (leakPrice y horizon (leakBefore head low) 200)
      low high (y + 1) horizon nWindows i, ¬ 0 < r := by
    refine hhead.symm.imp_right fun hhead => ?_
    refine ⟨_, mem_windowPnls (hi.trans_le (Nat.sub_le _ _)) hstart (by omega), ?_⟩
    rw [markedRet_leakBefore hhorizon, if_pos hhead]
    norm_num
  have hend : y + 1 < targetEnd n nWindows horizon i := by omega
  obtain ⟨winner, hwinner, hhigher, hscored⟩ :=
    unstable_marked hlt hhigh hi (hstart.trans (Nat.le_succ y)) hend hmarked hloser
  exact selectThreshold_of_unstable (trainScore_markedPoint hlt hsampled) hlow hi hwinner hhigher
    hscored

/-- Two thresholds of which one is tried first, and a marked row that is rated by the last window:
the sweeps on a flat last window and on one where the price has doubled differ. -/
theorem leak_marked (hn : 2 ≤ nWindows) (hsampled : Sampled n nWindows horizon)
    (hi : i < nWindows - 1) (htwo : 2 ≤ targetRows n nWindows horizon i)
    (hreach : windowEdge n nWindows (nWindows - 1) < targetEnd n nWindows horizon i + horizon)
    (hlt : low < high) (hlow : low ∈ head :: rest) (hhigh : high ∈ head :: rest)
    (hhead : head = low ∨ head = high) : ¬ IsolatesHoldout n nWindows horizon (head :: rest) := by
  intro hisolated
  obtain ⟨y, hy⟩ : ∃ y, targetEnd n nWindows horizon i = y + 2 := by
    unfold targetRows at htwo
    exact Nat.exists_eq_add_of_le' (by omega)
  have hhorizon : 0 < horizon := by
    have hedge : windowEdge n nWindows (i + 1) ≤ windowEdge n nWindows (nWindows - 1) :=
      windowEdge_mono hi
    unfold targetEnd at hreach
    omega
  have hstart : windowEdge n nWindows i ≤ y := by
    unfold targetRows at htwo
    omega
  have hprices (after : ℚ) (hafter : 0 < after) : ∀ c ∈ markedFrame n
      (leakPrice y horizon (leakBefore head low) after) fun t => if t = y + 1 then high else low,
      0 < c.bar.close := by
    intro c hc
    obtain ⟨t, -, rfl⟩ := List.mem_map.mp hc
    exact leakPrice_pos leakBefore_pos hafter t
  have hagree := hisolated upSignal volumeFilter causal_upSignal causal_volumeFilter
    (markedFrame n (leakPrice y horizon (leakBefore head low) 100)
      fun t => if t = y + 1 then high else low)
    (markedFrame n (leakPrice y horizon (leakBefore head low) 200)
      fun t => if t = y + 1 then high else low)
    length_markedFrame length_markedFrame (hprices 100 (by norm_num)) (hprices 200 (by norm_num))
    (take_markedFrame fun t ht => by
      have hne : ¬ t = y + 1 + horizon := by omega
      unfold leakPrice
      rw [if_neg hne, if_neg hne])
  rw [sweepChoice_eq hn, sweepChoice_eq hn] at hagree
  have hflag := congrArg Prod.snd (Except.ok.inj hagree)
  have hstable := stable_leak hsampled hhorizon hy hstart hlt hlow hhead
  have hunstable := unstable_leak hsampled hhorizon hi hy hstart hlt hlow hhigh hhead
  exact absurd (hstable.symm.trans (hflag.trans hunstable)) (by decide)

/-- Where there are two thresholds, a window large enough to choose by, and one with a row whose
target is a price of the last window beside another row with a target, the last window influences
the choice. -/
theorem not_isolatesHoldout {thresholds : List ℚ} (hn : 2 ≤ nWindows)
    (hdistinct : ¬ ∀ θ ∈ thresholds, ∀ θ' ∈ thresholds, θ = θ')
    (hsampled : Sampled n nWindows horizon) (hexposed : Exposed n nWindows horizon) :
    ¬ IsolatesHoldout n nWindows horizon thresholds := by
  obtain ⟨i, hi, htwo, hreach⟩ := hexposed
  cases thresholds with
  | nil => exact absurd (fun _ hθ => nomatch hθ) hdistinct
  | cons head rest =>
    obtain ⟨other, hother, hne⟩ : ∃ θ ∈ head :: rest, θ ≠ head := by
      by_contra hall
      push Not at hall
      exact hdistinct fun θ hθ θ' hθ' => (hall θ hθ).trans (hall θ' hθ').symm
    rcases hne.lt_or_gt with hlt | hgt
    · exact leak_marked hn hsampled hi htwo hreach hlt hother List.mem_cons_self (.inr rfl)
    · exact leak_marked hn hsampled hi htwo hreach hgt List.mem_cons_self hother (.inl rfl)

end Leak

/-- The last window does not influence the choice of a sweep exactly when there is one threshold at
most, no window to choose by is large enough, or none has a row whose target is a price of the last
window beside another row with a target. -/
theorem isolatesHoldout_iff {n nWindows horizon : ℕ} {thresholds : List ℚ} (hn : 2 ≤ nWindows) :
    IsolatesHoldout n nWindows horizon thresholds ↔
      (∀ θ ∈ thresholds, ∀ θ' ∈ thresholds, θ = θ') ∨ ¬ Sampled n nWindows horizon ∨
        ¬ Exposed n nWindows horizon := by
  refine ⟨fun hisolated => ?_, isolatesHoldout_of hn⟩
  by_contra hall
  push Not at hall
  obtain ⟨hdistinct, hsampled, hexposed⟩ := hall
  refine not_isolatesHoldout hn (fun h => ?_) hsampled hexposed hisolated
  obtain ⟨θ, hθ, θ', hθ', hne⟩ := hdistinct
  exact hne (h θ hθ θ' hθ')

/-- A target of the same bar is not a price of the last window. -/
theorem isolatesHoldout_now : IsolatesHoldout 90 3 0 [75, 80] :=
  (isolatesHoldout_iff (by decide)).mpr (.inr (.inr fun ⟨_, hi, _, hreach⟩ =>
    absurd hreach (not_lt.mpr ((min_le_left _ _).trans (windowEdge_mono hi)))))

/-- Of ninety bars in three windows, the last rows of the second are rated by the third. -/
theorem not_isolatesHoldout_four : ¬ IsolatesHoldout 90 3 4 [75, 80, 85, 90, 95] :=
  not_isolatesHoldout (by decide) (by decide +kernel) ⟨0, by decide, by decide⟩
    ⟨1, by decide, by decide, by decide⟩

end TradingPlatform
