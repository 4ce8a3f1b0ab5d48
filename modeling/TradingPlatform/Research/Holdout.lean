import TradingPlatform.Lib.Choice
import TradingPlatform.Research.Stability

/-!
# The held-out window of a threshold sweep

The sweep chooses its threshold on the windows before the last. The targets are computed on the
whole data, so the last rows of those windows are rated by prices of the held-out window. That makes
a difference when a window with such a row has another row with a target, some window is large
enough to choose by, and there are two thresholds to choose from.
-/

namespace TradingPlatform

/-! ## The choice of a threshold -/

/-- The choice of a sweep by the scores of its thresholds. -/
def selectThreshold (thresholds : List ℚ) (trainScore : ℚ → WithBot ℚ)
    (windowScore : ℚ → ℕ → WithBot ℚ) (nTrainWindows : ℕ) : Option ℚ × Bool :=
  match (thresholds.filter fun θ => ⊥ < trainScore θ).argmax trainScore with
  | none => (none, true)
  | some best => (some best, ((List.range nTrainWindows).filter fun i =>
      thresholds.any fun θ => ⊥ < windowScore θ i).any fun i =>
        thresholds.argmax (windowScore · i) ≠ some best)

section Sweep

variable {df : List TargetRow} {baseSignal : BaseSignal} {magnitudeFilter : MagnitudeFilter}
  {thresholds : List ℚ} {nWindows : ℕ}

/-- What a sweep chooses: the best threshold and whether it is unstable. -/
def sweepChoice (df : List TargetRow) (baseSignal : BaseSignal) (magnitudeFilter : MagnitudeFilter)
    (thresholds : List ℚ) (nWindows : ℕ) : Except PyError (Option ℚ × Bool) :=
  (sweepPercentileThresholds df baseSignal magnitudeFilter thresholds nWindows).map fun r =>
    (r.bestThresholdOnTrain, r.bestThresholdRankUnstable)

theorem bestPoint_map (point : ℚ → PercentileSweepPoint) (thresholds : List ℚ) :
    bestPoint (thresholds.map point) =
      ((thresholds.filter fun θ => ⊥ < (point θ).trainScore).argmax
        fun θ => (point θ).trainScore).map point := by
  rw [bestPoint, List.filter_map, List.argmax_map]
  rfl

theorem perWindowRanks_map (point : ℚ → PercentileSweepPoint)
    (hpoint : ∀ θ, (point θ).percentileThreshold = θ) (thresholds : List ℚ) (k : ℕ) (best : ℚ) :
    (perWindowRanks (thresholds.map point) k best).any (! ·) =
      ((List.range k).filter fun i =>
        thresholds.any fun θ => ⊥ < (point θ).windowScore i).any fun i =>
          thresholds.argmax (fun θ => (point θ).windowScore i) ≠ some best := by
  unfold perWindowRanks
  rw [List.any_map]
  simp only [List.any_map, List.argmax_map, Function.comp_def]
  congr 1
  funext i
  cases thresholds.argmax fun θ => (point θ).windowScore i with
  | none => rfl
  | some winner => simp [hpoint]

/-- A sweep chooses by the scores of its points. -/
theorem sweepChoice_eq (hn : 2 ≤ nWindows) :
    sweepChoice df baseSignal magnitudeFilter thresholds nWindows =
      .ok (selectThreshold thresholds
        (fun θ => (sweepPoint df baseSignal magnitudeFilter nWindows θ).trainScore)
        (fun θ => (sweepPoint df baseSignal magnitudeFilter nWindows θ).windowScore)
        (nWindows - 1)) := by
  unfold sweepChoice sweepPercentileThresholds selectThreshold
  rw [if_neg (not_lt.mpr hn)]
  dsimp only
  rw [bestPoint_map]
  generalize (thresholds.filter fun θ =>
    ⊥ < (sweepPoint df baseSignal magnitudeFilter nWindows θ).trainScore).argmax (fun θ =>
      (sweepPoint df baseSignal magnitudeFilter nWindows θ).trainScore) = choice
  cases choice with
  | none => rfl
  | some best =>
    have hranks := perWindowRanks_map (sweepPoint df baseSignal magnitudeFilter nWindows)
      (fun _ => rfl) thresholds (nWindows - 1) best
    exact congrArg (fun unstable => Except.ok (some best, unstable)) hranks

end Sweep

/-! ## The targets of a window -/

/-- The end of the rows of a window that have a target. -/
def targetEnd (n nWindows horizon i : ℕ) : ℕ :=
  min (windowEdge n nWindows (i + 1)) (n - horizon)

/-- The rows of a window that have a target. -/
def targetRows (n nWindows horizon i : ℕ) : ℕ :=
  targetEnd n nWindows horizon i - windowEdge n nWindows i

theorem windowEdge_mono {n nWindows i j : ℕ} (h : i ≤ j) :
    windowEdge n nWindows i ≤ windowEdge n nWindows j :=
  Nat.div_le_div_right (Nat.mul_le_mul_right n h)

theorem windowEdge_le {n nWindows i : ℕ} (h : i ≤ nWindows) (hpos : 0 < nWindows) :
    windowEdge n nWindows i ≤ n := by
  unfold windowEdge
  calc i * n / nWindows ≤ nWindows * n / nWindows := Nat.div_le_div_right (Nat.mul_le_mul_right n h)
    _ = n := Nat.mul_div_cancel_left n hpos

theorem map_subWindow {α β : Type} (f : α → β) (l : List α) (nWindows i : ℕ) :
    (subWindow l nWindows i).map f = subWindow (l.map f) nWindows i := by
  simp [subWindow]

theorem length_computeForwardTargets (df : Frame) (horizon : ℕ) :
    (computeForwardTargets df horizon).length = df.length := by
  simp [computeForwardTargets]

theorem candle_computeForwardTargets (df : Frame) (horizon : ℕ) :
    (computeForwardTargets df horizon).map (·.candle) = df := by
  simp [computeForwardTargets, Function.comp_def]

theorem getElem?_subWindow {α : Type} (l : List α) (nWindows i j : ℕ) :
    (subWindow l nWindows i)[j]? =
      if windowEdge l.length nWindows i + j < windowEdge l.length nWindows (i + 1) then
        l[windowEdge l.length nWindows i + j]? else none := by
  rw [subWindow, List.getElem?_drop, List.getElem?_take]

theorem getElem?_fwdRet (df : Frame) (horizon t : ℕ) :
    ((computeForwardTargets df horizon).map (·.fwdRet))[t]? = df[t]?.map fun c =>
      df[t + horizon]?.map fun later => (later.bar.close / c.bar.close - 1) * 100 := by
  simp only [computeForwardTargets, List.map_map, List.getElem?_map, List.getElem?_zipIdx,
    Option.map_map, Function.comp_def, Nat.zero_add]

/-- The rows with a target are the first ones. -/
theorem isSome_fwdRet (df : Frame) (horizon : ℕ) :
    ((computeForwardTargets df horizon).map (·.fwdRet)).map Option.isSome =
      List.replicate (df.length - horizon) true ++
        List.replicate (df.length - (df.length - horizon)) false := by
  refine List.ext_getElem? fun t => ?_
  rw [List.getElem?_map, getElem?_fwdRet, List.getElem?_append, List.getElem?_replicate,
    List.getElem?_replicate, List.length_replicate]
  by_cases ht : t < df.length
  · rw [List.getElem?_eq_getElem ht]
    by_cases htarget : t + horizon < df.length
    · have hfirst : t < df.length - horizon := by omega
      simp [htarget, hfirst]
    · have hlast : ¬ t < df.length - horizon := by omega
      have hin : t - (df.length - horizon) < df.length - (df.length - horizon) := by omega
      simp [htarget, hlast, hin]
  · have hlast : ¬ t < df.length - horizon := by omega
    have hout : ¬ t - (df.length - horizon) < df.length - (df.length - horizon) := by omega
    rw [List.getElem?_eq_none (not_lt.mp ht), if_neg hlast, if_neg hout]
    rfl

theorem countP_isSome_window (df : Frame) (horizon nWindows i : ℕ) :
    (subWindow ((computeForwardTargets df horizon).map (·.fwdRet)) nWindows i).countP
      Option.isSome = targetRows df.length nWindows horizon i := by
  have hcount := List.countP_map (p := id) (f := Option.isSome)
    (l := subWindow ((computeForwardTargets df horizon).map (·.fwdRet)) nWindows i)
  rw [map_subWindow, isSome_fwdRet] at hcount
  change _ = List.countP Option.isSome _ at hcount
  rw [← hcount, subWindow, List.length_append, List.length_replicate, List.length_replicate]
  unfold targetRows targetEnd
  have hsplit : df.length - horizon + (df.length - (df.length - horizon)) = df.length := by omega
  rw [hsplit]
  simp [List.take_append, List.drop_append, List.countP_append, List.take_replicate,
    List.drop_replicate, List.countP_replicate]

/-! ## The trades of a window -/

section Trades

variable {fwd fwd' : List (Option ℚ)} {signal : ℕ → BaseLabel} {mask : ℕ → Bool}

theorem isSome_tradePnl (signal : ℕ → BaseLabel) (mask : ℕ → Bool) (o : Option ℚ) (i : ℕ) :
    (tradePnl signal mask (o, i)).isSome = (mask i && decide (signal i ≠ .other) && o.isSome) := by
  simp only [tradePnl]
  cases mask i <;> cases signal i <;> cases o <;> simp

/-- How many trades there are depends on the rows that have a target. -/
theorem length_pnls (hshape : fwd.map Option.isSome = fwd'.map Option.isSome) (k : ℕ) :
    ((fwd.zipIdx k).filterMap (tradePnl signal mask)).length =
      ((fwd'.zipIdx k).filterMap (tradePnl signal mask)).length := by
  induction fwd generalizing fwd' k with
  | nil => rw [List.map_eq_nil_iff.mp hshape.symm]
  | cons o fwd ih =>
    obtain ⟨o', fwd', rfl, hsome, hrest⟩ := List.map_eq_cons_iff.mp hshape.symm
    have hhead : (tradePnl signal mask (o, k)).isSome = (tradePnl signal mask (o', k)).isSome := by
      rw [isSome_tradePnl, isSome_tradePnl, hsome]
    rw [List.zipIdx_cons, List.zipIdx_cons, List.filterMap_cons, List.filterMap_cons]
    cases ho : tradePnl signal mask (o, k) with
    | none =>
      rw [ho] at hhead
      rw [Option.isSome_eq_false_iff.mp hhead.symm |> Option.isNone_iff_eq_none.mp]
      exact ih hrest.symm (k + 1)
    | some r =>
      rw [ho] at hhead
      obtain ⟨r', hr'⟩ := Option.isSome_iff_exists.mp hhead.symm
      rw [hr', List.length_cons, List.length_cons, ih hrest.symm (k + 1)]

theorem length_pnls_le (k : ℕ) :
    ((fwd.zipIdx k).filterMap (tradePnl signal mask)).length ≤ fwd.countP Option.isSome := by
  induction fwd generalizing k with
  | nil => exact le_rfl
  | cons o fwd ih =>
    rw [List.zipIdx_cons, List.filterMap_cons, List.countP_cons]
    cases ho : tradePnl signal mask (o, k) with
    | none => exact (ih (k + 1)).trans (Nat.le_add_right _ _)
    | some r =>
      have hsome : o.isSome := by
        have htrade := isSome_tradePnl signal mask o k
        rw [ho] at htrade
        exact (Bool.and_eq_true_iff.mp htrade.symm).2
      rw [if_pos hsome, List.length_cons]
      exact Nat.succ_le_succ (ih (k + 1))

/-- The gate only drops trades. -/
theorem pnls_sublist (k : ℕ) :
    ((fwd.zipIdx k).filterMap (tradePnl signal mask)).Sublist
      ((fwd.zipIdx k).filterMap (tradePnl signal fun _ => true)) := by
  induction fwd generalizing k with
  | nil => exact .slnil
  | cons o fwd ih =>
    rw [List.zipIdx_cons, List.filterMap_cons, List.filterMap_cons]
    by_cases hmask : mask k = true
    · have hsame : tradePnl signal mask (o, k) = tradePnl signal (fun _ => true) (o, k) := by
        simp [tradePnl, hmask]
      rw [hsame]
      cases tradePnl signal (fun _ => true) (o, k) with
      | none => exact ih (k + 1)
      | some r => exact (ih (k + 1)).cons_cons r
    · have hnone : tradePnl signal mask (o, k) = none := by simp [tradePnl, hmask]
      rw [hnone]
      cases tradePnl signal (fun _ => true) (o, k) with
      | none => exact ih (k + 1)
      | some r => exact (ih (k + 1)).cons r

theorem tradePnls_sublist (window : List TargetRow) :
    (tradePnls window signal mask).Sublist (tradePnls window signal fun _ => true) :=
  pnls_sublist 0

theorem length_tradePnls_le (window : List TargetRow) :
    (tradePnls window signal mask).length ≤ (window.map (·.fwdRet)).countP Option.isSome :=
  length_pnls_le 0

/-- The improvement of the win rate, by the trades. -/
def improvement (filtered baseline : List ℚ) : Option ℚ := do
  let filteredRate ← (tradeStatsFromPnls filtered).winRate
  let baselineRate ← (tradeStatsFromPnls baseline).winRate
  return filteredRate - baselineRate

theorem improvement_nil (baseline : List ℚ) : improvement [] baseline = none := rfl

theorem improvement_self {pnls : List ℚ} (hne : pnls ≠ []) : improvement pnls pnls = some 0 := by
  have hrate : ∃ rate, (tradeStatsFromPnls pnls).winRate = some rate :=
    ⟨_, if_neg hne⟩
  obtain ⟨rate, hrate⟩ := hrate
  unfold improvement
  rw [hrate]
  exact congrArg some (sub_self rate)

theorem isSome_improvement {filtered baseline : List ℚ} (hsub : filtered.Sublist baseline) :
    (improvement filtered baseline).isSome ↔ filtered ≠ [] := by
  constructor
  · rintro hsome rfl
    cases hsome
  · intro hne
    have hbase : baseline ≠ [] := fun hnil => hne (List.sublist_nil.mp (hnil ▸ hsub))
    simp [improvement, tradeStatsFromPnls, hne, hbase]

/-- One trade does not improve on itself. -/
theorem improvement_of_few {filtered baseline : List ℚ} (hsub : filtered.Sublist baseline)
    (hfew : baseline.length ≤ 1) :
    improvement filtered baseline = if filtered = [] then none else some 0 := by
  split
  · next hnil => rw [hnil, improvement_nil]
  · next hne =>
    have hpos := List.length_pos_iff.mpr hne
    rw [hsub.eq_of_length_le (by omega)] at hne ⊢
    exact improvement_self hne

end Trades

/-! ## Two windows with the same bars -/

/-- The value at a row depends on the bars up to that row only. -/
def Causal {α : Type} (series : WindowSeries α) : Prop :=
  ∀ window window' i,
    (window.take (i + 1)).map (·.candle) = (window'.take (i + 1)).map (·.candle) →
      series window i = series window' i

theorem Causal.eq_of_candles {α : Type} {series : WindowSeries α} (h : Causal series)
    {window window' : List TargetRow} (hbars : window.map (·.candle) = window'.map (·.candle)) :
    series window = series window' := by
  funext i
  refine h window window' i ?_
  rw [List.map_take, List.map_take, hbars]

section Windows

variable {baseSignal : BaseSignal} {magnitudeFilter : MagnitudeFilter} {θ : ℚ} {nWindows i : ℕ}
  {window window' : List TargetRow}

/-- The bars of the windows are the same, and the same rows have a target. -/
structure SameBars (window window' : List TargetRow) : Prop where
  candles : window.map (·.candle) = window'.map (·.candle)
  targets : (window.map (·.fwdRet)).map Option.isSome = (window'.map (·.fwdRet)).map Option.isSome

theorem SameBars.trades_eq (h : SameBars window window') (hsignal : Causal baseSignal)
    (hfilter : Causal magnitudeFilter) (θ : ℚ) (nWindows i : ℕ) :
    (evaluateWindow baseSignal magnitudeFilter θ nWindows window i).filteredStats.trades =
      (evaluateWindow baseSignal magnitudeFilter θ nWindows window' i).filteredStats.trades := by
  unfold evaluateWindow
  rw [hsignal.eq_of_candles h.candles, hfilter.eq_of_candles h.candles]
  exact length_pnls h.targets 0

theorem SameBars.isSome_improvement_eq (h : SameBars window window') (hsignal : Causal baseSignal)
    (hfilter : Causal magnitudeFilter) (θ : ℚ) (nWindows i : ℕ) :
    (evaluateWindow baseSignal magnitudeFilter θ nWindows window i).winRateImprovementPp.isSome ↔
      (evaluateWindow baseSignal magnitudeFilter θ nWindows window'
        i).winRateImprovementPp.isSome := by
  have hlength := h.trades_eq hsignal hfilter θ nWindows i
  change (improvement _ _).isSome ↔ (improvement _ _).isSome
  rw [isSome_improvement (tradePnls_sublist window), isSome_improvement (tradePnls_sublist window'),
    ← List.length_pos_iff, ← List.length_pos_iff]
  exact iff_of_eq (congrArg (0 < ·) hlength)

/-- The improvement is the same if the targets are, or if there is one at most. -/
theorem SameBars.improvement_eq (h : SameBars window window') (hsignal : Causal baseSignal)
    (hfilter : Causal magnitudeFilter)
    (hfwd : window.map (·.fwdRet) = window'.map (·.fwdRet) ∨
      (window.map (·.fwdRet)).countP Option.isSome ≤ 1) :
    (evaluateWindow baseSignal magnitudeFilter θ nWindows window i).winRateImprovementPp =
      (evaluateWindow baseSignal magnitudeFilter θ nWindows window' i).winRateImprovementPp := by
  have htrades := h.trades_eq hsignal hfilter θ nWindows i
  rcases hfwd with hsame | hfew
  · unfold evaluateWindow tradePnls
    rw [hsignal.eq_of_candles h.candles, hfilter.eq_of_candles h.candles, hsame]
  · have hfew' : (window'.map (·.fwdRet)).countP Option.isSome ≤ 1 := by
      have hcount := congrArg (List.countP id) h.targets
      rw [List.countP_map (f := Option.isSome), List.countP_map (f := Option.isSome)] at hcount
      exact hcount.symm.trans_le hfew
    change improvement _ _ = improvement _ _
    rw [improvement_of_few (tradePnls_sublist window) ((length_tradePnls_le window).trans hfew),
      improvement_of_few (tradePnls_sublist window') ((length_tradePnls_le window').trans hfew')]
    refine if_congr ?_ rfl rfl
    rw [← List.length_eq_zero_iff, ← List.length_eq_zero_iff]
    exact iff_of_eq (congrArg (· = 0) htrades)

end Windows

/-! ## The scores of a point -/

/-- The windows that the threshold is chosen on. -/
def trainWindows (n nWindows : ℕ) : List ℕ :=
  (List.range nWindows).filter fun i =>
    windowEdge n nWindows i < windowEdge n nWindows (i + 1) ∧ i < nWindows - 1

theorem mem_trainWindows {n nWindows i : ℕ} : i ∈ trainWindows n nWindows ↔
    i < nWindows - 1 ∧ windowEdge n nWindows i < windowEdge n nWindows (i + 1) := by
  rw [trainWindows, List.mem_filter, List.mem_range, decide_eq_true_iff]
  omega

section Scores

variable {rows : List TargetRow} {baseSignal : BaseSignal} {magnitudeFilter : MagnitudeFilter}
  {nWindows : ℕ} {θ : ℚ}

theorem length_subWindow {α : Type} (l : List α) {nWindows i : ℕ} (hi : i < nWindows) :
    (subWindow l nWindows i).length =
      windowEdge l.length nWindows (i + 1) - windowEdge l.length nWindows i := by
  rw [subWindow, List.length_drop, List.length_take,
    min_eq_left (windowEdge_le hi (Nat.zero_lt_of_lt hi))]

/-- A window of a sweep. -/
def sweepWindow (rows : List TargetRow) (baseSignal : BaseSignal)
    (magnitudeFilter : MagnitudeFilter) (nWindows : ℕ) (θ : ℚ) (i : ℕ) : SubWindowResult :=
  evaluateWindow baseSignal magnitudeFilter θ nWindows (subWindow rows nWindows i) i

theorem trainStats_sweepPoint :
    (sweepPoint rows baseSignal magnitudeFilter nWindows θ).trainStats =
      (trainWindows rows.length nWindows).map
        (sweepWindow rows baseSignal magnitudeFilter nWindows θ) := by
  unfold sweepPoint evaluateCandidateStability trainWindows
  dsimp only
  rw [List.filter_map, List.filter_filter]
  congr 1
  refine List.filter_congr fun i hi => ?_
  have hlength := length_subWindow rows (List.mem_range.mp hi)
  rw [Function.comp_apply, ← Bool.decide_and, decide_eq_decide, and_comm]
  refine and_congr_left fun _ => ?_
  rw [← List.length_pos_iff, hlength]
  omega

/-- The improvement of a window that has enough trades to count. -/
def countedImprovement (rows : List TargetRow) (baseSignal : BaseSignal)
    (magnitudeFilter : MagnitudeFilter) (nWindows : ℕ) (θ : ℚ) (i : ℕ) : Option ℚ :=
  let r := sweepWindow rows baseSignal magnitudeFilter nWindows θ i
  if minTradesForComparison ≤ r.filteredStats.trades then r.winRateImprovementPp else none

theorem trainScore_sweepPoint :
    (sweepPoint rows baseSignal magnitudeFilter nWindows θ).trainScore =
      let valid := (trainWindows rows.length nWindows).filterMap
        (countedImprovement rows baseSignal magnitudeFilter nWindows θ)
      if valid = [] then ⊥ else ↑(valid.sum / valid.length) := by
  unfold PercentileSweepPoint.trainScore
  rw [trainStats_sweepPoint, List.filterMap_map]
  rfl

theorem findSome?_eq {β : Type} (l : List ℕ) (f : ℕ → Option β) (i : ℕ) :
    (l.findSome? fun j => if j = i then f j else none) = if i ∈ l then f i else none := by
  induction l with
  | nil => rfl
  | cons j l ih =>
    rw [List.findSome?_cons, ih]
    by_cases hj : j = i
    · subst hj
      rw [if_pos rfl, if_pos List.mem_cons_self]
      cases f j with
      | none => simp
      | some b => rfl
    · rw [if_neg hj]
      simp [List.mem_cons, Ne.symm hj]

theorem windowScore_sweepPoint (i : ℕ) :
    (sweepPoint rows baseSignal magnitudeFilter nWindows θ).windowScore i =
      if i ∈ trainWindows rows.length nWindows then
        (sweepWindow rows baseSignal magnitudeFilter nWindows θ i).winRateImprovementPp
      else none := by
  unfold PercentileSweepPoint.windowScore
  rw [trainStats_sweepPoint, List.findSome?_map]
  exact findSome?_eq _ _ i

end Scores

/-! ## Isolation -/

/-- For frames of `n` priced bars that agree before the last window, causal signals and filters and
the thresholds, a sweep makes the same choice. -/
def IsolatesHoldout (n nWindows horizon : ℕ) (thresholds : List ℚ) : Prop :=
  ∀ (baseSignal : BaseSignal) (magnitudeFilter : MagnitudeFilter), Causal baseSignal →
    Causal magnitudeFilter → ∀ df df' : Frame, df.length = n → df'.length = n →
      (∀ c ∈ df, 0 < c.bar.close) → (∀ c ∈ df', 0 < c.bar.close) →
      df.take (windowEdge n nWindows (nWindows - 1)) =
        df'.take (windowEdge n nWindows (nWindows - 1)) →
      sweepChoice (computeForwardTargets df horizon) baseSignal magnitudeFilter thresholds
          nWindows =
        sweepChoice (computeForwardTargets df' horizon) baseSignal magnitudeFilter thresholds
          nWindows

/-- Some window before the last has enough rows with a target to choose by. -/
def Sampled (n nWindows horizon : ℕ) : Prop :=
  ∃ i < nWindows - 1, minTradesForComparison ≤ targetRows n nWindows horizon i

/-- Some window before the last has a row whose target is a price of the last window, and another
row with a target. -/
def Exposed (n nWindows horizon : ℕ) : Prop :=
  ∃ i < nWindows - 1, 2 ≤ targetRows n nWindows horizon i ∧
    windowEdge n nWindows (nWindows - 1) < targetEnd n nWindows horizon i + horizon

section Isolation

variable {df df' : Frame} {nWindows horizon i : ℕ} {baseSignal : BaseSignal}
  {magnitudeFilter : MagnitudeFilter} {θ : ℚ} {thresholds : List ℚ}

theorem getElem?_of_take {α : Type} {l l' : List α} {m t : ℕ} (h : l.take m = l'.take m)
    (ht : t < m) : l[t]? = l'[t]? := by
  have hat := congrArg (·[t]?) h
  simpa only [List.getElem?_take, if_pos ht] using hat

/-- A window before the last has the same bars in both frames. -/
theorem sameBars_subWindow (hlength : df.length = df'.length)
    (hsame : df.take (windowEdge df.length nWindows (nWindows - 1)) =
      df'.take (windowEdge df.length nWindows (nWindows - 1))) (hi : i < nWindows - 1) :
    SameBars (subWindow (computeForwardTargets df horizon) nWindows i)
      (subWindow (computeForwardTargets df' horizon) nWindows i) where
  candles := by
    rw [map_subWindow, map_subWindow, candle_computeForwardTargets, candle_computeForwardTargets]
    refine List.ext_getElem? fun j => ?_
    rw [getElem?_subWindow, getElem?_subWindow, ← hlength]
    split
    · next hj => exact getElem?_of_take hsame (hj.trans_le (windowEdge_mono hi))
    · rfl
  targets := by
    rw [map_subWindow, map_subWindow, map_subWindow, map_subWindow, isSome_fwdRet, isSome_fwdRet,
      hlength]

/-- Without a row whose target is a price of the last window, the targets are the same. -/
theorem fwdRet_subWindow (hlength : df.length = df'.length)
    (hsame : df.take (windowEdge df.length nWindows (nWindows - 1)) =
      df'.take (windowEdge df.length nWindows (nWindows - 1))) (hi : i < nWindows - 1)
    (hbefore : targetEnd df.length nWindows horizon i + horizon ≤
      windowEdge df.length nWindows (nWindows - 1)) :
    (subWindow (computeForwardTargets df horizon) nWindows i).map (·.fwdRet) =
      (subWindow (computeForwardTargets df' horizon) nWindows i).map (·.fwdRet) := by
  rw [map_subWindow, map_subWindow]
  refine List.ext_getElem? fun j => ?_
  rw [getElem?_subWindow, getElem?_subWindow, List.length_map, List.length_map,
    length_computeForwardTargets, length_computeForwardTargets, ← hlength]
  split
  · next hj =>
    rw [getElem?_fwdRet, getElem?_fwdRet,
      getElem?_of_take hsame (hj.trans_le (windowEdge_mono hi))]
    by_cases htarget : windowEdge df.length nWindows i + j + horizon < df.length
    · unfold targetEnd at hbefore
      rw [getElem?_of_take hsame (by omega)]
    · have hpast : df[windowEdge df.length nWindows i + j + horizon]? = none :=
        List.getElem?_eq_none (not_lt.mp htarget)
      have hpast' : df'[windowEdge df.length nWindows i + j + horizon]? = none :=
        List.getElem?_eq_none (hlength ▸ not_lt.mp htarget)
      rw [hpast, hpast']
  · rfl

/-! ### The three ways to be isolated -/

theorem bot_lt_trainScore {rows : List TargetRow} :
    ⊥ < (sweepPoint rows baseSignal magnitudeFilter nWindows θ).trainScore ↔
      ∃ i ∈ trainWindows rows.length nWindows,
        (countedImprovement rows baseSignal magnitudeFilter nWindows θ i).isSome := by
  rw [trainScore_sweepPoint]
  dsimp only
  split
  · next hnone =>
    refine iff_of_false (lt_irrefl _) ?_
    rintro ⟨i, hi, hsome⟩
    rw [List.filterMap_eq_nil_iff.mp hnone i hi] at hsome
    cases hsome
  · next hsome =>
    refine iff_of_true (WithBot.bot_lt_coe _) ?_
    by_contra hnone
    push Not at hnone
    exact hsome (List.filterMap_eq_nil_iff.mpr fun i hi =>
      Option.not_isSome_iff_eq_none.mp (hnone i hi))

/-- Too small windows leave nothing to choose by. -/
theorem selectThreshold_of_none {trainScore : ℚ → WithBot ℚ} (h : ∀ θ, ¬ ⊥ < trainScore θ)
    (windowScore : ℚ → ℕ → WithBot ℚ) (k : ℕ) :
    selectThreshold thresholds trainScore windowScore k = (none, true) := by
  have hnone : (thresholds.filter fun θ => ⊥ < trainScore θ) = [] :=
    List.filter_eq_nil_iff.mpr fun θ _ => by simpa using h θ
  unfold selectThreshold
  rw [hnone]
  rfl

/-- With one threshold there is no choice but whether to make one. -/
theorem selectThreshold_of_single {trainScore trainScore' : ℚ → WithBot ℚ}
    (hall : ∀ θ ∈ thresholds, ∀ θ' ∈ thresholds, θ = θ')
    (hsame : ∀ θ, ⊥ < trainScore θ ↔ ⊥ < trainScore' θ)
    (windowScore windowScore' : ℚ → ℕ → WithBot ℚ) (k : ℕ) :
    selectThreshold thresholds trainScore windowScore k =
      selectThreshold thresholds trainScore' windowScore' k := by
  have hstable : ∀ (ws : ℚ → ℕ → WithBot ℚ), ∀ best ∈ thresholds,
      (((List.range k).filter fun i => thresholds.any fun θ => ⊥ < ws θ i).any fun i =>
        decide (thresholds.argmax (ws · i) ≠ some best)) = false := by
    intro ws best hbest
    refine List.any_eq_false.mpr fun i _ => ?_
    rw [decide_eq_true_iff, not_not]
    cases hwinner : thresholds.argmax (ws · i) with
    | none =>
      rw [List.argmax_eq_none.mp hwinner] at hbest
      cases hbest
    | some winner => rw [hall winner (List.argmax_mem hwinner) best hbest]
  have heligible : (thresholds.filter fun θ => ⊥ < trainScore θ) =
      thresholds.filter fun θ => ⊥ < trainScore' θ :=
    List.filter_congr fun θ _ => decide_eq_decide.mpr (hsame θ)
  unfold selectThreshold
  rw [heligible]
  generalize hE : (thresholds.filter fun θ => ⊥ < trainScore' θ) = eligible
  have hmem : ∀ θ ∈ eligible, θ ∈ thresholds := fun θ hθ => List.mem_of_mem_filter (hE ▸ hθ)
  cases hbest : eligible.argmax trainScore with
  | none =>
    rw [List.argmax_eq_none.mp hbest]
    rfl
  | some best =>
    have hin := hmem best (List.argmax_mem hbest)
    cases hbest' : eligible.argmax trainScore' with
    | none =>
      rw [List.argmax_eq_none.mp hbest'] at hbest
      cases hbest
    | some best' =>
      have hin' := hmem best' (List.argmax_mem hbest')
      dsimp only
      rw [hstable windowScore best hin, hstable windowScore' best' hin', hall best hin best' hin']

theorem countP_fwdRet_subWindow (df : Frame) (horizon nWindows i : ℕ) :
    ((subWindow (computeForwardTargets df horizon) nWindows i).map (·.fwdRet)).countP
      Option.isSome = targetRows df.length nWindows horizon i := by
  rw [map_subWindow, countP_isSome_window]

section Agreeing

variable {rows rows' : List TargetRow}

/-- Whether a threshold has a score does not depend on the targets. -/
theorem bot_lt_trainScore_congr (hsignal : Causal baseSignal) (hfilter : Causal magnitudeFilter)
    (hlength : rows'.length = rows.length)
    (hbars : ∀ i < nWindows - 1,
      SameBars (subWindow rows nWindows i) (subWindow rows' nWindows i)) :
    ⊥ < (sweepPoint rows baseSignal magnitudeFilter nWindows θ).trainScore ↔
      ⊥ < (sweepPoint rows' baseSignal magnitudeFilter nWindows θ).trainScore := by
  rw [bot_lt_trainScore, bot_lt_trainScore, hlength]
  refine exists_congr fun i => and_congr_right fun hi => ?_
  have hi' := (mem_trainWindows.mp hi).1
  have htrades := (hbars i hi').trades_eq hsignal hfilter θ nWindows i
  have himprove := (hbars i hi').isSome_improvement_eq hsignal hfilter θ nWindows i
  unfold countedImprovement sweepWindow
  dsimp only
  rw [htrades]
  split
  · exact himprove
  · rfl

/-- With the same improvements the choice is the same. -/
theorem selectThreshold_congr (hsignal : Causal baseSignal) (hfilter : Causal magnitudeFilter)
    (hlength : rows'.length = rows.length)
    (hbars : ∀ i < nWindows - 1,
      SameBars (subWindow rows nWindows i) (subWindow rows' nWindows i))
    (himprove : ∀ i < nWindows - 1, ∀ θ,
      (sweepWindow rows baseSignal magnitudeFilter nWindows θ i).winRateImprovementPp =
        (sweepWindow rows' baseSignal magnitudeFilter nWindows θ i).winRateImprovementPp) (k : ℕ) :
    selectThreshold thresholds
        (fun θ => (sweepPoint rows baseSignal magnitudeFilter nWindows θ).trainScore)
        (fun θ => (sweepPoint rows baseSignal magnitudeFilter nWindows θ).windowScore) k =
      selectThreshold thresholds
        (fun θ => (sweepPoint rows' baseSignal magnitudeFilter nWindows θ).trainScore)
        (fun θ => (sweepPoint rows' baseSignal magnitudeFilter nWindows θ).windowScore) k := by
  have hcounted : ∀ i ∈ trainWindows rows.length nWindows, ∀ θ,
      countedImprovement rows baseSignal magnitudeFilter nWindows θ i =
        countedImprovement rows' baseSignal magnitudeFilter nWindows θ i := by
    intro i hi θ
    have hi' := (mem_trainWindows.mp hi).1
    have htrades := (hbars i hi').trades_eq hsignal hfilter θ nWindows i
    unfold countedImprovement
    dsimp only
    rw [himprove i hi' θ]
    unfold sweepWindow
    rw [htrades]
  congr 1
  · funext θ
    rw [trainScore_sweepPoint, trainScore_sweepPoint, hlength,
      List.filterMap_congr fun i hi => hcounted i hi θ]
  · funext θ i
    rw [windowScore_sweepPoint, windowScore_sweepPoint, hlength]
    split
    · next hi => rw [himprove i (mem_trainWindows.mp hi).1 θ]
    · rfl

end Agreeing

/-- Windows without enough targets leave every threshold without a score. -/
theorem not_bot_lt_trainScore (h : ¬ Sampled df.length nWindows horizon) :
    ¬ ⊥ < (sweepPoint (computeForwardTargets df horizon) baseSignal magnitudeFilter nWindows
      θ).trainScore := by
  intro hsome
  obtain ⟨i, hi, hsome⟩ := bot_lt_trainScore.mp hsome
  rw [length_computeForwardTargets] at hi
  unfold countedImprovement sweepWindow at hsome
  dsimp only at hsome
  split at hsome
  · next htrades =>
    refine h ⟨i, (mem_trainWindows.mp hi).1, htrades.trans ?_⟩
    rw [← countP_fwdRet_subWindow]
    exact length_tradePnls_le _
  · cases hsome

/-- Where one of the three holds, the last window does not influence the choice. -/
theorem isolatesHoldout_of {n : ℕ} (hn : 2 ≤ nWindows)
    (h : (∀ θ ∈ thresholds, ∀ θ' ∈ thresholds, θ = θ') ∨ ¬ Sampled n nWindows horizon ∨
      ¬ Exposed n nWindows horizon) : IsolatesHoldout n nWindows horizon thresholds := by
  rintro baseSignal magnitudeFilter hsignal hfilter df df' rfl hlength - - hsame
  have hbars : ∀ i < nWindows - 1, SameBars
      (subWindow (computeForwardTargets df horizon) nWindows i)
      (subWindow (computeForwardTargets df' horizon) nWindows i) := fun i hi =>
    sameBars_subWindow hlength.symm hsame hi
  have hrows : (computeForwardTargets df' horizon).length =
      (computeForwardTargets df horizon).length := by
    rw [length_computeForwardTargets, length_computeForwardTargets, hlength]
  rw [sweepChoice_eq hn, sweepChoice_eq hn]
  congr 1
  rcases h with hsingle | hsmall | hhidden
  · exact selectThreshold_of_single hsingle
      (fun θ => bot_lt_trainScore_congr hsignal hfilter hrows hbars) _ _ _
  · have hsmall' : ¬ Sampled df'.length nWindows horizon := hlength ▸ hsmall
    rw [selectThreshold_of_none fun θ => not_bot_lt_trainScore hsmall,
      selectThreshold_of_none fun θ => not_bot_lt_trainScore hsmall']
  · refine selectThreshold_congr hsignal hfilter hrows hbars (fun i hi θ => ?_) _
    refine (hbars i hi).improvement_eq hsignal hfilter ?_
    by_cases hfew : targetRows df.length nWindows horizon i ≤ 1
    · exact .inr (countP_fwdRet_subWindow df horizon nWindows i ▸ hfew)
    · refine .inl (fwdRet_subWindow hlength.symm hsame hi (not_lt.mp fun hlt => ?_))
      exact hhidden ⟨i, hi, by omega, hlt⟩

end Isolation

end TradingPlatform
