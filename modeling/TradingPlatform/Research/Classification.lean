import TradingPlatform.Research.Holdout
import TradingPlatform.Research.Magnitude

/-!
# Classification by a magnitude gate

The bars where a direction has a side and a target are trades. A gate keeps those where a magnitude
reaches a threshold. The trades before and after it are rated twice, by the prices and net of the
costs of a round trip.
-/

namespace TradingPlatform

open Online

/-! ## The statistics of trades -/

/-- `TradeStats`; an infinite profit factor is `⊤`, and what is not a number is `none`. -/
structure FullTradeStats where
  trades : ℕ
  winRate : Option ℚ
  expectancy : Option ℚ
  profitFactor : Option (WithTop ℚ)
  avgWin : Option ℚ
  avgLoss : Option ℚ
  maxDrawdownPct : Option ℚ
  deriving DecidableEq

/-- `_EMPTY_TRADE_STATS` -/
def emptyTradeStats : FullTradeStats where
  trades := 0
  winRate := none
  expectancy := none
  profitFactor := none
  avgWin := none
  avgLoss := none
  maxDrawdownPct := none

def grossProfit (pnls : List ℚ) : ℚ := (pnls.filter (0 < ·)).sum

def grossLoss (pnls : List ℚ) : ℚ := -(pnls.filter (· ≤ 0)).sum

def profitFactor (pnls : List ℚ) : WithTop ℚ :=
  if 0 < grossLoss pnls then ↑(grossProfit pnls / grossLoss pnls)
  else if grossProfit pnls ≠ 0 then ⊤
  else 0

/-- The drawdowns of the trades after an equity and its peak. -/
def drawdownsFrom (equity peak : ℚ) : List ℚ → List ℚ
  | [] => []
  | pnl :: rest =>
    let equity := equity + pnl
    let peak := max peak equity
    (peak - equity) :: drawdownsFrom equity peak rest

/-- The peaks of the cumulated trades less the cumulated trades. -/
def drawdowns : List ℚ → List ℚ
  | [] => []
  | pnl :: rest => (pnl - pnl) :: drawdownsFrom pnl pnl rest

/-- `_trade_stats_from_pnls` -/
def fullTradeStats (pnls : List ℚ) : FullTradeStats :=
  if pnls = [] then emptyTradeStats else
    let wins := pnls.filter (0 < ·)
    let losses := pnls.filter (· ≤ 0)
    { trades := pnls.length
      winRate := some ((wins.length : ℚ) / pnls.length * 100)
      expectancy := some (mean pnls)
      profitFactor := some (profitFactor pnls)
      avgWin := some (if wins = [] then 0 else mean wins)
      avgLoss := some (if losses = [] then 0 else mean losses)
      maxDrawdownPct := (drawdowns pnls).max? }

/-- The costs of a round trip, in percent. -/
def roundTripCostPct (fillModel : FillModel) : ℚ :=
  2 * (fillModel.feeBps + fillModel.slippageBps) / 100

/-- `_net_of_fees` with the default fill model. -/
def netOfFees (fillModel : FillModel) (pnls : List ℚ) : FullTradeStats :=
  fullTradeStats (pnls.map (· - roundTripCostPct fillModel))

/-! ## The gate -/

/-- The label of a row; a bar without one is held. -/
def labelAt (labels : List BaseLabel) (i : ℕ) : BaseLabel := labels[i]?.getD .other

/-- The magnitude of a row, if it has one. -/
def magnitudeAt (column : Series ℚ) (i : ℕ) : Option ℚ := column[i]?.join

/-- A row that is traded. -/
def isActive (signal : ℕ → BaseLabel) (mask : ℕ → Bool) (row : Option ℚ × ℕ) : Bool :=
  decide (signal row.2 ≠ .other) && row.1.isSome && mask row.2

/-- A row whose target agrees with its direction. -/
def isWin (signal : ℕ → BaseLabel) (row : Option ℚ × ℕ) : Bool :=
  (decide (signal row.2 = .up) && row.1.any (0 < ·)) ||
    (decide (signal row.2 = .down) && row.1.any (· < 0))

/-- `_directional_win_rate` -/
def directionalWinRate (rows : List TargetRow) (signal : ℕ → BaseLabel) (mask : ℕ → Bool) :
    ℕ × Option ℚ :=
  let active := ((rows.map (·.fwdRet)).zipIdx).filter (isActive signal mask)
  if active = [] then (0, none)
  else (active.length, some ((active.countP (isWin signal) : ℚ) / active.length * 100))

structure ClassificationResult where
  baseSignal : String
  filterName : String
  filterThresholdPercentile : ℚ
  horizon : ℕ
  baselineTrades : ℕ
  baselineWinRate : Option ℚ
  filteredTrades : ℕ
  filteredWinRate : Option ℚ
  winRateImprovementPp : Option ℚ
  passesThreshold : Bool
  baselineStats : FullTradeStats
  filteredStats : FullTradeStats
  baselineStatsNetFees : FullTradeStats
  filteredStatsNetFees : FullTradeStats

/-- `MIN_WIN_RATE_IMPROVEMENT_PP` -/
def minWinRateImprovementPp : ℚ := 2

/-- `evaluate_magnitude_gate` -/
def evaluateMagnitudeGate (fillModel : FillModel) (df : Frame) (baseSignalName : String)
    (baseSignal : List BaseLabel) (filterName : String) (filterSeries : Series ℚ)
    (percentileThreshold : ℚ) (horizon : ℕ) : ClassificationResult :=
  let rows := computeForwardTargets df horizon
  let signal := labelAt baseSignal
  let gate := gateMask (magnitudeAt filterSeries) percentileThreshold
  let baseline := directionalWinRate rows signal fun _ => true
  let filtered := directionalWinRate rows signal gate
  let improvement := do
    let filteredRate ← filtered.2
    let baselineRate ← baseline.2
    return filteredRate - baselineRate
  let baselinePnls := tradePnls rows signal fun _ => true
  let filteredPnls := tradePnls rows signal gate
  { baseSignal := baseSignalName
    filterName
    filterThresholdPercentile := percentileThreshold
    horizon
    baselineTrades := baseline.1
    baselineWinRate := baseline.2
    filteredTrades := filtered.1
    filteredWinRate := filtered.2
    winRateImprovementPp := improvement
    passesThreshold := decide (minTradesForComparison ≤ filtered.1) &&
      improvement.any (minWinRateImprovementPp ≤ ·)
    baselineStats := fullTradeStats baselinePnls
    filteredStats := fullTradeStats filteredPnls
    baselineStatsNetFees := netOfFees fillModel baselinePnls
    filteredStatsNetFees := netOfFees fillModel filteredPnls }

/-- The bars of a frame. -/
def barsOf (df : Frame) : List Bar := df.map (·.bar)

/-- `run_classification_phase` -/
def runClassificationPhase (fillModel : FillModel) (df : Frame)
    (baseSignals : List (String × DirectionSignal))
    (magnitudeFilters : List (String × MagnitudePredictor)) (percentileThresholds : List ℚ)
    (horizons : List ℕ) : Computed (List ClassificationResult) := do
  let results ← baseSignals.mapM fun base => do
    let baseSignal ← base.2 (barsOf df)
    let results ← magnitudeFilters.mapM fun filter => do
      let filterSeries ← filter.2 (barsOf df)
      return percentileThresholds.flatMap fun threshold => horizons.map fun horizon =>
        evaluateMagnitudeGate fillModel df base.1 baseSignal filter.1 filterSeries threshold horizon
    return results.flatten
  return results.flatten

/-! ## The two ratings of the trades -/

section

variable {signal : ℕ → BaseLabel} {mask : ℕ → Bool}

/-- The trades of the rows are the active ones, and those with a profit are the wins. -/
theorem pnls_active (rows : List (Option ℚ × ℕ)) :
    (rows.filterMap (tradePnl signal mask)).length = (rows.filter (isActive signal mask)).length ∧
    (rows.filterMap (tradePnl signal mask)).countP (0 < ·) =
      (rows.filter (isActive signal mask)).countP (isWin signal) := by
  induction rows with
  | nil => exact ⟨rfl, rfl⟩
  | cons row rest ih =>
    obtain ⟨fwd, i⟩ := row
    rw [List.filterMap_cons, List.filter_cons]
    by_cases hactive : isActive signal mask (fwd, i) = true
    · obtain ⟨hlabel, hmask⟩ := Bool.and_eq_true_iff.mp hactive
      obtain ⟨hlabel, htarget⟩ := Bool.and_eq_true_iff.mp hlabel
      obtain ⟨r, rfl⟩ := Option.isSome_iff_exists.mp htarget
      have htrade : ∃ pnl, tradePnl signal mask (some r, i) = some pnl ∧
          decide (0 < pnl) = isWin signal (some r, i) := by
        change mask i = true at hmask
        simp only [tradePnl, hmask, if_true, isWin]
        cases hside : signal i with
        | up => exact ⟨r, rfl, by simp⟩
        | down => exact ⟨-r, rfl, by simp⟩
        | other =>
          rw [decide_eq_true_iff] at hlabel
          exact absurd hside hlabel
      obtain ⟨pnl, hpnl, hwin⟩ := htrade
      rw [hpnl, if_pos hactive, List.length_cons, List.length_cons, List.countP_cons,
        List.countP_cons, ih.1, ih.2, hwin]
      exact ⟨rfl, rfl⟩
    · have hnone : tradePnl signal mask (fwd, i) = none := by
        rw [← Option.not_isSome_iff_eq_none, isSome_tradePnl]
        rw [isActive, Bool.and_comm, ← Bool.and_assoc] at hactive
        exact hactive
      rw [hnone, if_neg hactive]
      exact ih

theorem directionalWinRate_eq (rows : List TargetRow) :
    directionalWinRate rows signal mask = ((fullTradeStats (tradePnls rows signal mask)).trades,
      (fullTradeStats (tradePnls rows signal mask)).winRate) := by
  obtain ⟨hlength, hwins⟩ := @pnls_active signal mask (rows.map (·.fwdRet)).zipIdx
  change (tradePnls rows signal mask).length = _ at hlength
  change (tradePnls rows signal mask).countP (0 < ·) = _ at hwins
  rw [List.countP_eq_length_filter] at hwins
  unfold directionalWinRate fullTradeStats
  dsimp only
  by_cases hnone : tradePnls rows signal mask = []
  · rw [if_pos hnone, if_pos]
    · rfl
    · rw [← List.length_eq_zero_iff, ← hlength, hnone]
      rfl
  · rw [if_neg hnone, if_neg, ← hwins, ← hlength]
    rwa [← List.length_eq_zero_iff, ← hlength, List.length_eq_zero_iff]

end

/-! ## Costs -/

section

variable {c : ℚ}

theorem grossProfit_cons (x : ℚ) (pnls : List ℚ) :
    grossProfit (x :: pnls) = max x 0 + grossProfit pnls := by
  unfold grossProfit
  rw [List.filter_cons]
  split
  · next h => rw [List.sum_cons, max_eq_left (of_decide_eq_true h).le]
  · next h => rw [max_eq_right (not_lt.mp fun hlt => h (decide_eq_true hlt)), zero_add]

theorem grossLoss_cons (x : ℚ) (pnls : List ℚ) :
    grossLoss (x :: pnls) = max (-x) 0 + grossLoss pnls := by
  unfold grossLoss
  rw [List.filter_cons]
  split
  · next h =>
    have hx : x ≤ 0 := of_decide_eq_true h
    rw [List.sum_cons, max_eq_left (neg_nonneg.mpr hx), neg_add]
  · next h =>
    have hx : 0 < x := not_le.mp fun hle => h (decide_eq_true hle)
    rw [max_eq_right (neg_nonpos.mpr hx.le), zero_add]

theorem grossProfit_nonneg (pnls : List ℚ) : 0 ≤ grossProfit pnls :=
  List.sum_nonneg fun _ hx => (of_decide_eq_true (List.mem_filter.mp hx).2 : _ < _).le

theorem grossProfit_sub_le (hc : 0 ≤ c) (pnls : List ℚ) :
    grossProfit (pnls.map (· - c)) ≤ grossProfit pnls := by
  induction pnls with
  | nil => exact le_rfl
  | cons x rest ih =>
    rw [List.map_cons, grossProfit_cons, grossProfit_cons]
    exact add_le_add (max_le_max_right 0 (sub_le_self x hc)) ih

theorem le_grossLoss_sub (hc : 0 ≤ c) (pnls : List ℚ) :
    grossLoss pnls ≤ grossLoss (pnls.map (· - c)) := by
  induction pnls with
  | nil => exact le_rfl
  | cons x rest ih =>
    rw [List.map_cons, grossLoss_cons, grossLoss_cons]
    exact add_le_add (max_le_max_right 0 (neg_le_neg (sub_le_self x hc))) ih

theorem profitFactor_sub_le (hc : 0 ≤ c) (pnls : List ℚ) :
    profitFactor (pnls.map (· - c)) ≤ profitFactor pnls := by
  have hprofit := grossProfit_sub_le hc pnls
  have hloss := le_grossLoss_sub hc pnls
  have hnonneg := grossProfit_nonneg pnls
  unfold profitFactor
  by_cases hpos : 0 < grossLoss pnls
  · rw [if_pos hpos, if_pos (hpos.trans_le hloss), WithTop.coe_le_coe]
    exact div_le_div₀ hnonneg hprofit hpos hloss
  · rw [if_neg hpos]
    by_cases hsome : grossProfit pnls = 0
    · -- there was nothing to lose and nothing is won
      have hnone : grossProfit (pnls.map (· - c)) = 0 :=
        le_antisymm (hprofit.trans hsome.le) (grossProfit_nonneg _)
      rw [hnone, if_neg (not_not.mpr rfl), hsome, if_neg (not_not.mpr rfl), zero_div]
      split <;> rfl
    · rw [if_pos hsome]
      exact le_top

/-- The gap between the peak and the equity widens by a loss and narrows by a profit. -/
theorem drawdownsFrom_sub_le {equity peak equity' peak' : ℚ} (hc : 0 ≤ c)
    (hgap : peak - equity ≤ peak' - equity') (pnls : List ℚ) :
    List.Forall₂ (· ≤ ·) (drawdownsFrom equity peak pnls)
      (drawdownsFrom equity' peak' (pnls.map (· - c))) := by
  induction pnls generalizing equity peak equity' peak' with
  | nil => exact .nil
  | cons x rest ih =>
    have hnext : max peak (equity + x) - (equity + x) ≤
        max peak' (equity' + (x - c)) - (equity' + (x - c)) := by
      rw [← max_sub_sub_right, ← max_sub_sub_right, sub_self, sub_self]
      exact max_le_max_right 0 (by linarith)
    exact .cons hnext (ih hnext)

theorem drawdowns_sub_le (hc : 0 ≤ c) (pnls : List ℚ) :
    List.Forall₂ (· ≤ ·) (drawdowns pnls) (drawdowns (pnls.map (· - c))) := by
  cases pnls with
  | nil => exact .nil
  | cons x rest =>
    have hzero : x - x ≤ (x - c) - (x - c) := by rw [sub_self, sub_self]
    exact .cons hzero (drawdownsFrom_sub_le hc hzero rest)

theorem max?_le {xs ys : List ℚ} (h : List.Forall₂ (· ≤ ·) xs ys) {x y : ℚ}
    (hx : xs.max? = some x) (hy : ys.max? = some y) : x ≤ y := by
  have hmem := List.max?_mem hx
  obtain ⟨i, hi, hxi⟩ := List.getElem_of_mem hmem
  have hiy : i < ys.length := h.length_eq ▸ hi
  calc x = xs[i] := hxi.symm
    _ ≤ ys[i] := h.get hi hiy
    _ ≤ y := (List.max?_le_iff hy).mp le_rfl _ (List.getElem_mem hiy)

theorem sum_sub (pnls : List ℚ) : (pnls.map (· - c)).sum = pnls.sum - pnls.length * c := by
  induction pnls with
  | nil => simp
  | cons x rest ih =>
    rw [List.map_cons, List.sum_cons, ih, List.sum_cons, List.length_cons, Nat.cast_succ]
    ring

theorem wins_sub_le (hc : 0 ≤ c) (pnls : List ℚ) :
    ((pnls.map (· - c)).filter (0 < ·)).length ≤ (pnls.filter (0 < ·)).length := by
  rw [← List.countP_eq_length_filter, ← List.countP_eq_length_filter, List.countP_map]
  refine List.countP_mono_left fun x _ hx => ?_
  have hx : 0 < x - c := of_decide_eq_true hx
  exact decide_eq_true (hx.trans_le (sub_le_self x hc))

end

/-- What the costs of each trade do to its statistics. -/
structure NetOf (cost : ℚ) (net gross : FullTradeStats) : Prop where
  trades : net.trades = gross.trades
  winRate : ∀ x ∈ net.winRate, ∀ y ∈ gross.winRate, x ≤ y
  expectancy : net.expectancy = gross.expectancy.map (· - cost)
  profitFactor : ∀ x ∈ net.profitFactor, ∀ y ∈ gross.profitFactor, x ≤ y
  maxDrawdownPct : ∀ x ∈ net.maxDrawdownPct, ∀ y ∈ gross.maxDrawdownPct, y ≤ x

theorem netOf_sub {c : ℚ} (hc : 0 ≤ c) (pnls : List ℚ) :
    NetOf c (fullTradeStats (pnls.map (· - c))) (fullTradeStats pnls) := by
  by_cases hnone : pnls = []
  · subst hnone
    exact ⟨rfl, nofun, rfl, nofun, nofun⟩
  · have hnone' : pnls.map (· - c) ≠ [] := fun h => hnone (List.map_eq_nil_iff.mp h)
    have hlength : (0 : ℚ) < pnls.length := by exact_mod_cast List.length_pos_iff.mpr hnone
    rw [fullTradeStats, if_neg hnone', fullTradeStats, if_neg hnone]
    refine ⟨List.length_map _, ?_, ?_, ?_, ?_⟩
    · rintro _ ⟨rfl⟩ _ ⟨rfl⟩
      rw [List.length_map]
      have hwins : (((pnls.map (· - c)).filter (0 < ·)).length : ℚ) ≤
          (pnls.filter (0 < ·)).length := by exact_mod_cast wins_sub_le hc pnls
      exact mul_le_mul_of_nonneg_right (div_le_div_of_nonneg_right hwins hlength.le) (by norm_num)
    · refine congrArg some ?_
      rw [mean, sum_sub, List.length_map, mean, sub_div, mul_div_cancel_left₀ _ hlength.ne']
    · rintro _ ⟨rfl⟩ _ ⟨rfl⟩
      exact profitFactor_sub_le hc pnls
    · intro x hx y hy
      exact max?_le (drawdowns_sub_le hc pnls) hy hx

/-- The two ratings of the trades agree, the gate only drops trades, and the costs of a round trip
improve nothing: the expectancy falls by just these costs. -/
theorem evaluateMagnitudeGate_spec (fillModel : FillModel)
    (hcosts : 0 ≤ fillModel.feeBps + fillModel.slippageBps) (df : Frame) (baseSignalName : String)
    (baseSignal : List BaseLabel) (filterName : String) (filterSeries : Series ℚ)
    (percentileThreshold : ℚ) (horizon : ℕ) :
    let r := evaluateMagnitudeGate fillModel df baseSignalName baseSignal filterName filterSeries
      percentileThreshold horizon
    (r.baselineTrades, r.baselineWinRate) = (r.baselineStats.trades, r.baselineStats.winRate) ∧
    (r.filteredTrades, r.filteredWinRate) = (r.filteredStats.trades, r.filteredStats.winRate) ∧
    r.filteredTrades ≤ r.baselineTrades ∧
    NetOf (roundTripCostPct fillModel) r.baselineStatsNetFees r.baselineStats ∧
    NetOf (roundTripCostPct fillModel) r.filteredStatsNetFees r.filteredStats := by
  have hcost : 0 ≤ roundTripCostPct fillModel := by
    unfold roundTripCostPct
    positivity
  have htrades (pnls : List ℚ) : (fullTradeStats pnls).trades = pnls.length := by
    unfold fullTradeStats
    split
    · next h =>
      rw [h]
      rfl
    · rfl
  refine ⟨directionalWinRate_eq _, directionalWinRate_eq _, ?_, netOf_sub hcost _,
    netOf_sub hcost _⟩
  change (directionalWinRate _ _ _).1 ≤ (directionalWinRate _ _ _).1
  rw [directionalWinRate_eq, directionalWinRate_eq]
  dsimp only
  rw [htrades, htrades]
  exact (tradePnls_sublist _).length_le

/-- The bars of a gap, one a second. -/
def gapRows : Frame := gapBars.zipIdx.map fun x => ⟨x.2, x.1⟩

theorem evaluateMagnitudeGate_spec_gap :
    let fillModel : FillModel := { modelId := "close_price_v1", slippageBps := 5, feeBps := 10 }
    let r := evaluateMagnitudeGate fillModel gapRows "up" [.up, .down, .up, .up] "atr_pct_14"
      [some 10, some 20, some 30, none] 15 1
    (r.baselineTrades, r.baselineWinRate) = (r.baselineStats.trades, r.baselineStats.winRate) ∧
    (r.filteredTrades, r.filteredWinRate) = (r.filteredStats.trades, r.filteredStats.winRate) ∧
    r.filteredTrades ≤ r.baselineTrades ∧
    NetOf (roundTripCostPct fillModel) r.baselineStatsNetFees r.baselineStats ∧
    NetOf (roundTripCostPct fillModel) r.filteredStatsNetFees r.filteredStats :=
  evaluateMagnitudeGate_spec _ (by norm_num) gapRows "up" [.up, .down, .up, .up] "atr_pct_14"
    [some 10, some 20, some 30, none] 15 1

/-! ## More data -/

section

variable {signal signal' : ℕ → BaseLabel} {mask mask' : ℕ → Bool} {fwd fwd' : List (Option ℚ)}

/-- Rows that have a target, and the same one, are the same trades; the rows after them are later
trades. -/
theorem pnls_of_more {k : ℕ} (hsame : fwd.take k = fwd'.take k) (hnone : ∀ o ∈ fwd.drop k, o = none)
    (hsignal : ∀ i < k, signal i = signal' i) (hmask : ∀ i < k, mask i = mask' i) :
    fwd.zipIdx.filterMap (tradePnl signal mask) <+:
      fwd'.zipIdx.filterMap (tradePnl signal' mask') := by
  rw [← List.take_append_drop k fwd, ← List.take_append_drop k fwd', List.zipIdx_append,
    List.zipIdx_append, List.filterMap_append, List.filterMap_append]
  have hlast : ((fwd.drop k).zipIdx (0 + (fwd.take k).length)).filterMap
      (tradePnl signal mask) = [] := by
    refine List.filterMap_eq_nil_iff.mpr fun row hrow => ?_
    rw [← Option.not_isSome_iff_eq_none, isSome_tradePnl, hnone _ (List.fst_mem_of_mem_zipIdx hrow)]
    simp
  have hfirst : (fwd.take k).zipIdx.filterMap (tradePnl signal mask) =
      (fwd'.take k).zipIdx.filterMap (tradePnl signal' mask') := by
    rw [← hsame]
    refine List.filterMap_congr ?_
    rintro ⟨o, i⟩ hrow
    have hrow : i < k := by
      have hlt := List.snd_lt_of_mem_zipIdx hrow
      rw [List.length_take] at hlt
      omega
    simp only [tradePnl, hsignal i hrow, hmask i hrow]
  rw [hlast, List.append_nil, hfirst]
  exact List.prefix_append _ _

theorem tradePnls_of_more (df more : Frame) (horizon : ℕ)
    (hsignal : ∀ i < df.length, signal i = signal' i) (hmask : ∀ i < df.length, mask i = mask' i) :
    tradePnls (computeForwardTargets df horizon) signal mask <+:
      tradePnls (computeForwardTargets (df ++ more) horizon) signal' mask' := by
  refine pnls_of_more (k := df.length - horizon) ?_ ?_ (fun i hi => hsignal i (by omega))
    fun i hi => hmask i (by omega)
  · refine List.ext_getElem? fun t => ?_
    rw [List.getElem?_take, List.getElem?_take]
    split
    · next ht =>
      rw [getElem?_fwdRet, getElem?_fwdRet, List.getElem?_append_left (by omega : t < df.length),
        List.getElem?_append_left (by omega : t + horizon < df.length)]
    · rfl
  · intro o ho
    have hshape := congrArg (List.drop (df.length - horizon)) (isSome_fwdRet df horizon)
    rw [List.drop_left' List.length_replicate, ← List.map_drop] at hshape
    have hmem := List.mem_map_of_mem (f := Option.isSome) ho
    rw [hshape] at hmem
    exact Option.not_isSome_iff_eq_none.mp (by rw [(List.mem_replicate.mp hmem).2]; simp)

end

/-- With a direction and a magnitude that do not look ahead, more data takes no trade back: the
trades of the first bars, with and without the gate, are the first trades of all bars. -/
theorem classification_of_more {signal : DirectionSignal} {filter : MagnitudePredictor}
    (hsignal : Adapted signal) (hfilter : Adapted filter) (df more : Frame)
    {labels labels' : List BaseLabel} {column column' : Series ℚ}
    (hlabels : signal (barsOf df) = .ok labels)
    (hlabels' : signal (barsOf (df ++ more)) = .ok labels')
    (hcolumn : filter (barsOf df) = .ok column)
    (hcolumn' : filter (barsOf (df ++ more)) = .ok column') (percentileThreshold : ℚ)
    (horizon : ℕ) :
    tradePnls (computeForwardTargets df horizon) (labelAt labels) (fun _ => true) <+:
      tradePnls (computeForwardTargets (df ++ more) horizon) (labelAt labels') (fun _ => true) ∧
    tradePnls (computeForwardTargets df horizon) (labelAt labels)
        (gateMask (magnitudeAt column) percentileThreshold) <+:
      tradePnls (computeForwardTargets (df ++ more) horizon) (labelAt labels')
        (gateMask (magnitudeAt column') percentileThreshold) := by
  have htake : (barsOf df).take df.length = (barsOf (df ++ more)).take df.length := by
    unfold barsOf
    rw [List.map_append, List.take_left' (List.length_map _),
      List.take_of_length_le (List.length_map _).le]
  have hlabel (i : ℕ) (hi : i < df.length) : labelAt labels i = labelAt labels' i := by
    unfold labelAt
    rw [(hsignal _ _ _ htake labels labels' hlabels hlabels').getElem? hi]
  have hgate (i : ℕ) (hi : i < df.length) : gateMask (magnitudeAt column) percentileThreshold i =
      gateMask (magnitudeAt column') percentileThreshold i := by
    unfold gateMask magnitudeAt
    rw [(hfilter _ _ _ htake column column' hcolumn hcolumn').getElem? hi]
  exact ⟨tradePnls_of_more df more horizon hlabel fun _ _ => rfl,
    tradePnls_of_more df more horizon hlabel hgate⟩

theorem classification_of_more_gap : ∃ labels labels' column column',
    emaCompare 1 2 (barsOf gapRows) = .ok labels ∧
    emaCompare 1 2 (barsOf (gapRows ++ gapRows)) = .ok labels' ∧
    atrPct 2 (barsOf gapRows) = .ok column ∧
    atrPct 2 (barsOf (gapRows ++ gapRows)) = .ok column' ∧
    tradePnls (computeForwardTargets gapRows 1) (labelAt labels) (fun _ => true) <+:
      tradePnls (computeForwardTargets (gapRows ++ gapRows) 1) (labelAt labels') (fun _ => true) ∧
    tradePnls (computeForwardTargets gapRows 1) (labelAt labels)
        (gateMask (magnitudeAt column) 10) <+:
      tradePnls (computeForwardTargets (gapRows ++ gapRows) 1) (labelAt labels')
        (gateMask (magnitudeAt column') 10) :=
  ⟨_, _, _, _, rfl, rfl, rfl, rfl, classification_of_more (emaCompare_adapted 1 2)
    (atrPct_adapted 2) gapRows gapRows rfl rfl rfl rfl 10 1⟩

end TradingPlatform
