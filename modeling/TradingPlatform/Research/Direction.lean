import TradingPlatform.Features.MarketStructure
import TradingPlatform.Lib.Online

/-!
# Direction candidates

A candidate labels every bar of a frame, and is rated by the sign of the return some bars later. The
rating is only worth something if a label is known at its bar: whatever follows the bar, the label
is the same.
-/

namespace TradingPlatform

open Online

/-- A signal of the research pipeline: a label for each bar. -/
abbrev DirectionSignal := List Bar → Computed (List BaseLabel)

/-! ## The candidates -/

/-- `x > y` of two columns, which does not hold where one of them has no value. -/
def exceeds (x y : Option ℚ) : Bool := x.any fun x => y.any (· < x)

/-- `np.where(condition, "UP", "DOWN")` -/
def upOrDown (condition : Bool) : BaseLabel := if condition then .up else .down

/-- `ema_compare` -/
def emaCompare (fast slow : ℤ) : DirectionSignal := fun bars => do
  let emaFast ← emaSeries bars fast
  let emaSlow ← emaSeries bars slow
  return List.zipWith (fun x y => upOrDown (exceeds x y)) emaFast emaSlow

/-- `supertrend_direction` -/
def supertrendDirection (period : ℤ) (multiplier : ℚ) : DirectionSignal := fun bars => do
  let supertrend ← supertrendComponents bars period multiplier
  return supertrend.direction.map fun direction => upOrDown (direction.any (0 < ·))

/-- `adx_directional_raw` -/
def adxDirectionalRaw (period : ℤ) : DirectionSignal := fun bars => do
  let c ← adxComponents bars period
  return List.zipWith (fun x y => upOrDown (exceeds x y)) c.plusDi c.minusDi

/-- A label is held over from the bar before where the ADX is missing or too low; the first bar has
its own. -/
def holdOver (minAdx : ℚ) (previous : Option BaseLabel) (row : BaseLabel × Option ℚ) :
    Option BaseLabel × BaseLabel :=
  let label := if row.2.any (minAdx ≤ ·) then row.1 else previous.getD row.1
  (some label, label)

/-- `adx_directional_gated` -/
def adxDirectionalGated (period : ℤ) (minAdx : ℚ) : DirectionSignal := fun bars => do
  let c ← adxComponents bars period
  let rawDir := List.zipWith (fun x y => upOrDown (exceeds x y)) c.plusDi c.minusDi
  return walk (holdOver minAdx) none (rawDir.zip c.adx)

/-- The label of a bar by its money flow, or the one before. -/
def flowLabel (minCmf minVolumeRatio : ℚ) (previous : BaseLabel) (row : Option ℚ × Option ℚ) :
    BaseLabel × BaseLabel :=
  let volumeConfirmed := row.2.any (minVolumeRatio ≤ ·)
  let bullish := row.1.any (minCmf ≤ ·) && volumeConfirmed
  let bearish := row.1.any (· ≤ -minCmf) && volumeConfirmed
  let label := if bullish then .up else if bearish then .down else previous
  (label, label)

/-- `volume_order_flow_direction` -/
def volumeOrderFlowDirection (period : ℤ) (minCmf minVolumeRatio : ℚ) : DirectionSignal :=
  fun bars => do
    let flow ← volumeFlowComponents bars period
    return walk (flowLabel minCmf minVolumeRatio) .up (flow.cmf.zip flow.volumeRatio)

/-- `DEFAULT_CANDIDATES` -/
def defaultCandidates : List (String × DirectionSignal) :=
  [("ema_compare_12_26 (current production)", emaCompare 12 26),
    ("ema_compare_50_200 (slow)", emaCompare 50 200),
    ("supertrend_direction_10_3.0", supertrendDirection 10 3),
    ("adx_directional_raw_14", adxDirectionalRaw 14),
    ("adx_directional_gated_14_20", adxDirectionalGated 14 20),
    ("market_structure_bias_5", fun bars => marketStructureBias bars 5),
    ("volume_order_flow_20", volumeOrderFlowDirection 20 (1 / 20) (6 / 5))]

/-! ## Columns of two frames -/

section

variable {n m m' : ℕ} {xs ys : List Bar} {period : ℤ}

theorem both_ewmSpan {V : Type} [AddCommGroup V] [Module ℚ V] {s t : Series V} (span : ℤ)
    (h : Agree n m m' s t) : Both (Agree n m m') (ewmSpan span s) (ewmSpan span t) :=
  .ite .error (.ok (h.ewm _ _))

theorem both_ewmAlpha {V : Type} [AddCommGroup V] [Module ℚ V] {s t : Series V}
    (h : Agree n m m' s t) : Both (Agree n m m') (ewmAlpha period s) (ewmAlpha period t) :=
  .ite .error (.ite .error (.ok (h.ewm _ _)))

theorem both_rolling {s t : List ℚ} (f : List ℚ → Option ℚ) (h : Agree n m m' s t) :
    Both (Agree n m m') (rolling period f s) (rolling period f t) :=
  .ite .error (.ok (h.rolling _ _))

theorem agree_closes (h : Agree n m m' xs ys) : Agree n m m' (closes xs) (closes ys) := h.map _

theorem agree_trueRanges (h : Agree n m m' xs ys) :
    Agree n m m' (trueRanges xs) (trueRanges ys) := h.lagged.map _

theorem both_emaSeries (span : ℤ) (h : Agree n m m' xs ys) :
    Both (Agree n m m') (emaSeries xs span) (emaSeries ys span) :=
  both_ewmSpan span ((agree_closes h).map some)

theorem both_atrSeries (h : Agree n m m' xs ys) :
    Both (Agree n m m') (atrSeries xs period) (atrSeries ys period) :=
  both_ewmAlpha ((agree_trueRanges h).map some)

/-- The columns of an ADX agree. -/
structure Adx.Agree (n m m' : ℕ) (c d : Adx) : Prop where
  adx : Online.Agree n m m' c.adx d.adx
  plusDi : Online.Agree n m m' c.plusDi d.plusDi
  minusDi : Online.Agree n m m' c.minusDi d.minusDi

theorem both_adxComponents (h : Online.Agree n m m' xs ys) :
    Both (Adx.Agree n m m') (adxComponents xs period) (adxComponents ys period) := by
  refine .guard (.bind (both_ewmAlpha ((agree_trueRanges h).map some)) fun atr atr' hatr => ?_)
  refine .bind (both_ewmAlpha (h.lagged.map _)) fun plus plus' hplus => ?_
  refine .bind (both_ewmAlpha (h.lagged.map _)) fun minus minus' hminus => ?_
  have hplusDi := hplus.lift₂ (fun dm atr => quotient (100 * dm) atr) hatr
  have hminusDi := hminus.lift₂ (fun dm atr => quotient (100 * dm) atr) hatr
  refine .bind (both_ewmAlpha ((hplusDi.zipWith dx hminusDi).map some)) fun adx adx' hadx => ?_
  exact .ok ⟨hadx, hplusDi, hminusDi⟩

/-- The final bands of a bar, after the bands and the close of the bar before. -/
def bandsStep (x : Option Bands × ℚ) (row : ℚ × Option Bands) :
    (Option Bands × ℚ) × (ℚ × Option Bands) :=
  let final := row.2.map (Bands.carry x.1 x.2)
  ((final, row.1), (row.1, final))

theorem finalBands_eq_walk (previous : Option Bands) (close : ℚ) (rows : List (ℚ × Option Bands)) :
    finalBands previous close rows = walk bandsStep (previous, close) rows := by
  induction rows generalizing previous close with
  | nil => rfl
  | cons row rest ih =>
    rw [finalBands, walk]
    exact congrArg _ (ih ..)

/-- The bands and the trend of a bar. -/
def trendStep (x : Bool × Bool) (row : ℚ × Option Bands) : (Bool × Bool) × Option (Bands × Bool) :=
  match row.2 with
  | none => ((false, x.2), none)
  | some bands =>
    let up := trendOf x.1 x.2 row.1 bands
    ((false, up), some (bands, up))

theorem trends_eq_walk (first up : Bool) (rows : List (ℚ × Option Bands)) :
    trends first up rows = walk trendStep (first, up) rows := by
  induction rows generalizing first up with
  | nil => rfl
  | cons row rest ih =>
    obtain ⟨close, _ | bands⟩ := row <;> exact congrArg _ (ih ..)

theorem both_supertrendComponents (multiplier : ℚ) (h : Online.Agree n m m' xs ys) :
    Both (fun c d => Online.Agree n m m' c.direction d.direction)
      (supertrendComponents xs period multiplier) (supertrendComponents ys period multiplier) := by
  refine .guard (.bind (both_atrSeries h) fun atr atr' hatr => .ok ?_)
  have hrows := h.zipWith (fun bar atr => (bar.close, basicBands multiplier bar atr)) hatr
  have htrends : ∀ rows, trends true true (finalBands none 0 rows) =
      walk trendStep (true, true) (walk bandsStep (none, 0) rows) := by
    intro rows
    rw [finalBands_eq_walk, trends_eq_walk]
  simp only [supertrendNumpy, htrends]
  exact ((hrows.walk _ _).walk _ _).map _

theorem both_volumeFlowComponents (h : Online.Agree n m m' xs ys) :
    Both (fun c d => Online.Agree n m m' (c.cmf.zip c.volumeRatio) (d.cmf.zip d.volumeRatio))
      (volumeFlowComponents xs period) (volumeFlowComponents ys period) := by
  have hvolumes : Online.Agree n m m' (volumes xs) (volumes ys) := h.map _
  refine .guard (.bind (both_rolling _ (h.map _)) fun flow flow' hflow => ?_)
  refine .bind (both_rolling _ hvolumes) fun sum sum' hsum => ?_
  refine .bind (both_rolling _ hvolumes) fun sma sma' hsma => .ok ?_
  exact (hflow.lift₂ quotient hsum).zipWith _ ((hvolumes.map some).lift₂ quotient hsma)

/-! ## The bias -/

/-- The bias of the pivots learned at a bar, or the one before. -/
def biasStep (prevBias : ℚ) (row : LastTwo × LastTwo) : ℚ × ℚ :=
  let bias := nextBias row.1 row.2 prevBias
  (bias, bias)

theorem BiasWalk.Learned.series_eq {walk : BiasWalk} {highs lows : List (ℤ × ℚ)} {t : ℤ} {count : ℕ}
    (h : walk.Learned highs lows (t - 1)) : walk.series t count =
      Online.walk biasStep walk.prevBias ((List.range count).map fun i =>
        (lastTwo (learned (t + (i : ℕ)) highs), lastTwo (learned (t + (i : ℕ)) lows))) := by
  induction count generalizing walk t with
  | zero => rfl
  | succ count ih =>
    obtain ⟨hstep, hbias⟩ := h.step
    have hnext : (walk.step t).Learned highs lows (t + 1 - 1) := by rwa [add_sub_cancel_right]
    have hrow : (walk.step t).prevBias = (biasStep walk.prevBias
        (lastTwo (learned (t + (0 : ℕ)) highs), lastTwo (learned (t + (0 : ℕ)) lows))).1 := by
      rw [hbias, Nat.cast_zero, add_zero]
      rfl
    rw [BiasWalk.series, List.range_succ_eq_map, List.map_cons, Online.walk, ih hnext,
      List.map_map, ← hrow]
    congr 2
    refine List.map_congr_left fun i _ => ?_
    simp only [Function.comp_apply, Nat.cast_succ, add_assoc, add_comm (1 : ℤ)]

/-- The last two highs and lows that are confirmed on the bars up to here. -/
def confirmedHere (pivotBars : ℕ) (bars : List Bar) : LastTwo × LastTwo :=
  (lastTwo ((centredHighs bars pivotBars (bars.length - 1)).map Prod.snd),
    lastTwo ((centredLows bars pivotBars (bars.length - 1)).map Prod.snd))

theorem marketStructureBias_eq (bars : List Bar) (pivotBars : ℕ) :
    marketStructureBias bars pivotBars = .ok ((Online.walk biasStep 0
      ((List.range bars.length).map fun i => confirmedHere pivotBars (bars.take (i + 1)))).map
        fun bias => if 0 ≤ bias then .up else .down) := by
  refine Except.bind_eq_ok.mpr ⟨_, findConfirmedPivots_eq (sub_one_lt _), congrArg Except.ok ?_⟩
  have hlearned := @BiasWalk.learned_start pivotBars
    (centredHighs bars pivotBars (bars.length - 1)) (centredLows bars pivotBars (bars.length - 1))
  rw [hlearned.series_eq]
  congr 2
  refine List.map_congr_left fun i hi => ?_
  have hi := List.mem_range.mp hi
  have hlength : ((bars.take (i + 1)).length : ℤ) - 1 = i := by
    rw [List.length_take]
    omega
  rw [zero_add, learned_highs hi, learned_lows hi, confirmedHere, hlength]

/-- No window of a negative length can be made. -/
theorem marketStructureBias_negative (bars : List Bar) {pivotBars : ℤ} (h : pivotBars < 0) :
    ∃ e, marketStructureBias bars pivotBars = .error e := by
  have hlast : ¬ ((bars.length : ℤ) - 1 - pivotBars < pivotBars) := by omega
  have hwindow : 2 * pivotBars + 1 < 0 := by omega
  refine ⟨.raised (.valueError "`window_shape` cannot contain negative values"), ?_⟩
  rw [marketStructureBias, findConfirmedPivots, if_neg hlast, pivotsOf, slidingWindows,
    if_pos hwindow]
  rfl

end

/-! ## No candidate looks ahead -/

theorem emaCompare_adapted (fast slow : ℤ) : Adapted (emaCompare fast slow) := by
  intro xs ys n h
  refine .bind (both_emaSeries fast (.of_take h)) fun x x' hx => ?_
  refine .bind (both_emaSeries slow (.of_take h)) fun y y' hy => ?_
  exact .ok (hx.zipWith _ hy)

theorem supertrendDirection_adapted (period : ℤ) (multiplier : ℚ) :
    Adapted (supertrendDirection period multiplier) := by
  intro xs ys n h
  refine .bind (both_supertrendComponents multiplier (.of_take h)) fun c d hdirection => ?_
  exact .ok (hdirection.map _)

theorem adxDirectionalRaw_adapted (period : ℤ) : Adapted (adxDirectionalRaw period) := by
  intro xs ys n h
  refine .bind (both_adxComponents (.of_take h)) fun c d hadx => ?_
  exact .ok (hadx.plusDi.zipWith _ hadx.minusDi)

theorem adxDirectionalGated_adapted (period : ℤ) (minAdx : ℚ) :
    Adapted (adxDirectionalGated period minAdx) := by
  intro xs ys n h
  refine .bind (both_adxComponents (.of_take h)) fun c d hadx => ?_
  have hraw := hadx.plusDi.zipWith (fun x y => upOrDown (exceeds x y)) hadx.minusDi
  exact .ok ((hraw.zipWith Prod.mk hadx.adx).walk _ _)

theorem marketStructureBias_adapted (pivotBars : ℤ) :
    Adapted fun bars => marketStructureBias bars pivotBars := by
  intro xs ys n h
  obtain hnegative | hpositive := lt_or_ge pivotBars 0
  · obtain ⟨e, he⟩ := marketStructureBias_negative xs hnegative
    simp only [he]
    exact .error
  · obtain ⟨pivotBars, rfl⟩ := Int.eq_ofNat_of_zero_le hpositive
    simp only [marketStructureBias_eq]
    exact .ok (((Agree.prefixes (confirmedHere pivotBars) h).walk _ _).map _)

theorem volumeOrderFlowDirection_adapted (period : ℤ) (minCmf minVolumeRatio : ℚ) :
    Adapted (volumeOrderFlowDirection period minCmf minVolumeRatio) := by
  intro xs ys n h
  refine .bind (both_volumeFlowComponents (.of_take h)) fun c d hflow => ?_
  exact .ok (hflow.walk _ _)

theorem defaultCandidates_adapted {name : String} {signal : DirectionSignal}
    (h : (name, signal) ∈ defaultCandidates) : Adapted signal := by
  simp only [defaultCandidates, List.mem_cons, Prod.mk.injEq, List.not_mem_nil, or_false] at h
  obtain ⟨-, rfl⟩ | ⟨-, rfl⟩ | ⟨-, rfl⟩ | ⟨-, rfl⟩ | ⟨-, rfl⟩ | ⟨-, rfl⟩ | ⟨-, rfl⟩ := h
  · exact emaCompare_adapted 12 26
  · exact emaCompare_adapted 50 200
  · exact supertrendDirection_adapted 10 3
  · exact adxDirectionalRaw_adapted 14
  · exact adxDirectionalGated_adapted 14 20
  · exact marketStructureBias_adapted 5
  · exact volumeOrderFlowDirection_adapted 20 (1 / 20) (6 / 5)

end TradingPlatform
