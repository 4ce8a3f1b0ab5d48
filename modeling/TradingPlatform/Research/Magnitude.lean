import TradingPlatform.Research.Direction

/-!
# Magnitude predictors

A predictor says how large the moves at a bar are. Two of them are percentiles: the part of the
window before a bar that is below its value.
-/

namespace TradingPlatform

open Online

/-- A predictor of the research pipeline: a value for each bar, if there is one. -/
abbrev MagnitudePredictor := List Bar → Computed (Series ℚ)

/-! ## The predictors -/

/-- `atr_pct` -/
def atrPct (period : ℤ) : MagnitudePredictor := fun bars => do
  let atr ← atrSeries bars period
  return Series.lift₂ (fun atr close => (quotient atr close).map (· * 100)) atr
    ((closes bars).map some)

/-- `(x.iloc[-1] > x).mean() * 100` -/
def lastPercentile (xs : List ℚ) : Option ℚ :=
  xs.getLast?.map fun last => (xs.countP (· < last) : ℚ) / xs.length * 100

/-- The values of a window, if it has one in each row. -/
def windowValues : List (Option ℚ) → Option (List ℚ)
  | [] => some []
  | row :: rest => row.bind fun x => (windowValues rest).map (x :: ·)

/-- `rolling(window)` with a function of the windows of a column that may lack values. -/
def rollingComplete (window : ℤ) (f : List ℚ → Option ℚ) (s : Series ℚ) : Computed (Series ℚ) :=
  if window < 0 then .error (.raised (.valueError "window must be an integer 0 or greater"))
  else .ok (Series.rolling window.toNat (fun rows => (windowValues rows).bind f) s)

/-- `rolling(window).apply(lambda x: (x.iloc[-1] > x).mean() * 100)`. A window without rows is passed
on all the same, and has no last row. -/
def rollingPercentile (window : ℤ) (s : Series ℚ) : Computed (Series ℚ) :=
  if window = 0 ∧ s ≠ [] then .error (.raised .indexError)
  else rollingComplete window lastPercentile s

/-- `atr_pct_percentile` -/
def atrPctPercentile (period window : ℤ) : MagnitudePredictor := fun bars => do
  let pct ← atrPct period bars
  rollingPercentile window pct

/-- `bb_width_pct` -/
def bbWidthPct (lib : IndicatorLibrary) (period : ℤ) (stdMult : ℚ) : MagnitudePredictor :=
  fun bars => do
    let bands ← bollingerComponents lib bars period stdMult
    let width := Series.lift₂ (fun upper lower => some (upper - lower)) bands.upper bands.lower
    return Series.lift₂ (fun width middle => (quotient width middle).map (· * 100)) width
      bands.middle

/-- `bb_width_percentile` -/
def bbWidthPercentile (lib : IndicatorLibrary) (period : ℤ) (stdMult : ℚ) (window : ℤ) :
    MagnitudePredictor := fun bars => do
  let width ← bbWidthPct lib period stdMult bars
  rollingPercentile window width

/-- The return of a bar since the one before. -/
def pctChange (row : Option ℚ × ℚ) : Option ℚ :=
  row.1.bind fun previous => (quotient row.2 previous).map (· - 1)

/-- `realized_vol` -/
def realizedVol (lib : IndicatorLibrary) (window : ℤ) : MagnitudePredictor := fun bars => do
  let returns := (Series.lagged (closes bars)).map pctChange
  let std ← rollingComplete window (fun xs => (windowVariance xs).map lib.sqrt) returns
  return std.map (Option.map (· * 100))

/-- `adx_level` -/
def adxLevel (period : ℤ) : MagnitudePredictor := fun bars => do
  let c ← adxComponents bars period
  return c.adx

/-- `DEFAULT_PREDICTORS` -/
def defaultPredictors (lib : IndicatorLibrary) : List (String × MagnitudePredictor) :=
  [("atr_pct_14", atrPct 14),
    ("atr_pct_percentile_200", atrPctPercentile 14 200),
    ("bb_width_pct_20", bbWidthPct lib 20 2),
    ("bb_width_percentile_200", bbWidthPercentile lib 20 2 200),
    ("realized_vol_20", realizedVol lib 20),
    ("adx_level_14", adxLevel 14)]

/-- `PERCENTILE_PREDICTORS` -/
def percentilePredictors (lib : IndicatorLibrary) : List (String × MagnitudePredictor) :=
  [("atr_pct_percentile_200", atrPctPercentile 14 200),
    ("bb_width_percentile_200", bbWidthPercentile lib 20 2 200)]

/-! ## No predictor looks ahead -/

section

variable {n m m' : ℕ} {lib : IndicatorLibrary} {xs ys : List Bar} {period window : ℤ}

theorem both_rollingComplete {s t : Series ℚ} (f : List ℚ → Option ℚ) (h : Agree n m m' s t) :
    Both (Agree n m m') (rollingComplete window f s) (rollingComplete window f t) :=
  .ite .error (.ok (h.rolling _ _))

theorem both_rollingPercentile {s t : Series ℚ} (h : Agree n m m' s t) :
    Both (Agree n m m') (rollingPercentile window s) (rollingPercentile window t) := by
  unfold rollingPercentile
  split
  · exact .error
  · split
    · intro a b _ hb
      cases hb
    · exact both_rollingComplete _ h

/-- The columns of two Bollinger bands agree. -/
structure Bollinger.Agree (n m m' : ℕ) (c d : Bollinger) : Prop where
  upper : Online.Agree n m m' c.upper d.upper
  middle : Online.Agree n m m' c.middle d.middle
  lower : Online.Agree n m m' c.lower d.lower

theorem both_bollingerComponents (stdMult : ℚ) (h : Online.Agree n m m' xs ys) :
    Both (Bollinger.Agree n m m') (bollingerComponents lib xs period stdMult)
      (bollingerComponents lib ys period stdMult) := by
  refine .guard (.bind (both_rolling _ (agree_closes h)) fun middle middle' hmiddle => ?_)
  refine .bind (both_rolling _ (agree_closes h)) fun std std' hstd => ?_
  exact .ok ⟨hmiddle.lift₂ _ hstd, hmiddle, hmiddle.lift₂ _ hstd⟩

theorem atrPct_adapted (period : ℤ) : Adapted (atrPct period) := by
  intro xs ys n h
  refine .bind (both_atrSeries (.of_take h)) fun atr atr' hatr => ?_
  exact .ok (hatr.lift₂ _ ((agree_closes (.of_take h)).map some))

theorem atrPctPercentile_adapted (period window : ℤ) :
    Adapted (atrPctPercentile period window) := by
  intro xs ys n h
  exact .bind (atrPct_adapted period xs ys n h) fun pct pct' hpct => both_rollingPercentile hpct

theorem bbWidthPct_adapted (lib : IndicatorLibrary) (period : ℤ) (stdMult : ℚ) :
    Adapted (bbWidthPct lib period stdMult) := by
  intro xs ys n h
  refine .bind (both_bollingerComponents stdMult (.of_take h)) fun bands bands' hbands => ?_
  exact .ok ((hbands.upper.lift₂ _ hbands.lower).lift₂ _ hbands.middle)

theorem bbWidthPercentile_adapted (lib : IndicatorLibrary) (period : ℤ) (stdMult : ℚ)
    (window : ℤ) : Adapted (bbWidthPercentile lib period stdMult window) := by
  intro xs ys n h
  exact .bind (bbWidthPct_adapted lib period stdMult xs ys n h) fun width width' hwidth =>
    both_rollingPercentile hwidth

theorem realizedVol_adapted (lib : IndicatorLibrary) (window : ℤ) :
    Adapted (realizedVol lib window) := by
  intro xs ys n h
  have hreturns := (agree_closes (.of_take h)).lagged.map pctChange
  exact .bind (both_rollingComplete _ hreturns) fun std std' hstd => .ok (hstd.map _)

theorem adxLevel_adapted (period : ℤ) : Adapted (adxLevel period) := by
  intro xs ys n h
  exact .bind (both_adxComponents (.of_take h)) fun c d hadx => .ok hadx.adx

end

/-! ## Percentiles -/

section

variable {xs : List ℚ} {p : ℚ}

/-- The last value is not below itself. -/
theorem lastPercentile_mem (h : lastPercentile xs = some p) : 0 ≤ p ∧ p < 100 := by
  obtain ⟨last, hlast, rfl⟩ := Option.map_eq_some_iff.mp h
  have hmem := List.mem_of_getLast? hlast
  have hcount : xs.countP (· < last) < xs.length := by
    refine lt_of_le_of_ne List.countP_le_length fun heq => ?_
    exact absurd (List.countP_eq_length.mp heq last hmem) (by simp)
  have hlength : (0 : ℚ) < xs.length := by exact_mod_cast (Nat.zero_le _).trans_lt hcount
  have hpart : (xs.countP (· < last) : ℚ) / xs.length < 1 :=
    (div_lt_one hlength).mpr (by exact_mod_cast hcount)
  exact ⟨by positivity, by linarith⟩

/-- A percentile only depends on the order of the values. -/
theorem lastPercentile_map {f : ℚ → ℚ} (hf : StrictMono f) (xs : List ℚ) :
    lastPercentile (xs.map f) = lastPercentile xs := by
  unfold lastPercentile
  rw [List.getLast?_map, Option.map_map]
  refine congrArg (Option.map · _) (funext fun last => ?_)
  rw [Function.comp_apply, List.countP_map, List.length_map]
  have hbelow : ((fun x => decide (x < f last)) ∘ f) = fun x => decide (x < last) :=
    funext fun x => decide_eq_decide.mpr hf.lt_iff_lt
  rw [hbelow]

theorem mem_rollingComplete {window : ℤ} {f : List ℚ → Option ℚ} {s column : Series ℚ} {x : ℚ}
    (h : rollingComplete window f s = .ok column) (hx : some x ∈ column) :
    ∃ xs, f xs = some x := by
  unfold rollingComplete at h
  split_ifs at h
  cases h
  obtain ⟨i, -, hi⟩ := List.mem_map.mp hx
  split_ifs at hi
  obtain ⟨xs, -, hxs⟩ := Option.bind_eq_some_iff.mp hi
  exact ⟨xs, hxs⟩

theorem rollingPercentile_mem {window : ℤ} {s column : Series ℚ} {x : ℚ}
    (h : rollingPercentile window s = .ok column) (hx : some x ∈ column) : 0 ≤ x ∧ x < 100 := by
  unfold rollingPercentile at h
  split_ifs at h
  obtain ⟨xs, hxs⟩ := mem_rollingComplete h hx
  exact lastPercentile_mem hxs

theorem percentile_mem {lib : IndicatorLibrary} {period window : ℤ} {stdMult : ℚ}
    {predictor : MagnitudePredictor} {bars : List Bar} {column : Series ℚ} {x : ℚ}
    (hpredictor : predictor = atrPctPercentile period window ∨
      predictor = bbWidthPercentile lib period stdMult window)
    (h : predictor bars = .ok column) (hx : some x ∈ column) : 0 ≤ x ∧ x < 100 := by
  obtain rfl | rfl := hpredictor
  · obtain ⟨pct, -, hcolumn⟩ := Except.bind_eq_ok.mp h
    exact rollingPercentile_mem hcolumn hx
  · obtain ⟨width, -, hcolumn⟩ := Except.bind_eq_ok.mp h
    exact rollingPercentile_mem hcolumn hx

end

/-- Whatever its parameters, no predictor looks ahead, and a percentile is at least zero and below
one hundred: no bar passes a gate at one hundred. -/
theorem magnitudePredictors_spec (lib : IndicatorLibrary) (period window : ℤ) (stdMult : ℚ) :
    (Adapted (atrPct period) ∧ Adapted (atrPctPercentile period window) ∧
      Adapted (bbWidthPct lib period stdMult) ∧
      Adapted (bbWidthPercentile lib period stdMult window) ∧
      Adapted (realizedVol lib window) ∧ Adapted (adxLevel period)) ∧
    (∀ predictor ∈ [atrPctPercentile period window, bbWidthPercentile lib period stdMult window],
      ∀ bars column, predictor bars = .ok column → ∀ x, some x ∈ column → 0 ≤ x ∧ x < 100) ∧
    ∀ (f : ℚ → ℚ) (xs : List ℚ), StrictMono f →
      lastPercentile (xs.map f) = lastPercentile xs := by
  refine ⟨⟨atrPct_adapted period, atrPctPercentile_adapted period window,
    bbWidthPct_adapted lib period stdMult, bbWidthPercentile_adapted lib period stdMult window,
    realizedVol_adapted lib window, adxLevel_adapted period⟩, ?_, fun f xs hf =>
    lastPercentile_map hf xs⟩
  intro predictor hpredictor bars column hcolumn x hx
  refine @percentile_mem lib period window stdMult _ _ _ _ ?_ hcolumn hx
  rwa [List.mem_cons, List.mem_singleton] at hpredictor

end TradingPlatform
