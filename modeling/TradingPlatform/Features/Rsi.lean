import TradingPlatform.Features.Indicators

/-!
# The relative strength index

The averages of gains and losses are smoothed with the same weights. Where the average loss is zero
the ratio is missing, so on a frame whose close never falls the indicator has no value at all and
raises `InsufficientDataError`, however many bars there are.
-/

namespace TradingPlatform

/-- The changes from one close to the next. -/
def changes (bars : List Bar) : List ℚ :=
  List.zipWith (fun previous close => close - previous) (closes bars) (closes bars).tail

/-- Some close is below the one before. -/
def Falls (bars : List Bar) : Prop := ∃ d ∈ changes bars, d < 0

/-- Some close is above the one before. -/
def Rises (bars : List Bar) : Prop := ∃ d ∈ changes bars, 0 < d

instance (bars : List Bar) : Decidable (Falls bars) :=
  inferInstanceAs (Decidable (∃ d ∈ changes bars, d < 0))

instance (bars : List Bar) : Decidable (Rises bars) :=
  inferInstanceAs (Decidable (∃ d ∈ changes bars, 0 < d))

/-- The gain and the loss of a change. -/
def gainLoss (d : ℚ) : ℚ × ℚ := (max d 0, -min d 0)

/-- The index of an average gain and an average loss. -/
def strength (x : ℚ × ℚ) : Option ℚ :=
  (quotient x.1 x.2).map fun rs => 100 - 100 / (1 + rs)

theorem delta_cons (bar : Bar) (rest : List Bar) :
    (Series.lagged (closes (bar :: rest))).map (fun x => x.1.map (x.2 - ·)) =
      none :: (changes (bar :: rest)).map some := by
  rw [changes, closes, List.map_cons, List.tail_cons, Series.lagged, List.zip_cons_cons,
    List.map_cons, List.map_zip_eq_zipWith, List.zipWith_map_left, List.map_zipWith]
  rfl

theorem rsiSeries_eq {period : ℤ} (hperiod : 1 ≤ period) (bar : Bar) (rest : List Bar) :
    rsiSeries (bar :: rest) period = .ok (none ::
      (Series.warm period.toNat (Series.smooth (1 / period : ℚ)
        ((changes (bar :: rest)).map gainLoss))).map (·.bind strength)) := by
  have hgain : (changes (bar :: rest)).map (max · 0) =
      ((changes (bar :: rest)).map gainLoss).map (LinearMap.fst ℚ ℚ ℚ) := by
    rw [List.map_map]
    rfl
  have hloss : (changes (bar :: rest)).map (fun d => -min d 0) =
      ((changes (bar :: rest)).map gainLoss).map (LinearMap.snd ℚ ℚ ℚ) := by
    rw [List.map_map]
    rfl
  have hcolumn (f : ℚ → ℚ) : (none :: (changes (bar :: rest)).map some).map (Option.map f) =
      none :: ((changes (bar :: rest)).map f).map some := by
    rw [List.map_cons, List.map_map, List.map_map]
    rfl
  rw [rsiSeries, delta_cons, hcolumn, hcolumn, ewmAlpha_eq hperiod, ewmAlpha_eq hperiod,
    Series.ewm_cons_none, Series.ewm_cons_none, Series.ewm_map_some, Series.ewm_map_some, hgain,
    hloss, Series.smooth_map, Series.smooth_map, Series.warm_map, Series.warm_map]
  change Except.ok (none :: (Series.lift₂ quotient _ _).map _) = _
  rw [Series.lift₂_map, List.map_map]
  refine congrArg (fun s => Except.ok (none :: s)) (List.map_congr_left fun x _ => ?_)
  cases x <;> rfl

/-! ## The values -/

section

variable {a : ℚ} {bars : List Bar} {x : ℚ × ℚ} {period : ℤ} {v : ℚ}

/-- Average gains and losses are not negative. -/
theorem gainLoss_nonneg (h₀ : 0 ≤ a) (h₁ : a ≤ 1)
    (h : x ∈ Series.smooth a ((changes bars).map gainLoss)) : 0 ≤ x.1 ∧ 0 ≤ x.2 := by
  have hconvex : Convex ℚ (Set.Ici (0 : ℚ) ×ˢ Set.Ici (0 : ℚ)) :=
    (convex_Ici 0).prod (convex_Ici 0)
  refine Series.smooth_mem_of_convex hconvex h₀ h₁ (fun y hy => ?_) x h
  obtain ⟨d, _, rfl⟩ := List.mem_map.mp hy
  exact ⟨le_max_right d 0, neg_nonneg.mpr (min_le_right d 0)⟩

theorem gain_eq_zero (h₀ : 0 ≤ a) (h₁ : a ≤ 1) (hrise : ¬ Rises bars)
    (h : x ∈ Series.smooth a ((changes bars).map gainLoss)) : x.1 = 0 := by
  have hmem : x.1 ∈ Series.smooth a (((changes bars).map gainLoss).map (LinearMap.fst ℚ ℚ ℚ)) := by
    rw [Series.smooth_map]
    exact List.mem_map_of_mem h
  refine Series.smooth_eq_zero h₀ h₁ (fun y hy => ?_) x.1 hmem
  obtain ⟨_, hz, rfl⟩ := List.mem_map.mp hy
  obtain ⟨d, hd, rfl⟩ := List.mem_map.mp hz
  exact max_eq_right (not_lt.mp fun hpos => hrise ⟨d, hd, hpos⟩)

theorem loss_eq_zero (h₀ : 0 ≤ a) (h₁ : a ≤ 1) (hfall : ¬ Falls bars)
    (h : x ∈ Series.smooth a ((changes bars).map gainLoss)) : x.2 = 0 := by
  have hmem : x.2 ∈ Series.smooth a (((changes bars).map gainLoss).map (LinearMap.snd ℚ ℚ ℚ)) := by
    rw [Series.smooth_map]
    exact List.mem_map_of_mem h
  refine Series.smooth_eq_zero h₀ h₁ (fun y hy => ?_) x.2 hmem
  obtain ⟨_, hz, rfl⟩ := List.mem_map.mp hy
  obtain ⟨d, hd, rfl⟩ := List.mem_map.mp hz
  exact neg_eq_zero.mpr (min_eq_right (not_lt.mp fun hneg => hfall ⟨d, hd, hneg⟩))

/-- The index lies between 0 and 100, and is 0 where there is no gain. -/
theorem strength_mem (h₁ : 0 ≤ x.1) (h₂ : 0 ≤ x.2) (h : strength x = some v) :
    0 ≤ v ∧ v ≤ 100 ∧ (x.1 = 0 → v = 0) := by
  obtain ⟨rs, hrs, rfl⟩ := Option.map_eq_some_iff.mp h
  unfold quotient at hrs
  split_ifs at hrs with hzero
  cases hrs
  have hrs : 0 ≤ x.1 / x.2 := div_nonneg h₁ h₂
  have hpos : 0 < 1 + x.1 / x.2 := by linarith
  refine ⟨?_, ?_, fun hgain => ?_⟩
  · rw [sub_nonneg, div_le_iff₀ hpos]
    linarith
  · exact sub_le_self _ (div_nonneg (by norm_num) hpos.le)
  · rw [hgain, zero_div, add_zero, div_one, sub_self]

/-- Where some close falls, the index has a value in some row. -/
theorem exists_strength (hperiod : 1 ≤ period) (hlength : period ≤ (changes bars).length)
    (hfall : Falls bars) : ∃ x, some x ∈ Series.warm period.toNat
      (Series.smooth (1 / period : ℚ) ((changes bars).map gainLoss)) ∧ 0 < x.2 := by
  have hcast : ((period.toNat : ℕ) : ℚ) = period := by
    exact_mod_cast Int.toNat_of_nonneg (by omega : 0 ≤ period)
  have hnonneg : ∀ y ∈ ((changes bars).map gainLoss).map (LinearMap.snd ℚ ℚ ℚ), 0 ≤ y := by
    intro y hy
    obtain ⟨_, hz, rfl⟩ := List.mem_map.mp hy
    obtain ⟨d, _, rfl⟩ := List.mem_map.mp hz
    exact neg_nonneg.mpr (min_le_right d 0)
  have hsome : ∃ y ∈ ((changes bars).map gainLoss).map (LinearMap.snd ℚ ℚ ℚ), 0 < y := by
    obtain ⟨d, hd, hneg⟩ := hfall
    exact ⟨_, List.mem_map_of_mem (List.mem_map_of_mem hd), neg_pos.mpr (min_lt_of_left_lt hneg)⟩
  have hperiods : 1 ≤ period.toNat := by omega
  obtain ⟨y, hy, hpos⟩ := Series.exists_pos_warm_smooth hperiods
    (by rw [List.length_map, List.length_map]; omega) hnonneg hsome
  rw [hcast, Series.smooth_map, Series.warm_map] at hy
  obtain ⟨o, ho, hsome⟩ := List.mem_map.mp hy
  obtain ⟨x, rfl, rfl⟩ := Option.map_eq_some_iff.mp hsome
  exact ⟨x, ho, hpos⟩

/-- `RsiIndicator.compute` for a period. -/
theorem rsi_compute_eq {lib : IndicatorLibrary} {params : Yaml.Entries}
    (hparams : lib.requiredInt params "period" = .ok period)
    (hlength : period + 1 ≤ bars.length) : RsiIndicator.compute lib bars params =
      (rsiSeries bars period).bind fun series => lastValid series "rsi" period := by
  rw [RsiIndicator.compute, hparams]
  change (do requireBars "rsi" (period + 1) bars; _) = _
  rw [requireBars, if_neg (by omega)]
  rfl

theorem period_of_rsiSeries {series : Series ℚ} (h : rsiSeries bars period = .ok series) :
    1 ≤ period := by
  obtain ⟨_, hgain, _⟩ := Except.bind_eq_ok.mp h
  exact period_of_ewmAlpha hgain

theorem weight_mem (hperiod : 1 ≤ period) : 0 ≤ (1 / period : ℚ) ∧ (1 / period : ℚ) ≤ 1 := by
  have hcast : (1 : ℚ) ≤ period := by exact_mod_cast hperiod
  exact ⟨by positivity, (div_le_one (by linarith)).mpr hcast⟩

/-- A value of the indicator is the index of a row. -/
theorem strength_of_lastValid {series : Series ℚ} (hne : bars ≠ [])
    (hseries : rsiSeries bars period = .ok series) (hlast : series.lastValid = some v) :
    ∃ x ∈ Series.smooth (1 / period : ℚ) ((changes bars).map gainLoss), strength x = some v := by
  obtain ⟨bar, rest, rfl⟩ := List.exists_cons_of_ne_nil hne
  rw [rsiSeries_eq (period_of_rsiSeries hseries)] at hseries
  cases hseries
  rcases List.mem_cons.mp (Series.mem_of_lastValid hlast) with hnone | hmem
  · cases hnone
  · obtain ⟨o, ho, hvalue⟩ := List.mem_map.mp hmem
    obtain ⟨x, rfl, hx⟩ := Option.bind_eq_some_iff.mp hvalue
    exact ⟨x, Series.mem_of_mem_warm ho, hx⟩

/-- Where some close falls, the indicator has a value. -/
theorem exists_lastValid (hne : bars ≠ []) (hperiod : 1 ≤ period)
    (hlength : period ≤ (changes bars).length) (hfall : Falls bars) :
    ∃ series v, rsiSeries bars period = .ok series ∧ series.lastValid = some v := by
  obtain ⟨bar, rest, rfl⟩ := List.exists_cons_of_ne_nil hne
  obtain ⟨x, hx, hpos⟩ := exists_strength hperiod hlength hfall
  have hvalue : strength x = some (100 - 100 / (1 + x.1 / x.2)) := by
    rw [strength, quotient, if_neg hpos.ne']
    rfl
  have hrow : some (100 - 100 / (1 + x.1 / x.2)) ∈ none :: (Series.warm period.toNat
      (Series.smooth (1 / period : ℚ) ((changes (bar :: rest)).map gainLoss))).map
        (·.bind strength) :=
    List.mem_cons_of_mem none (List.mem_map.mpr ⟨some x, hx, hvalue⟩)
  obtain ⟨v, hv⟩ := Series.exists_lastValid hrow
  exact ⟨_, v, rsiSeries_eq hperiod bar rest, hv⟩

theorem length_changes : (changes bars).length = bars.length - 1 := by
  rw [changes, List.length_zipWith, List.length_tail, length_closes]
  omega

end

/-- With enough bars the indicator returns an index between 0 and 100, which is 100 without falls
and 0 without rises, exactly when the period is positive and some close falls. -/
theorem rsi_spec_iff (lib : IndicatorLibrary) (bars : List Bar) (params : Yaml.Entries) (period : ℤ)
    (hparams : lib.requiredInt params "period" = .ok period)
    (hlength : period + 1 ≤ bars.length) :
    (∃ v, RsiIndicator.compute lib bars params = .ok v ∧ 0 ≤ v ∧ v ≤ 100 ∧
      (¬ Falls bars ∧ Rises bars → v = 100) ∧ (¬ Rises bars ∧ Falls bars → v = 0)) ↔
    1 ≤ period ∧ Falls bars := by
  rw [rsi_compute_eq hparams hlength]
  constructor
  · rintro ⟨v, hv, -⟩
    obtain ⟨series, hseries, hlast⟩ := Except.bind_eq_ok.mp hv
    have hperiod := period_of_rsiSeries hseries
    have hne : bars ≠ [] := List.ne_nil_of_length_pos (by omega)
    refine ⟨hperiod, by_contra fun hfall => ?_⟩
    obtain ⟨h₀, h₁⟩ := weight_mem hperiod
    -- without a loss no row has a value
    obtain ⟨x, hx, hvalue⟩ := strength_of_lastValid hne hseries (lastValid_eq_ok.mp hlast)
    rw [strength, quotient, if_pos (loss_eq_zero h₀ h₁ hfall hx)] at hvalue
    cases hvalue
  · rintro ⟨hperiod, hfall⟩
    obtain ⟨h₀, h₁⟩ := weight_mem hperiod
    have hne : bars ≠ [] := List.ne_nil_of_length_pos (by omega)
    obtain ⟨series, v, hseries, hlast⟩ := exists_lastValid hne hperiod
      (by rw [length_changes]; omega) hfall
    obtain ⟨x, hx, hvalue⟩ := strength_of_lastValid hne hseries hlast
    obtain ⟨hx₁, hx₂⟩ := gainLoss_nonneg h₀ h₁ hx
    obtain ⟨hlow, hhigh, hzero⟩ := strength_mem hx₁ hx₂ hvalue
    refine ⟨v, ?_, hlow, hhigh, fun h => absurd hfall h.1,
      fun h => hzero (gain_eq_zero h₀ h₁ h.1 hx)⟩
    rw [hseries]
    exact lastValid_eq_ok.mpr hlast

/-- A bar that stays at one price. -/
def stillBar (close : ℚ) : Bar where
  «open» := close
  high := close
  low := close
  close
  volume := 1

/-- Conversions that read no text, and no root. -/
def plainLibrary : IndicatorLibrary where
  parseInt _ := none
  parseFloat _ := none
  text _ := ""
  sqrt x := x

theorem rsi_spec_iff_fall : (∃ v, RsiIndicator.compute plainLibrary
      ([100, 101, 99].map stillBar) [("period", .int 2)] = .ok v ∧ 0 ≤ v ∧ v ≤ 100 ∧
      (¬ Falls ([100, 101, 99].map stillBar) ∧ Rises ([100, 101, 99].map stillBar) → v = 100) ∧
      (¬ Rises ([100, 101, 99].map stillBar) ∧ Falls ([100, 101, 99].map stillBar) → v = 0)) ↔
    1 ≤ (2 : ℤ) ∧ Falls ([100, 101, 99].map stillBar) :=
  rsi_spec_iff plainLibrary _ _ 2 rfl (by decide)

/-- A close that only rises leaves the indicator without a value. -/
theorem not_rsi_spec : ¬ ∀ (lib : IndicatorLibrary) (bars : List Bar) (params : Yaml.Entries)
    (period : ℤ), lib.requiredInt params "period" = .ok period → 1 ≤ period →
    period + 1 ≤ bars.length →
    ∃ v, RsiIndicator.compute lib bars params = .ok v ∧ 0 ≤ v ∧ v ≤ 100 ∧
      (¬ Falls bars ∧ Rises bars → v = 100) ∧ (¬ Rises bars ∧ Falls bars → v = 0) := by
  intro h
  obtain ⟨v, hv, -⟩ := h plainLibrary ([100, 101, 102].map stillBar) [("period", .int 2)] 2 rfl
    (by decide) (by decide)
  have hraises : RsiIndicator.compute plainLibrary ([100, 101, 102].map stillBar)
      [("period", .int 2)] = .error (.insufficientData "rsi" 2) := by decide +kernel
  rw [hraises] at hv
  cases hv

end TradingPlatform
