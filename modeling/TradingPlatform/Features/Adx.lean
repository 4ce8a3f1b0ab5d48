import TradingPlatform.Execution.ExitPrices
import TradingPlatform.Features.Rsi

/-!
# The average directional index

The movement of a bar in one direction is at most its true range, and a bar moves in one direction
at most. The movements and the range are smoothed with the same weights, so the bound carries over
to the averages, and from them to the indicators.
-/

namespace TradingPlatform

/-- The movements up and down of a bar, and its true range. -/
def movement (x : Option Bar × Bar) : ℚ × ℚ × ℚ :=
  (plusDm x.1 x.2, minusDm x.1 x.2, trueRange x.1 x.2)

/-- The movements of each bar. -/
def movements (bars : List Bar) : List (ℚ × ℚ × ℚ) := (Series.lagged bars).map movement

@[simp] theorem length_movements (bars : List Bar) : (movements bars).length = bars.length := by
  rw [movements, List.length_map, Series.length_lagged]

/-- The movements up and down are within the range. -/
structure Bounded (r : ℚ × ℚ × ℚ) : Prop where
  up : 0 ≤ r.1
  down : 0 ≤ r.2.1
  range : r.1 + r.2.1 ≤ r.2.2

/-- The averages of the movements, from the bar on up to which there is a period of them. -/
def averages (bars : List Bar) (period : ℤ) : Series (ℚ × ℚ × ℚ) :=
  Series.warm period.toNat (Series.smooth (1 / period : ℚ) (movements bars))

def plusDiOf (r : ℚ × ℚ × ℚ) : Option ℚ := quotient (100 * r.1) r.2.2

def minusDiOf (r : ℚ × ℚ × ℚ) : Option ℚ := quotient (100 * r.2.1) r.2.2

/-- `dx` of averages. -/
def dxOf (r : Option (ℚ × ℚ × ℚ)) : ℚ := dx (r.bind plusDiOf) (r.bind minusDiOf)

theorem adxComponents_eq {bars : List Bar} {period : ℤ} (hperiod : 1 ≤ period)
    (hlength : 2 * period ≤ bars.length) : adxComponents bars period = .ok
      { adx := Series.warm period.toNat
          (Series.smooth (1 / period : ℚ) ((averages bars period).map dxOf))
        plusDi := (averages bars period).map (·.bind plusDiOf)
        minusDi := (averages bars period).map (·.bind minusDiOf) } := by
  have hup : (Series.lagged bars).map (fun x => some (plusDm x.1 x.2)) =
      ((movements bars).map (LinearMap.fst ℚ ℚ (ℚ × ℚ))).map some := by
    rw [movements, List.map_map, List.map_map]
    rfl
  have hdown : (Series.lagged bars).map (fun x => some (minusDm x.1 x.2)) =
      ((movements bars).map
        (LinearMap.fst ℚ ℚ ℚ ∘ₗ LinearMap.snd ℚ ℚ (ℚ × ℚ))).map some := by
    rw [movements, List.map_map, List.map_map]
    rfl
  have hrange : (trueRanges bars).map some = ((movements bars).map
      (LinearMap.snd ℚ ℚ ℚ ∘ₗ LinearMap.snd ℚ ℚ (ℚ × ℚ))).map some := by
    rw [trueRanges, movements, List.map_map, List.map_map, List.map_map]
    rfl
  rw [adxComponents, requireBars, if_neg (by omega)]
  dsimp only
  rw [hup, hdown, hrange, ewmAlpha_eq hperiod, ewmAlpha_eq hperiod, ewmAlpha_eq hperiod,
    Series.ewm_map_some, Series.ewm_map_some, Series.ewm_map_some, Series.smooth_map,
    Series.smooth_map, Series.smooth_map, Series.warm_map, Series.warm_map, Series.warm_map]
  change (ewmAlpha period
    ((List.zipWith dx (Series.lift₂ _ _ _) (Series.lift₂ _ _ _)).map some)).bind _ = _
  rw [Series.lift₂_map, Series.lift₂_map, ewmAlpha_eq hperiod, Series.ewm_map_some,
    List.zipWith_map, List.zipWith_self]
  rfl

theorem of_adxComponents {bars : List Bar} {period : ℤ} {c : Adx}
    (h : adxComponents bars period = .ok c) : 2 * period ≤ bars.length ∧ 1 ≤ period := by
  obtain ⟨⟨⟩, hlength, h⟩ := Except.bind_eq_ok.mp h
  obtain ⟨_, hatr, -⟩ := Except.bind_eq_ok.mp h
  refine ⟨?_, period_of_ewmAlpha hatr⟩
  unfold requireBars at hlength
  split_ifs at hlength with hshort
  exact not_lt.mp hshort

section

variable {bars : List Bar} {period : ℤ} {r : ℚ × ℚ × ℚ}

theorem mem_of_mem_lagged {x : Option Bar × Bar} (h : x ∈ Series.lagged bars) :
    x.2 ∈ bars ∧ ∀ previous ∈ x.1, previous ∈ bars := by
  obtain ⟨previous, bar⟩ := x
  obtain ⟨hprevious, hbar⟩ := List.of_mem_zip h
  refine ⟨hbar, ?_⟩
  rintro p rfl
  rcases List.mem_cons.mp hprevious with hnone | hmem
  · cases hnone
  · obtain ⟨_, hp, hsome⟩ := List.mem_map.mp hmem
    cases hsome
    exact hp

/-- A bar moves in one direction at most, and the close before it lies on the near side of the
extreme it moves away from. -/
theorem bounded_movement {x : Option Bar × Bar} (hbar : x.2.WellFormed)
    (hprevious : ∀ previous ∈ x.1, previous.WellFormed) : Bounded (movement x) := by
  obtain ⟨previous, bar⟩ := x
  cases previous with
  | none =>
    refine ⟨le_rfl, le_rfl, ?_⟩
    change (0 : ℚ) + 0 ≤ bar.high - bar.low
    linarith [hbar.low_le_high]
  | some previous =>
    have hp := hprevious previous rfl
    have hrange : 0 ≤ trueRange (some previous) bar :=
      le_max_of_le_left (le_max_of_le_left (sub_nonneg.mpr hbar.low_le_high))
    have hup : bar.high - previous.high ≤ trueRange (some previous) bar := by
      calc bar.high - previous.high ≤ bar.high - previous.close := by linarith [hp.close_le_high]
        _ ≤ |bar.high - previous.close| := le_abs_self _
        _ ≤ trueRange (some previous) bar := le_max_of_le_left (le_max_right _ _)
    have hdown : previous.low - bar.low ≤ trueRange (some previous) bar := by
      calc previous.low - bar.low ≤ -(bar.low - previous.close) := by linarith [hp.low_le_close]
        _ ≤ |bar.low - previous.close| := neg_le_abs _
        _ ≤ trueRange (some previous) bar := le_max_right _ _
    constructor <;> dsimp only [movement, plusDm, minusDm] <;> split_ifs <;> linarith

theorem convex_bounded : Convex ℚ {r : ℚ × ℚ × ℚ | Bounded r} := by
  intro x hx y hy a b ha hb _
  refine ⟨?_, ?_, ?_⟩
  · exact add_nonneg (mul_nonneg ha hx.up) (mul_nonneg hb hy.up)
  · exact add_nonneg (mul_nonneg ha hx.down) (mul_nonneg hb hy.down)
  · have h₁ := mul_le_mul_of_nonneg_left hx.range ha
    have h₂ := mul_le_mul_of_nonneg_left hy.range hb
    change a * x.1 + b * y.1 + (a * x.2.1 + b * y.2.1) ≤ a * x.2.2 + b * y.2.2
    linarith

theorem bounded_of_mem_averages (hperiod : 1 ≤ period) (hbars : ∀ bar ∈ bars, bar.WellFormed)
    (h : some r ∈ averages bars period) : Bounded r := by
  obtain ⟨h₀, h₁⟩ := weight_mem hperiod
  refine Series.smooth_mem_of_convex convex_bounded h₀ h₁ (fun y hy => ?_) r
    (Series.mem_of_mem_warm h)
  obtain ⟨x, hx, rfl⟩ := List.mem_map.mp hy
  obtain ⟨hbar, hprevious⟩ := mem_of_mem_lagged hx
  exact bounded_movement (hbars _ hbar) fun previous hp => hbars _ (hprevious previous hp)

theorem quotient_eq_some {a b v : ℚ} (h : quotient a b = some v) : b ≠ 0 ∧ v = a / b := by
  unfold quotient at h
  split_ifs at h with hzero
  cases h
  exact ⟨hzero, rfl⟩

/-- The directional indicators of bounded averages. -/
theorem di_of_bounded (h : Bounded r) {p m : ℚ} (hp : plusDiOf r = some p)
    (hm : minusDiOf r = some m) : 0 ≤ p ∧ 0 ≤ m ∧ p + m ≤ 100 := by
  obtain ⟨hne, rfl⟩ := quotient_eq_some hp
  obtain ⟨_, rfl⟩ := quotient_eq_some hm
  have hnonneg : 0 ≤ r.2.2 := (add_nonneg h.up h.down).trans h.range
  have hpos : 0 < r.2.2 := lt_of_le_of_ne hnonneg hne.symm
  refine ⟨div_nonneg (mul_nonneg (by norm_num) h.up) hnonneg,
    div_nonneg (mul_nonneg (by norm_num) h.down) hnonneg, ?_⟩
  rw [← add_div, div_le_iff₀ hpos]
  linarith [h.range]

/-- The index of two directional indicators that are not negative. -/
theorem dx_mem {p m : ℚ} (hp : 0 ≤ p) (hm : 0 ≤ m) :
    0 ≤ dx (some p) (some m) ∧ dx (some p) (some m) ≤ 100 := by
  change 0 ≤ (quotient (100 * |p - m|) (p + m)).getD 0 ∧
    (quotient (100 * |p - m|) (p + m)).getD 0 ≤ 100
  unfold quotient
  split_ifs with hzero
  · exact ⟨le_rfl, by norm_num⟩
  · have hpos : 0 < p + m := lt_of_le_of_ne (add_nonneg hp hm) (Ne.symm hzero)
    have habs : |p - m| ≤ p + m := abs_le.mpr ⟨by linarith, by linarith⟩
    refine ⟨div_nonneg (mul_nonneg (by norm_num) (abs_nonneg _)) hpos.le, ?_⟩
    rw [Option.getD_some, div_le_iff₀ hpos]
    linarith

theorem dxOf_mem (hperiod : 1 ≤ period) (hbars : ∀ bar ∈ bars, bar.WellFormed) {v : ℚ}
    (h : v ∈ (averages bars period).map dxOf) : v ∈ Set.Icc (0 : ℚ) 100 := by
  obtain ⟨o, ho, rfl⟩ := List.mem_map.mp h
  cases o with
  | none => exact ⟨le_rfl, by norm_num [dxOf, dx]⟩
  | some r =>
    have hr := bounded_of_mem_averages hperiod hbars ho
    by_cases hzero : r.2.2 = 0
    · have hnone : plusDiOf r = none := if_pos hzero
      rw [dxOf, Option.bind_some, hnone]
      exact ⟨le_rfl, by norm_num [dx]⟩
    · have hp : plusDiOf r = some (100 * r.1 / r.2.2) := if_neg hzero
      have hm : minusDiOf r = some (100 * r.2.1 / r.2.2) := if_neg hzero
      obtain ⟨hp₀, hm₀, _⟩ := di_of_bounded hr hp hm
      rw [dxOf, Option.bind_some, Option.bind_some, hp, hm]
      exact dx_mem hp₀ hm₀

end

/-- Where they are defined, the directional indicators are not negative and add up to at most 100,
and the index is between 0 and 100. -/
theorem adxComponents_bounded (bars : List Bar) (period : ℤ)
    (hbars : ∀ bar ∈ bars, bar.WellFormed) (c : Adx) (h : adxComponents bars period = .ok c) :
    (∀ (i : ℕ) (v : ℚ), c.adx[i]? = some (some v) → 0 ≤ v ∧ v ≤ 100) ∧
    ∀ (i : ℕ) (p m : ℚ), c.plusDi[i]? = some (some p) → c.minusDi[i]? = some (some m) →
      0 ≤ p ∧ 0 ≤ m ∧ p + m ≤ 100 := by
  obtain ⟨hlength, hperiod⟩ := of_adxComponents h
  rw [adxComponents_eq hperiod hlength] at h
  cases h
  constructor
  · intro i v hv
    obtain ⟨h₀, h₁⟩ := weight_mem hperiod
    exact Series.smooth_mem_of_convex (convex_Icc 0 100) h₀ h₁
      (fun w hw => dxOf_mem hperiod hbars hw) v (Series.mem_of_mem_warm (List.mem_of_getElem? hv))
  · intro i p m hp hm
    rw [List.getElem?_map] at hp hm
    obtain ⟨o, ho, hp⟩ := Option.map_eq_some_iff.mp hp
    rw [ho] at hm
    obtain ⟨r, rfl, hp⟩ := Option.bind_eq_some_iff.mp hp
    exact di_of_bounded (bounded_of_mem_averages hperiod hbars (List.mem_of_getElem? ho)) hp
      (Option.some.inj hm)

/-- A rise by a gap and a fall back. -/
def gapBars : List Bar := [⟨100, 101, 99, 100, 1⟩, ⟨110, 112, 109, 111, 1⟩, ⟨111, 111, 98, 99, 1⟩,
  ⟨99, 103, 97, 101, 1⟩]

theorem adxComponents_bounded_gap : ∃ c, adxComponents gapBars 2 = .ok c ∧
    (∀ (i : ℕ) (v : ℚ), c.adx[i]? = some (some v) → 0 ≤ v ∧ v ≤ 100) ∧
    ∀ (i : ℕ) (p m : ℚ), c.plusDi[i]? = some (some p) → c.minusDi[i]? = some (some m) →
      0 ≤ p ∧ 0 ≤ m ∧ p + m ≤ 100 :=
  ⟨_, adxComponents_eq (by decide) (by decide),
    adxComponents_bounded gapBars 2 (by decide +kernel) _
      (adxComponents_eq (by decide) (by decide))⟩

end TradingPlatform
