import TradingPlatform.Features.Adx

/-!
# SuperTrend

The line of an uptrend is the lower band and that of a downtrend the upper one. A band is carried
from bar to bar until the close passes it or a basic band is tighter, so after a sharp move a band
that is carried can lie on the far side of the other one. The trend turns when the close passes the
band that it follows, and a close between two bands that have crossed is on the wrong side of both.
-/

theorem List.forall₂_iff_getElem? {α β : Type*} {R : α → β → Prop} {l₁ : List α} {l₂ : List β} :
    List.Forall₂ R l₁ l₂ ↔ l₁.length = l₂.length ∧
      ∀ (i : ℕ) (a : α) (b : β), l₁[i]? = some a → l₂[i]? = some b → R a b := by
  rw [List.forall₂_iff_get]
  refine and_congr_right fun hlength => ⟨fun h i a b ha hb => ?_, fun h i h₁ h₂ => ?_⟩
  · obtain ⟨h₁, rfl⟩ := List.getElem?_eq_some_iff.mp ha
    obtain ⟨h₂, rfl⟩ := List.getElem?_eq_some_iff.mp hb
    exact h i h₁ h₂
  · exact h i _ _ (List.getElem?_eq_getElem h₁) (List.getElem?_eq_getElem h₂)

namespace TradingPlatform

/-- The close is on the side of the line that the trend says. -/
def OnSide (close : ℚ) (x : Bands × Bool) : Prop :=
  if x.2 then x.1.lower ≤ close else close ≤ x.1.upper

/-- The next bar, with its basic bands and its close, puts the close between crossed bands, after a
bar with these final bands and this close: it falls below a lower band that is carried and stays
above its basic upper band, or rises above an upper band that is carried and stays below its basic
lower band, or its basic bands have crossed and none is carried. -/
def Caught (previous : Option Bands) (close : ℚ) (basic : Bands) (next : ℚ) : Prop :=
  match previous with
  | none => basic.upper < next ∧ next < basic.lower
  | some previous =>
    let carriesLower := basic.lower ≤ previous.lower ∧ previous.lower ≤ close
    let carriesUpper := previous.upper ≤ basic.upper ∧ close ≤ previous.upper
    (carriesLower ∧ basic.upper < next ∧ next < previous.lower) ∨
      (carriesUpper ∧ previous.upper < next ∧ next < basic.lower) ∨
      (¬ carriesLower ∧ ¬ carriesUpper ∧ basic.upper < next ∧ next < basic.lower)

/-- No bar of a run puts its close between crossed bands, and the first bar of the frame, if it has
bands, does not close below its lower one. -/
def Clear (first : Bool) (previous : Option Bands) (close : ℚ) : List (ℚ × Option Bands) → Prop
  | [] => True
  | (next, none) :: rest => Clear false none next rest
  | (next, some basic) :: rest =>
    (if first then basic.lower ≤ next else ¬ Caught previous close basic next) ∧
      Clear false (some (basic.carry previous close)) next rest

/-! ## One bar -/

section

variable {previous : Option Bands} {close next : ℚ} {basic bands : Bands}

/-- Of the final bands one at most is carried where the close is caught between them. -/
theorem caught_iff : Caught previous close basic next ↔
    (basic.carry previous close).upper < next ∧ next < (basic.carry previous close).lower := by
  cases previous with
  | none => rfl
  | some previous =>
    have hupper : ((basic.carry (some previous) close).upper = previous.upper ∧
          previous.upper ≤ basic.upper ∧ close ≤ previous.upper) ∨
        ((basic.carry (some previous) close).upper = basic.upper ∧
          ¬ (previous.upper ≤ basic.upper ∧ close ≤ previous.upper)) := by
      dsimp only [Bands.carry]
      split_ifs with h
      · exact .inr ⟨rfl, fun hkeep => h.elim hkeep.1.not_gt hkeep.2.not_gt⟩
      · exact .inl ⟨rfl, not_lt.mp fun hlt => h (.inl hlt), not_lt.mp fun hlt => h (.inr hlt)⟩
    have hlower : ((basic.carry (some previous) close).lower = previous.lower ∧
          basic.lower ≤ previous.lower ∧ previous.lower ≤ close) ∨
        ((basic.carry (some previous) close).lower = basic.lower ∧
          ¬ (basic.lower ≤ previous.lower ∧ previous.lower ≤ close)) := by
      dsimp only [Bands.carry]
      split_ifs with h
      · exact .inr ⟨rfl, fun hkeep => h.elim hkeep.1.not_gt hkeep.2.not_gt⟩
      · exact .inl ⟨rfl, not_lt.mp fun hlt => h (.inl hlt), not_lt.mp fun hlt => h (.inr hlt)⟩
    dsimp only [Caught]
    rcases hupper with ⟨hu, hup⟩ | ⟨hu, hup⟩ <;> rcases hlower with ⟨hl, hlow⟩ | ⟨hl, hlow⟩ <;>
      rw [hu, hl]
    · -- both bands carried: the close before is between them, so they have not crossed
      refine iff_of_false ?_ fun h => by linarith [h.1, h.2, hup.2, hlow.2]
      rintro (⟨_, h₁, h₂⟩ | ⟨_, h₁, h₂⟩ | ⟨h, _⟩)
      · linarith [hup.1, hup.2, hlow.2]
      · linarith [hup.2, hlow.1, hlow.2]
      · exact h hlow
    · exact ⟨fun h => (h.resolve_left fun h => hlow h.1).resolve_right (fun h => h.2.1 hup) |>.2,
        fun h => .inr (.inl ⟨hup, h⟩)⟩
    · exact ⟨fun h => (h.resolve_right fun h => h.elim (fun h => hup h.1) fun h => h.1 hlow).2,
        fun h => .inl ⟨hlow, h⟩⟩
    · exact ⟨fun h => ((h.resolve_left fun h => hlow h.1).resolve_left fun h => hup h.1).2.2,
        fun h => .inr (.inr ⟨hlow, hup, h⟩)⟩

/-- A bar whose trend is not that of the first bar closes on its side unless it is caught. -/
theorem onSide_trendOf (up : Bool) : OnSide next (bands, trendOf false up next bands) ↔
    ¬ (bands.upper < next ∧ next < bands.lower) := by
  cases up with
  | true =>
    by_cases h : bands.lower ≤ next
    · have hup : trendOf false true next bands = true := decide_eq_true h
      rw [hup]
      exact iff_of_true h fun hcaught => hcaught.2.not_ge h
    · have hdown : trendOf false true next bands = false := decide_eq_false h
      rw [hdown, not_and, not_lt]
      exact ⟨fun hle hlt => absurd hle hlt.not_ge, fun hkeep => not_lt.mp fun hlt =>
        h (hkeep hlt)⟩
  | false =>
    by_cases h : bands.upper < next
    · have hup : trendOf false false next bands = true := decide_eq_true h
      rw [hup, not_and, not_lt]
      exact ⟨fun hle _ => hle, fun hkeep => hkeep h⟩
    · have hdown : trendOf false false next bands = false := decide_eq_false h
      rw [hdown]
      exact iff_of_true (not_lt.mp h) fun hcaught => h hcaught.1

theorem onSide_first (up : Bool) : OnSide next (bands, trendOf true up next bands) ↔
    bands.lower ≤ next := Iff.rfl

end

/-! ## A run -/

/-- The bars of a run close on their sides exactly when the run is clear. -/
theorem onSide_trends_iff (first up : Bool) (previous : Option Bands) (close : ℚ)
    (bars : List (ℚ × Option Bands)) (hfirst : first = true → previous = none) :
    List.Forall₂ (fun bar row => ∀ x ∈ row, OnSide bar.1 x) bars
      (trends first up (finalBands previous close bars)) ↔ Clear first previous close bars := by
  induction bars generalizing first up previous close with
  | nil => simp [finalBands, trends, Clear]
  | cons bar rest ih =>
    obtain ⟨next, basic⟩ := bar
    cases basic with
    | none =>
      rw [finalBands, Option.map_none, trends, List.forall₂_cons, Clear,
        ih _ _ _ _ (fun h => by cases h)]
      simp
    | some basic =>
      rw [finalBands, Option.map_some, trends, List.forall₂_cons, Clear,
        ih _ _ _ _ (fun h => by cases h)]
      refine and_congr_left fun _ => ?_
      simp only [Option.mem_some_iff, forall_eq']
      cases first with
      | true =>
        rw [hfirst rfl]
        exact onSide_first up
      | false => exact (onSide_trendOf up).trans (not_congr caught_iff.symm)

theorem length_finalBands (previous : Option Bands) (close : ℚ) (bars : List (ℚ × Option Bands)) :
    (finalBands previous close bars).length = bars.length := by
  induction bars generalizing previous close with
  | nil => rfl
  | cons bar rest ih => rw [finalBands, List.length_cons, ih, List.length_cons]

theorem length_trends (first up : Bool) (bars : List (ℚ × Option Bands)) :
    (trends first up bars).length = bars.length := by
  induction bars generalizing first up with
  | nil => rfl
  | cons bar rest ih =>
    obtain ⟨close, bands⟩ := bar
    cases bands <;> rw [trends, List.length_cons, ih, List.length_cons]

/-- The bars with their basic bands. -/
def bandRows (bars : List Bar) (period : ℤ) (multiplier : ℚ) : List (ℚ × Option Bands) :=
  List.zipWith (fun bar atr => (bar.close, basicBands multiplier bar atr)) bars
    (Series.ewm (1 / period : ℚ) period.toNat ((trueRanges bars).map some))

theorem map_fst_bandRows {bars : List Bar} {period : ℤ} {multiplier : ℚ} :
    (bandRows bars period multiplier).map Prod.fst = closes bars := by
  have hlength : bars.length ≤
      (Series.ewm (1 / period : ℚ) period.toNat ((trueRanges bars).map some)).length := by
    rw [Series.ewm_map_some, Series.length_warm, Series.length_smooth, length_trueRanges]
  rw [bandRows, List.map_zipWith, ← List.map_uncurry_zip_eq_zipWith, closes]
  conv_rhs => rw [← List.map_fst_zip hlength, List.map_map]
  rfl

theorem supertrendComponents_eq {bars : List Bar} {period : ℤ} {multiplier : ℚ} {c : SuperTrend}
    (h : supertrendComponents bars period multiplier = .ok c) :
    1 ≤ period ∧ c = supertrendNumpy (bandRows bars period multiplier) := by
  obtain ⟨⟨⟩, -, h⟩ := Except.bind_eq_ok.mp h
  obtain ⟨atr, hatr, h⟩ := Except.bind_eq_ok.mp h
  have hperiod := period_of_ewmAlpha hatr
  rw [atrSeries, ewmAlpha_eq hperiod] at hatr
  cases hatr
  cases h
  exact ⟨hperiod, rfl⟩

theorem supertrendComponents_ok {bars : List Bar} {period : ℤ} {multiplier : ℚ}
    (hperiod : 1 ≤ period) (hlength : 2 * period ≤ bars.length) :
    supertrendComponents bars period multiplier =
      .ok (supertrendNumpy (bandRows bars period multiplier)) := by
  rw [supertrendComponents, requireBars, if_neg (by omega), atrSeries, ewmAlpha_eq hperiod]
  rfl

section Rows

variable {rows : List (ℚ × Option Bands)} {i : ℕ} {bands : Bands} {up : Bool}

theorem line_of_trend
    (h : (trends true true (finalBands none 0 rows))[i]? = some (some (bands, up))) :
    (supertrendNumpy rows).line[i]? = some (some (if up then bands.lower else bands.upper)) := by
  rw [supertrendNumpy, List.getElem?_map, h]
  rfl

theorem direction_of_trend
    (h : (trends true true (finalBands none 0 rows))[i]? = some (some (bands, up))) :
    (supertrendNumpy rows).direction[i]? = some (some (if up then 1 else -1)) := by
  rw [supertrendNumpy, List.getElem?_map, h]
  rfl

/-- A row has the close of its bar. -/
theorem close_bandRows (bars : List Bar) (period : ℤ) (multiplier : ℚ) (i : ℕ) :
    (bandRows bars period multiplier)[i]?.map Prod.fst = bars[i]?.map (·.close) := by
  rw [← List.getElem?_map, map_fst_bandRows, closes, List.getElem?_map]

end Rows

/-- At every bar with bands the close is on the side of the line that the direction says, exactly
when no bar puts its close between crossed bands. -/
theorem supertrendComponents_onSide_iff (bars : List Bar) (period : ℤ) (multiplier : ℚ)
    (c : SuperTrend) (h : supertrendComponents bars period multiplier = .ok c) :
    (∀ (i : ℕ) (bar : Bar) (line : ℚ), bars[i]? = some bar → c.line[i]? = some (some line) →
      (c.direction[i]? = some (some 1) → line ≤ bar.close) ∧
      (c.direction[i]? = some (some (-1)) → bar.close ≤ line)) ↔
    Clear true none 0 (bandRows bars period multiplier) := by
  obtain ⟨-, rfl⟩ := supertrendComponents_eq h
  rw [← onSide_trends_iff true true none 0 _ (fun _ => rfl), List.forall₂_iff_getElem?]
  have hlength : (bandRows bars period multiplier).length =
      (trends true true (finalBands none 0 (bandRows bars period multiplier))).length := by
    rw [length_trends, length_finalBands]
  have hcloses := close_bandRows bars period multiplier
  rw [and_iff_right hlength]
  constructor
  · intro hside i row trend hrow htrend x hx
    rw [Option.mem_def] at hx
    subst hx
    obtain ⟨bar, hbar, hclose⟩ := Option.map_eq_some_iff.mp
      ((hcloses i).symm.trans (congrArg (Option.map Prod.fst) hrow))
    obtain ⟨bands, up⟩ := x
    obtain ⟨hup, hdown⟩ := hside i bar _ hbar (line_of_trend htrend)
    rw [direction_of_trend htrend] at hup hdown
    rw [← hclose]
    cases up with
    | true => exact hup rfl
    | false => exact hdown rfl
  · intro hside i bar line hbar hline
    have hmapped := hline
    rw [supertrendNumpy, List.getElem?_map] at hmapped
    obtain ⟨trend, htrend, hvalue⟩ := Option.map_eq_some_iff.mp hmapped
    obtain ⟨⟨bands, up⟩, rfl, rfl⟩ := Option.map_eq_some_iff.mp hvalue
    obtain ⟨row, hrow, hclose⟩ := Option.map_eq_some_iff.mp
      ((hcloses i).trans (congrArg (Option.map Bar.close) hbar))
    have hon := hside i row _ hrow htrend _ rfl
    rw [direction_of_trend htrend]
    cases up with
    | true => exact ⟨fun _ => hclose ▸ hon, fun h => absurd h (by norm_num)⟩
    | false => exact ⟨fun h => absurd h (by norm_num), fun _ => hclose ▸ hon⟩

/-- Nineteen bars at one price, and one that falls from it and recovers half way. -/
def fallenBars : List Bar := List.replicate 19 (stillBar 100) ++ [⟨100, 100, 60, 95, 1⟩]

theorem supertrendComponents_onSide_iff_fallen : ∃ c,
    supertrendComponents fallenBars 10 3 = .ok c ∧
    ((∀ (i : ℕ) (bar : Bar) (line : ℚ), fallenBars[i]? = some bar →
      c.line[i]? = some (some line) →
      (c.direction[i]? = some (some 1) → line ≤ bar.close) ∧
      (c.direction[i]? = some (some (-1)) → bar.close ≤ line)) ↔
    Clear true none 0 (bandRows fallenBars 10 3)) :=
  ⟨_, supertrendComponents_ok (by decide) (by decide),
    supertrendComponents_onSide_iff fallenBars 10 3 _
      (supertrendComponents_ok (by decide) (by decide))⟩

/-- The last bar closes below the lower band and turns the trend, and is still above the upper band,
which is the line of the downtrend. -/
theorem not_supertrendComponents_onSide : ¬ ∀ (bars : List Bar) (period : ℤ) (multiplier : ℚ)
    (c : SuperTrend), (∀ bar ∈ bars, bar.WellFormed) →
    supertrendComponents bars period multiplier = .ok c →
    ∀ (i : ℕ) (bar : Bar) (line : ℚ), bars[i]? = some bar → c.line[i]? = some (some line) →
      (c.direction[i]? = some (some 1) → line ≤ bar.close) ∧
      (c.direction[i]? = some (some (-1)) → bar.close ≤ line) := by
  intro h
  have hlast := h fallenBars 10 3 _ (by decide +kernel)
    (supertrendComponents_ok (by decide) (by decide)) 19 ⟨100, 100, 60, 95, 1⟩ 92 rfl
    (by decide +kernel)
  exact absurd (hlast.2 (by decide +kernel)) (by norm_num)

end TradingPlatform
