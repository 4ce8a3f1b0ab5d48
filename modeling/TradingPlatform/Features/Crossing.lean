import TradingPlatform.Config.Rewriting
import TradingPlatform.Config.Applying
import TradingPlatform.Features.Staleness

/-!
# The crossing of the averages

A trial sets the periods of the two averages, and the crossing indicator has periods of its own,
which neither the sweep nor the file that is written gets from the trial. The crossing is that of
the averages when the periods agree, and only then: prices that stand still and then jump tell any
two pairs of periods apart.
-/

namespace TradingPlatform

/-! ## Crossings of averages -/

theorem crossing_mul_pos {w : ℚ} (hw : 0 < w) (p q : ℚ) :
    crossing (w * p) (w * q) = crossing p q := by
  have hnonpos : w * p ≤ 0 ↔ p ≤ 0 := by
    rw [← not_lt, ← not_lt, mul_pos_iff_of_pos_left hw]
  have hneg : w * q < 0 ↔ q < 0 := by
    rw [← not_le, ← not_le, mul_nonneg_iff_of_pos_left hw]
  simp only [crossing, hnonpos, hneg, mul_pos_iff_of_pos_left hw, mul_nonneg_iff_of_pos_left hw]

theorem cast_sign_injective : Function.Injective (SignType.cast : SignType → ℚ) := by
  intro a b h
  cases a <;> cases b <;> first | rfl | norm_num at h

theorem crossing_zero (q : ℚ) : crossing 0 q = SignType.sign q := by
  rcases lt_trichotomy q 0 with hq | rfl | hq
  · rw [crossing, if_neg fun h => h.2.not_gt hq, if_pos ⟨le_rfl, hq⟩, sign_neg hq]
    rfl
  · simp [crossing]
  · rw [crossing, if_pos ⟨le_rfl, hq⟩, sign_pos hq]
    rfl

theorem crossing_neg (p q : ℚ) : crossing (-p) (-q) = -crossing p q := by
  rw [crossing, crossing]
  simp only [Left.neg_nonpos_iff, Left.neg_pos_iff, Left.nonneg_neg_iff, Left.neg_neg_iff]
  split_ifs with h₁ h₂ h₂
  · exact absurd h₁.2 h₂.2.le.not_gt
  · exact (neg_neg 1).symm
  · rfl
  · exact neg_zero.symm

/-- From above, the spread crosses when it becomes negative. -/
theorem crossing_of_pos {p q : ℚ} (hp : 0 < p) : crossing p q = -1 ↔ q < 0 := by
  rw [crossing, if_neg fun h => h.1.not_gt hp]
  split_ifs with h
  · exact iff_of_true rfl h.2
  · exact iff_of_false (by norm_num) fun hq => h ⟨hp.le, hq⟩

/-- The spread of two averages of changes from a price. -/
def spreadAfter (fast slow : ℚ) (xs : List ℚ) : ℚ :=
  Series.averageAfter fast 0 xs - Series.averageAfter slow 0 xs

/-- The crossing at the last of a list of changes. -/
def crossingAfter (fast slow : ℚ) (xs : List ℚ) (x : ℚ) : ℚ :=
  crossing (spreadAfter fast slow xs) (spreadAfter fast slow (xs ++ [x]))

section

variable {fast slow fast' slow' : ℚ}

theorem spreadAfter_swap (xs : List ℚ) :
    spreadAfter slow fast xs = -spreadAfter fast slow xs := (neg_sub _ _).symm

theorem crossingAfter_swap (xs : List ℚ) (x : ℚ) :
    crossingAfter slow fast xs x = -crossingAfter fast slow xs x := by
  rw [crossingAfter, @spreadAfter_swap fast, @spreadAfter_swap fast, crossing_neg]
  rfl

theorem spreadAfter_one (x : ℚ) : spreadAfter fast slow [x] = (fast - slow) * x := by
  simp only [spreadAfter, Series.averageAfter, List.foldl, Series.blend, smul_eq_mul]
  ring

theorem spreadAfter_two (x : ℚ) :
    spreadAfter fast slow [1, x] = (fast - slow) * (x + (1 - (fast + slow))) := by
  simp only [spreadAfter, Series.averageAfter, List.foldl, Series.blend, smul_eq_mul]
  ring

theorem spreadAfter_three (x : ℚ) : spreadAfter fast slow [1, 2, x] = (fast - slow) *
    (x + 2 * (1 - (fast + slow)) + (1 - (fast + slow)) ^ 2 - fast * slow) := by
  simp only [spreadAfter, Series.averageAfter, List.foldl, Series.blend, smul_eq_mul]
  ring

/-- Averages that cross alike after every list of changes have the same weights, where the first
one of each pair is the faster. -/
theorem eq_of_crossingAfter (hlt : slow < fast) (hlt' : slow' < fast') (hfast : fast ≤ 1)
    (hfast' : fast' ≤ 1)
    (h : ∀ xs x, crossingAfter fast slow xs x = crossingAfter fast' slow' xs x) :
    fast = fast' ∧ slow = slow' := by
  have hpos : 0 < fast - slow := sub_pos.mpr hlt
  have hpos' : 0 < fast' - slow' := sub_pos.mpr hlt'
  -- a jump and a second one tell the sums of the weights apart
  have hsum : fast + slow = fast' + slow' := by
    have hiff (x : ℚ) : x + (1 - (fast + slow)) < 0 ↔ x + (1 - (fast' + slow')) < 0 := by
      have hcross := h [1] x
      change crossing (spreadAfter fast slow [1]) (spreadAfter fast slow [1, x]) =
        crossing (spreadAfter fast' slow' [1]) (spreadAfter fast' slow' [1, x]) at hcross
      rw [spreadAfter_one, spreadAfter_one, spreadAfter_two, spreadAfter_two,
        crossing_mul_pos hpos, crossing_mul_pos hpos'] at hcross
      rw [← crossing_of_pos zero_lt_one, hcross, crossing_of_pos zero_lt_one]
    refine eq_of_forall_lt_iff fun x => ?_
    have := hiff (x - 1)
    constructor <;> intro hx <;> [have := this.mp; have := this.mpr] <;> grind
  -- a third jump tells the products apart
  have hprod : fast * slow = fast' * slow' := by
    have hiff (x : ℚ) : x + 2 * (1 - (fast + slow)) + (1 - (fast + slow)) ^ 2 - fast * slow < 0 ↔
        x + 2 * (1 - (fast' + slow')) + (1 - (fast' + slow')) ^ 2 - fast' * slow' < 0 := by
      have hcross := h [1, 2] x
      have habove : 0 < 2 + (1 - (fast + slow)) := by linarith
      have habove' : 0 < 2 + (1 - (fast' + slow')) := by linarith
      change crossing (spreadAfter fast slow [1, 2]) (spreadAfter fast slow [1, 2, x]) =
        crossing (spreadAfter fast' slow' [1, 2]) (spreadAfter fast' slow' [1, 2, x]) at hcross
      rw [spreadAfter_two, spreadAfter_two, spreadAfter_three, spreadAfter_three,
        crossing_mul_pos hpos, crossing_mul_pos hpos'] at hcross
      rw [← crossing_of_pos habove, hcross, crossing_of_pos habove']
    rw [hsum] at hiff
    refine eq_of_forall_lt_iff fun x => ?_
    have := hiff (x - (2 * (1 - (fast' + slow')) + (1 - (fast' + slow')) ^ 2))
    constructor <;> intro hx <;> [have := this.mp; have := this.mpr] <;> grind
  have hdiff : fast - slow = fast' - slow' := by
    refine (sq_eq_sq₀ hpos.le hpos'.le).mp ?_
    linear_combination (fast + slow + fast' + slow') * hsum - 4 * hprod
  constructor <;> linarith

theorem crossingAfter_nil (x : ℚ) :
    crossingAfter fast slow [] x = crossing 0 ((fast - slow) * x) := by
  rw [crossingAfter, List.nil_append, spreadAfter_one]
  congr 1
  exact sub_self _

/-- Two pairs of averages that cross alike are the same pair, or pairs of one average twice. -/
theorem crossingAfter_iff (hfast : fast ≤ 1) (hslow : slow ≤ 1) (hfast' : fast' ≤ 1)
    (hslow' : slow' ≤ 1) :
    (∀ xs x, crossingAfter fast slow xs x = crossingAfter fast' slow' xs x) ↔
      fast = fast' ∧ slow = slow' ∨ fast = slow ∧ fast' = slow' := by
  constructor
  · intro h
    have hsign : SignType.sign (fast - slow) = SignType.sign (fast' - slow') := by
      have hfirst := h [] 1
      rw [crossingAfter_nil, crossingAfter_nil, mul_one, mul_one, crossing_zero,
        crossing_zero] at hfirst
      exact cast_sign_injective hfirst
    rcases lt_trichotomy slow fast with hlt | heq | hlt
    · have hlt' := sub_pos.mp (sign_eq_one_iff.mp
        (hsign.symm.trans (sign_eq_one_iff.mpr (sub_pos.mpr hlt))))
      exact .inl (eq_of_crossingAfter hlt hlt' hfast hfast' h)
    · have heq' := sub_eq_zero.mp (sign_eq_zero_iff.mp
        (hsign.symm.trans (sign_eq_zero_iff.mpr (sub_eq_zero.mpr heq.symm))))
      exact .inr ⟨heq.symm, heq'⟩
    · have hlt' := sub_neg.mp (sign_eq_neg_one_iff.mp
        (hsign.symm.trans (sign_eq_neg_one_iff.mpr (sub_neg.mpr hlt))))
      refine .inl (eq_of_crossingAfter hlt hlt' hslow hslow' fun xs x => ?_).symm
      rw [crossingAfter_swap, h, ← crossingAfter_swap]
  · rintro (⟨rfl, rfl⟩ | ⟨rfl, rfl⟩) xs x
    · rfl
    · rw [crossingAfter, crossingAfter, spreadAfter, spreadAfter, spreadAfter, spreadAfter,
        sub_self, sub_self, sub_self, sub_self]

end

/-! ## What the indicators return -/

section Values

variable {lib : IndicatorLibrary} {bars : List Bar} {params : Yaml.Entries} {period fast slow : ℤ}
  {c x : ℚ} {rest : List ℚ}

/-- The weight of a span. -/
def spanWeight (span : ℤ) : ℚ := 2 / (span + 1)

theorem spanWeight_le (h : 1 ≤ period) : spanWeight period ≤ 1 := by
  have hcast : (1 : ℚ) ≤ period := by exact_mod_cast h
  rw [spanWeight, div_le_one (by linarith)]
  linarith

theorem spanWeight_inj (hfast : 1 ≤ fast) (hslow : 1 ≤ slow) :
    spanWeight fast = spanWeight slow ↔ fast = slow := by
  have hfast' : (1 : ℚ) ≤ fast := by exact_mod_cast hfast
  have hslow' : (1 : ℚ) ≤ slow := by exact_mod_cast hslow
  rw [spanWeight, spanWeight, div_eq_div_iff (by linarith) (by linarith)]
  constructor
  · intro h
    exact_mod_cast (by linarith : (fast : ℚ) = slow)
  · rintro rfl
    rfl

theorem emaSeries_ok (hperiod : 1 ≤ period) : emaSeries bars period =
    .ok ((Series.smooth (spanWeight period) (closes bars)).map some) := by
  rw [emaSeries, ewmSpan, if_neg (by omega), Series.ewm_map_some, Series.warm_zero]
  rfl

theorem period_of_emaSeries {s : Series ℚ} (h : emaSeries bars period = .ok s) : 1 ≤ period := by
  unfold emaSeries ewmSpan at h
  split_ifs at h with hspan
  exact not_lt.mp hspan

/-- The average that is reported. -/
theorem EmaIndicator.compute_eq (hparams : lib.requiredInt params "period" = .ok period)
    (hperiod : 1 ≤ period) (hlength : period ≤ bars.length) (hcloses : closes bars = c :: rest) :
    EmaIndicator.compute lib bars params =
      .ok (Series.averageAfter (spanWeight period) c rest) := by
  rw [EmaIndicator.compute, hparams]
  change (requireBars "ema" period bars >>= fun _ => emaSeries bars period >>= _) = _
  rw [requireBars, if_neg (by omega), emaSeries_ok hperiod]
  refine lastValid_eq_ok.mpr (Series.lastValid_eq_of_current ?_)
  rw [Series.current_map_some, hcloses, Series.smooth_cons, List.getLast?_scanl]
  rfl

/-- The spread of the averages of two periods. -/
def spreadAt (fast slow : ℤ) (c : ℚ) (xs : List ℚ) : ℚ :=
  Series.averageAfter (spanWeight fast) c xs - Series.averageAfter (spanWeight slow) c xs

/-- The crossing of two averages, between the bar before and the last one. -/
theorem emaCrossSignal_eq (hfast : 1 ≤ fast) (hslow : 1 ≤ slow)
    (hlength : slow + 1 ≤ bars.length) (hcloses : closes bars = c :: (rest ++ [x])) :
    emaCrossSignal bars fast slow =
      .ok (crossing (spreadAt fast slow c rest) (spreadAt fast slow c (rest ++ [x]))) := by
  obtain ⟨earlier, hearlier, hfast'⟩ :=
    @Series.smooth_concat ℚ ℚ _ _ _ (spanWeight fast) c rest x
  obtain ⟨earlier', hearlier', hslow'⟩ :=
    @Series.smooth_concat ℚ ℚ _ _ _ (spanWeight slow) c rest x
  rw [emaCrossSignal, requireBars, if_neg (by omega), emaSeries_ok hfast, emaSeries_ok hslow,
    hcloses, hfast', hslow']
  dsimp only [bind, Except.bind]
  rw [minus_map_some, Series.reduceOption_map_some,
    List.zipWith_append (hearlier.trans hearlier'.symm), List.reverse_append]
  change (if spreadAt fast slow c rest ≤ 0 ∧ 0 < spreadAt fast slow c (rest ++ [x]) then _
    else if 0 ≤ spreadAt fast slow c rest ∧ spreadAt fast slow c (rest ++ [x]) < 0 then _
    else _) = _
  rw [crossing]
  split_ifs <;> rfl

end Values

/-! ## The crossing of the averages of a trial -/

/-- The value of a crossing, from the difference of two averages at the bar before and at the last
one. -/
structure IsCrossing (prev curr cross : ℚ) : Prop where
  up : cross = 1 ↔ prev ≤ 0 ∧ 0 < curr
  down : cross = -1 ↔ 0 ≤ prev ∧ curr < 0
  values : cross = 1 ∨ cross = -1 ∨ cross = 0

/-- Prices, with a bar before the last one at which there are averages of the periods. -/
structure PricesFor (periods : List ℤ) (bars : List Bar) : Prop extends OhlcvFrame bars where
  positive : ∀ bar ∈ bars, 0 < bar.low
  two : 2 ≤ bars.length
  long : ∀ period ∈ periods, period + 1 ≤ bars.length

/-- The indicator of the name. -/
def FeaturesConfig.indicator? (config : FeaturesConfig) (name : String) : Option IndicatorDef :=
  config.indicators.find? fun indicator => decide (indicator.name = name)

/-- On a frame, the crossing is that of the averages of the trial's periods that the two other
indicators report. -/
def CrossingOf (lib : IndicatorLibrary) (trial : TrialParams) (bars : List Bar)
    (ema12 ema26 emaCross : IndicatorDef) : Prop :=
  ∃ prevFast fast prevSlow slow cross,
    computeIndicator lib ema12 bars.dropLast = .ok prevFast ∧
    computeIndicator lib ema12 bars = .ok fast ∧ AtLast (emaSeries bars trial.emaFast) fast ∧
    computeIndicator lib ema26 bars.dropLast = .ok prevSlow ∧
    computeIndicator lib ema26 bars = .ok slow ∧ AtLast (emaSeries bars trial.emaSlow) slow ∧
    computeIndicator lib emaCross bars = .ok cross ∧
    IsCrossing (prevFast - prevSlow) (fast - slow) cross

/-- The features have the three indicators, and the crossing is that of the averages. -/
def FeaturesConfig.CrossesAt (config : FeaturesConfig) (lib : IndicatorLibrary)
    (trial : TrialParams) (bars : List Bar) : Prop :=
  ∃ ema12 ema26 emaCross, config.indicator? "ema_12" = some ema12 ∧
    config.indicator? "ema_26" = some ema26 ∧ config.indicator? "ema_cross" = some emaCross ∧
    CrossingOf lib trial bars ema12 ema26 emaCross

/-- The features have two averages and a crossing, of these periods. -/
structure FeaturesConfig.Averages (config : FeaturesConfig) (lib : IndicatorLibrary)
    (emaFast emaSlow fast slow : ℤ) : Prop where
  ema12 : ∃ d, config.indicator? "ema_12" = some d ∧ d.type = "ema" ∧
    lib.requiredInt d.params "period" = .ok emaFast
  ema26 : ∃ d, config.indicator? "ema_26" = some d ∧ d.type = "ema" ∧
    lib.requiredInt d.params "period" = .ok emaSlow
  emaCross : ∃ d, config.indicator? "ema_cross" = some d ∧ d.type = "ema_cross" ∧
    lib.int d.params "fast" 12 = .ok fast ∧ lib.int d.params "slow" 26 = .ok slow

/-- The features of a file with two averages, and a crossing of these periods. -/
structure FeaturesConfig.HasCrossing (base : FeaturesConfig) (lib : IndicatorLibrary)
    (fast slow : ℤ) : Prop where
  ema12 : ∃ d, base.indicator? "ema_12" = some d ∧ d.type = "ema"
  ema26 : ∃ d, base.indicator? "ema_26" = some d ∧ d.type = "ema"
  emaCross : ∃ d, base.indicator? "ema_cross" = some d ∧ d.type = "ema_cross" ∧
    lib.int d.params "fast" 12 = .ok fast ∧ lib.int d.params "slow" 26 = .ok slow

/-- The periods of the crossing are those of the averages, or both pairs are of one period. -/
def CrossesAlike (emaFast emaSlow fast slow : ℤ) : Prop :=
  1 ≤ emaFast ∧ 1 ≤ emaSlow ∧ 1 ≤ fast ∧ 1 ≤ slow ∧
  (emaFast = fast ∧ emaSlow = slow ∨ emaFast = emaSlow ∧ fast = slow)

theorem isCrossing_iff {prev curr cross : ℚ} :
    IsCrossing prev curr cross ↔ cross = crossing prev curr := by
  rw [crossing]
  constructor
  · intro h
    split_ifs with hup hdown
    · exact h.up.mpr hup
    · exact h.down.mpr hdown
    · exact (h.values.resolve_left fun h' => hup (h.up.mp h')).resolve_left
        fun h' => hdown (h.down.mp h')
  · rintro rfl
    split_ifs with hup hdown
    · exact ⟨iff_of_true rfl hup, iff_of_false (by norm_num) fun h => h.2.not_gt hup.2, .inl rfl⟩
    · exact ⟨iff_of_false (by norm_num) hup, iff_of_true rfl hdown, .inr (.inl rfl)⟩
    · exact ⟨iff_of_false (by norm_num) hup, iff_of_false (by norm_num) hdown, .inr (.inr rfl)⟩

/-! ## Frames that stand still and then jump -/

/-- A frame at the price `c`, with these changes from it at its end. -/
def jumpBars (c : ℚ) (n : ℕ) (xs : List ℚ) : List Bar :=
  (0 :: (List.replicate n 0 ++ xs)).map fun d => stillBar (c + d)

theorem exists_price (xs : List ℚ) : ∃ c : ℚ, 0 < c ∧ ∀ d ∈ xs, 0 < c + d := by
  induction xs with
  | nil => exact ⟨1, one_pos, List.forall_mem_nil _⟩
  | cons d xs ih =>
    obtain ⟨c, hc, hxs⟩ := ih
    refine ⟨max c (1 - d), lt_max_of_lt_left hc, List.forall_mem_cons.mpr ⟨?_, fun d' hd' => ?_⟩⟩
    · linarith [le_max_right c (1 - d)]
    · linarith [le_max_left c (1 - d), hxs d' hd']

theorem closes_jumpBars (c : ℚ) (n : ℕ) (xs : List ℚ) : closes (jumpBars c n xs) =
    (c + 0) :: (List.replicate n 0 ++ xs).map (c + ·) := by
  rw [closes, jumpBars, List.map_map]
  rfl

/-- The frames are as long as wanted. -/
theorem exists_jumpBars (periods : List ℤ) (xs : List ℚ) :
    ∃ c n, PricesFor periods (jumpBars c n xs) := by
  obtain ⟨c, hc, hxs⟩ := exists_price xs
  obtain ⟨n, hn⟩ : ∃ n : ℕ, ∀ period ∈ periods, period ≤ n := by
    induction periods with
    | nil => exact ⟨0, List.forall_mem_nil _⟩
    | cons period periods ih =>
      obtain ⟨n, hn⟩ := ih
      refine ⟨max n period.toNat, List.forall_mem_cons.mpr ⟨?_, fun p hp => ?_⟩⟩
      · exact (Int.self_le_toNat period).trans (by exact_mod_cast le_max_right _ _)
      · exact (hn p hp).trans (by exact_mod_cast le_max_left _ _)
  have hlength : (jumpBars c (n + 1) xs).length = n + 2 + xs.length := by
    rw [jumpBars, List.length_map, List.length_cons, List.length_append, List.length_replicate]
    omega
  have hbars : ∀ bar ∈ jumpBars c (n + 1) xs, ∃ d, 0 < c + d ∧ bar = stillBar (c + d) := by
    intro bar hbar
    obtain ⟨d, hd, rfl⟩ := List.mem_map.mp hbar
    refine ⟨d, ?_, rfl⟩
    rcases List.mem_cons.mp hd with rfl | hd
    · rwa [add_zero]
    · rcases List.mem_append.mp hd with hd | hd
      · rw [List.eq_of_mem_replicate hd]
        rwa [add_zero]
      · exact hxs d hd
  refine ⟨c, n + 1, ?_⟩
  constructor
  · constructor
    · exact List.cons_ne_nil _ _
    · intro bar hbar
      obtain ⟨d, -, rfl⟩ := hbars bar hbar
      exact ⟨le_rfl, le_rfl, le_rfl, le_rfl⟩
    · intro bar hbar
      obtain ⟨d, -, rfl⟩ := hbars bar hbar
      exact zero_le_one
  · intro bar hbar
    obtain ⟨d, hd, rfl⟩ := hbars bar hbar
    exact hd
  · omega
  · intro period hperiod
    have := hn period hperiod
    omega

/-! ## The two writers -/

section Writers

variable {lib : IndicatorLibrary} {config : FeaturesConfig} {trial : TrialParams} {bars : List Bar}
  {fast slow : ℤ}

theorem computeIndicator_ema {d : IndicatorDef} (htype : d.type = "ema") :
    computeIndicator lib d bars = EmaIndicator.compute lib bars d.params := by
  rw [computeIndicator, htype]
  rfl

theorem computeIndicator_emaCross {d : IndicatorDef} (htype : d.type = "ema_cross")
    (hfast : lib.int d.params "fast" 12 = .ok fast)
    (hslow : lib.int d.params "slow" 26 = .ok slow) :
    computeIndicator lib d bars = emaCrossSignal bars fast slow := by
  rw [computeIndicator, htype]
  change EmaCrossIndicator.compute lib bars d.params = _
  rw [EmaCrossIndicator.compute, hfast]
  change (lib.int d.params "slow" 26 >>= _) = _
  rw [hslow]
  rfl

/-- Averages that are reported have periods of their own. -/
theorem period_of_compute {d : IndicatorDef} {period : ℤ} {v : ℚ} (htype : d.type = "ema")
    (hparams : lib.requiredInt d.params "period" = .ok period)
    (h : computeIndicator lib d bars = .ok v) : 1 ≤ period := by
  rw [computeIndicator_ema htype] at h
  obtain ⟨_, hperiod, h⟩ := Except.bind_eq_ok.mp h
  cases hparams.symm.trans hperiod
  obtain ⟨-, -, h⟩ := Except.bind_eq_ok.mp h
  obtain ⟨_, hseries, -⟩ := Except.bind_eq_ok.mp h
  exact period_of_emaSeries hseries

theorem periods_of_emaCrossSignal {v : ℚ} (h : emaCrossSignal bars fast slow = .ok v) :
    1 ≤ fast ∧ 1 ≤ slow := by
  obtain ⟨-, -, h⟩ := Except.bind_eq_ok.mp h
  obtain ⟨_, hfast, h⟩ := Except.bind_eq_ok.mp h
  obtain ⟨_, hslow, -⟩ := Except.bind_eq_ok.mp h
  exact ⟨period_of_emaSeries hfast, period_of_emaSeries hslow⟩

/-- The values of an average at the bar before and at the last one. -/
theorem averages_eq {d : IndicatorDef} {period : ℤ} {c x : ℚ} {rest : List ℚ}
    (htype : d.type = "ema") (hparams : lib.requiredInt d.params "period" = .ok period)
    (hperiod : 1 ≤ period) (hlength : period + 1 ≤ bars.length)
    (hcloses : closes bars = c :: (rest ++ [x])) :
    computeIndicator lib d bars.dropLast =
        .ok (Series.averageAfter (spanWeight period) c rest) ∧
      computeIndicator lib d bars =
        .ok (Series.averageAfter (spanWeight period) c (rest ++ [x])) ∧
      AtLast (emaSeries bars period)
        (Series.averageAfter (spanWeight period) c (rest ++ [x])) := by
  have hdrop : closes bars.dropLast = c :: rest := by
    rw [closes, List.map_dropLast, ← closes, hcloses, ← List.cons_append, List.dropLast_concat]
  have hshorter : bars.dropLast.length = bars.length - 1 := List.length_dropLast
  rw [computeIndicator_ema htype, computeIndicator_ema htype]
  refine ⟨EmaIndicator.compute_eq hparams hperiod (by omega) hdrop,
    EmaIndicator.compute_eq hparams hperiod (by omega) hcloses, _, emaSeries_ok hperiod, ?_⟩
  rw [Series.current_map_some, hcloses, Series.smooth_cons, List.getLast?_scanl]
  rfl

/-- On one frame, the crossing of the features and that of the averages. -/
theorem crossesAt_iff (hconfig : config.Averages lib trial.emaFast trial.emaSlow fast slow)
    (hbars : PricesFor [trial.emaFast, trial.emaSlow, slow] bars) {c x : ℚ} {rest : List ℚ}
    (hcloses : closes bars = c :: (rest ++ [x])) : config.CrossesAt lib trial bars ↔
      (1 ≤ trial.emaFast ∧ 1 ≤ trial.emaSlow ∧ 1 ≤ fast ∧ 1 ≤ slow) ∧
      crossing (spreadAt fast slow c rest) (spreadAt fast slow c (rest ++ [x])) =
        crossing (spreadAt trial.emaFast trial.emaSlow c rest)
          (spreadAt trial.emaFast trial.emaSlow c (rest ++ [x])) := by
  obtain ⟨ema12, h12, htype12, hparams12⟩ := hconfig.ema12
  obtain ⟨ema26, h26, htype26, hparams26⟩ := hconfig.ema26
  obtain ⟨emaCross, hcross, htype, hfast, hslow⟩ := hconfig.emaCross
  have hlong := hbars.long
  rw [List.forall_mem_cons, List.forall_mem_cons, List.forall_mem_singleton] at hlong
  obtain ⟨hlongFast, hlongSlow, hlongCross⟩ := hlong
  constructor
  · rintro ⟨d12, d26, dCross, h12', h26', hcross', hcrosses⟩
    cases h12.symm.trans h12'
    cases h26.symm.trans h26'
    cases hcross.symm.trans hcross'
    obtain ⟨_, _, _, _, cross, hprev12, hcurr12, -, hprev26, hcurr26, -, hvalue, his⟩ := hcrosses
    have hfastTrial := period_of_compute htype12 hparams12 hcurr12
    have hslowTrial := period_of_compute htype26 hparams26 hcurr26
    rw [computeIndicator_emaCross htype hfast hslow] at hvalue
    obtain ⟨hfastPos, hslowPos⟩ := periods_of_emaCrossSignal hvalue
    refine ⟨⟨hfastTrial, hslowTrial, hfastPos, hslowPos⟩, ?_⟩
    obtain ⟨hprev12', hcurr12', -⟩ := averages_eq htype12 hparams12 hfastTrial hlongFast hcloses
    obtain ⟨hprev26', hcurr26', -⟩ := averages_eq htype26 hparams26 hslowTrial hlongSlow hcloses
    cases hprev12.symm.trans hprev12'
    cases hcurr12.symm.trans hcurr12'
    cases hprev26.symm.trans hprev26'
    cases hcurr26.symm.trans hcurr26'
    cases hvalue.symm.trans (emaCrossSignal_eq hfastPos hslowPos hlongCross hcloses)
    exact isCrossing_iff.mp his
  · rintro ⟨⟨hfastTrial, hslowTrial, hfastPos, hslowPos⟩, heq⟩
    obtain ⟨hprev12, hcurr12, hlast12⟩ := averages_eq htype12 hparams12 hfastTrial hlongFast hcloses
    obtain ⟨hprev26, hcurr26, hlast26⟩ := averages_eq htype26 hparams26 hslowTrial hlongSlow hcloses
    refine ⟨ema12, ema26, emaCross, h12, h26, hcross, _, _, _, _, _, hprev12, hcurr12, hlast12,
      hprev26, hcurr26, hlast26, ?_, isCrossing_iff.mpr heq⟩
    rw [computeIndicator_emaCross htype hfast hslow]
    exact emaCrossSignal_eq hfastPos hslowPos hlongCross hcloses

/-- The changes at the end of a frame decide on the spread. -/
theorem spreadAt_jump (c : ℚ) (n : ℕ) (xs : List ℚ) :
    spreadAt fast slow (c + 0) ((List.replicate n 0 ++ xs).map (c + ·)) =
      spreadAfter (spanWeight fast) (spanWeight slow) xs := by
  rw [spreadAt, Series.averageAfter_add, Series.averageAfter_add, Series.averageAfter_replicate,
    Series.averageAfter_replicate, add_sub_add_left_eq_sub]
  rfl

/-- Where the crossing is that of the averages on every frame, the weights of both pairs cross alike
on every column. -/
theorem crossingAfter_of_crossesAt
    (hconfig : config.Averages lib trial.emaFast trial.emaSlow fast slow)
    (h : ∀ bars, PricesFor [trial.emaFast, trial.emaSlow, slow] bars →
      config.CrossesAt lib trial bars) (xs : List ℚ) (x : ℚ) :
    (1 ≤ trial.emaFast ∧ 1 ≤ trial.emaSlow ∧ 1 ≤ fast ∧ 1 ≤ slow) ∧
    crossingAfter (spanWeight fast) (spanWeight slow) xs x =
      crossingAfter (spanWeight trial.emaFast) (spanWeight trial.emaSlow) xs x := by
  obtain ⟨c, n, hbars⟩ := exists_jumpBars [trial.emaFast, trial.emaSlow, slow] (xs ++ [x])
  have hcloses : closes (jumpBars c n (xs ++ [x])) =
      (c + 0) :: ((List.replicate n 0 ++ xs).map (c + ·) ++ [c + x]) := by
    rw [closes_jumpBars, ← List.append_assoc, List.map_append]
    rfl
  obtain ⟨hperiods, heq⟩ := (crossesAt_iff hconfig hbars hcloses).mp (h _ hbars)
  have hend : (List.replicate n 0 ++ xs).map (c + ·) ++ [c + x] =
      (List.replicate n 0 ++ (xs ++ [x])).map (c + ·) := by
    simp
  rw [hend, spreadAt_jump, spreadAt_jump, spreadAt_jump, spreadAt_jump] at heq
  exact ⟨hperiods, heq⟩

theorem exists_closes (h : 2 ≤ bars.length) : ∃ c rest x, closes bars = c :: (rest ++ [x]) := by
  rw [← length_closes] at h
  obtain ⟨c, tail, hcons⟩ := List.exists_cons_of_length_pos (Nat.zero_lt_of_lt h)
  obtain heq | ⟨rest, x, htail⟩ := tail.eq_nil_or_concat'
  · rw [hcons, heq, List.length_singleton] at h
    omega
  · exact ⟨c, rest, x, by rw [hcons, htail]⟩

/-- The crossing is that of the averages on every frame that is long enough exactly when the
periods agree. -/
theorem forall_crossesAt_iff
    (hconfig : config.Averages lib trial.emaFast trial.emaSlow fast slow) :
    (∀ bars, PricesFor [trial.emaFast, trial.emaSlow, slow] bars →
      config.CrossesAt lib trial bars) ↔ CrossesAlike trial.emaFast trial.emaSlow fast slow := by
  constructor
  · intro h
    have hjump := crossingAfter_of_crossesAt hconfig h
    obtain ⟨hfastTrial, hslowTrial, hfast, hslow⟩ := (hjump [] 0).1
    refine ⟨hfastTrial, hslowTrial, hfast, hslow, ?_⟩
    have halike := (crossingAfter_iff (spanWeight_le hfast) (spanWeight_le hslow)
      (spanWeight_le hfastTrial) (spanWeight_le hslowTrial)).mp fun xs x => (hjump xs x).2
    rw [spanWeight_inj hfast hfastTrial, spanWeight_inj hslow hslowTrial,
      spanWeight_inj hfast hslow, spanWeight_inj hfastTrial hslowTrial] at halike
    exact halike.imp (fun h => ⟨h.1.symm, h.2.symm⟩) And.symm
  · rintro ⟨hfastTrial, hslowTrial, hfast, hslow, hperiods⟩ bars hbars
    obtain ⟨c, rest, x, hcloses⟩ := exists_closes hbars.two
    refine (crossesAt_iff hconfig hbars hcloses).mpr
      ⟨⟨hfastTrial, hslowTrial, hfast, hslow⟩, ?_⟩
    rcases hperiods with ⟨hf, hs⟩ | ⟨hf, hs⟩
    · rw [hf, hs]
    · simp only [spreadAt, hf, hs, sub_self]

theorem indicator?_map {f : IndicatorDef → IndicatorDef} (hf : ∀ d, (f d).name = d.name)
    (name : String) : ({ config with indicators := config.indicators.map f }).indicator? name =
      (config.indicator? name).map f := by
  rw [FeaturesConfig.indicator?, FeaturesConfig.indicator?, List.find?_map]
  congr 1
  refine congrArg (List.find? · config.indicators) (funext fun d => ?_)
  rw [Function.comp, hf]

theorem name_fromTrial (params : FeatureParams) (d : IndicatorDef) :
    (d.fromTrial params).name = d.name := by
  unfold IndicatorDef.fromTrial
  split_ifs with h₁ h₂ h₃
  · exact h₁.symm
  · exact h₂.symm
  · exact h₃.symm
  · split <;> rfl

theorem name_patched (params : FeatureParams) (d : IndicatorDef) :
    (d.patched params).name = d.name := by
  unfold IndicatorDef.patched
  split <;> rfl

theorem name_of_indicator? {name : String} {d : IndicatorDef}
    (h : config.indicator? name = some d) : d.name = name := by
  simpa using List.find?_some h

/-- A writer that keeps the names and the crossing, and puts periods into the averages. -/
theorem averages_map {f : IndicatorDef → IndicatorDef} {emaFast emaSlow : ℤ}
    (hf : ∀ d, (f d).name = d.name) (h : config.HasCrossing lib fast slow)
    (hema12 : ∀ d, d.name = "ema_12" → d.type = "ema" →
      (f d).type = "ema" ∧ lib.requiredInt (f d).params "period" = .ok emaFast)
    (hema26 : ∀ d, d.name = "ema_26" → d.type = "ema" →
      (f d).type = "ema" ∧ lib.requiredInt (f d).params "period" = .ok emaSlow)
    (hemaCross : ∀ d, d.name = "ema_cross" → f d = d) :
    ({ config with indicators := config.indicators.map f }).Averages lib emaFast emaSlow
      fast slow := by
  have hmap (name : String) := @indicator?_map config _ hf name
  obtain ⟨d12, h12, htype12⟩ := h.ema12
  obtain ⟨d26, h26, htype26⟩ := h.ema26
  obtain ⟨dCross, hcross, hkept⟩ := h.emaCross
  refine ⟨⟨_, (hmap _).trans (congrArg _ h12), hema12 d12 (name_of_indicator? h12) htype12⟩,
    ⟨_, (hmap _).trans (congrArg _ h26), hema26 d26 (name_of_indicator? h26) htype26⟩,
    ⟨_, (hmap _).trans (congrArg _ hcross), ?_⟩⟩
  rw [hemaCross dCross (name_of_indicator? hcross)]
  exact hkept

/-- The sweep computes the averages of the trial, and the crossing of the file. -/
theorem buildFeaturesConfigFromTrial_averages (h : config.HasCrossing lib fast slow)
    (trial : TrialParams) : (trial.buildFeaturesConfigFromTrial config).Averages lib trial.emaFast
      trial.emaSlow fast slow := by
  refine averages_map (name_fromTrial _) h (fun d hname _ => ?_) (fun d hname _ => ?_)
    fun d hname => ?_
  · rw [IndicatorDef.fromTrial, if_pos hname]
    exact ⟨rfl, rfl⟩
  · rw [IndicatorDef.fromTrial, hname]
    exact ⟨rfl, rfl⟩
  · rw [IndicatorDef.fromTrial, hname]
    rfl

theorem requiredInt_put (params : Yaml.Entries) (key : String) (n : ℤ) :
    lib.requiredInt (Yaml.put key (.int n) params) key = .ok n := by
  rw [IndicatorLibrary.requiredInt, Yaml.get?_put_self]
  rfl

/-- The file that is written has the averages of the trial, and its own crossing. -/
theorem patched_averages (h : config.HasCrossing lib fast slow) (trial : TrialParams) :
    ({ config with indicators :=
        config.indicators.map (IndicatorDef.patched trial.buildFeaturesWriteKwargs) }).Averages lib
      trial.emaFast trial.emaSlow fast slow := by
  refine averages_map (name_patched _) h (fun d hname htype => ?_) (fun d hname htype => ?_)
    fun d hname => ?_
  · rw [IndicatorDef.patched, hname]
    exact ⟨htype, requiredInt_put d.params "period" trial.emaFast⟩
  · rw [IndicatorDef.patched, hname]
    exact ⟨htype, requiredInt_put d.params "period" trial.emaSlow⟩
  · rw [IndicatorDef.patched, hname]
    rfl

end Writers

/-- In the features that a sweep builds and in those that are written and loaded, the crossing is
that of the averages exactly when the trial has the periods of the file's crossing. -/
theorem features_crossesAt_iff {Text : Type} (files : ConfigLibrary Text) (hfiles : files.Lawful)
    (dir : ConfigDir Text) (base : FeaturesConfig) (hload : files.loadFeaturesConfig dir = .ok base)
    (lib : IndicatorLibrary) (fast slow : ℤ) (hbase : base.HasCrossing lib fast slow)
    (trial : TrialParams) :
    ((∀ bars, PricesFor [trial.emaFast, trial.emaSlow, slow] bars →
        (trial.buildFeaturesConfigFromTrial base).CrossesAt lib trial bars) ↔
      CrossesAlike trial.emaFast trial.emaSlow fast slow) ∧
    ∃ dir' written, files.writeFeaturesConfig dir trial.buildFeaturesWriteKwargs = (dir', .ok ()) ∧
      files.loadFeaturesConfig dir' = .ok written ∧
      ((∀ bars, PricesFor [trial.emaFast, trial.emaSlow, slow] bars →
          written.CrossesAt lib trial bars) ↔
        CrossesAlike trial.emaFast trial.emaSlow fast slow) := by
  refine ⟨forall_crossesAt_iff (buildFeaturesConfigFromTrial_averages hbase trial), ?_⟩
  obtain ⟨text, hwrite, hwritten⟩ :=
    ConfigLibrary.writeFeaturesConfig_eq trial.buildFeaturesWriteKwargs hfiles hload
  exact ⟨_, _, hwrite, hwritten, forall_crossesAt_iff (patched_averages hbase trial)⟩

/-- The averages and the crossing of the features file. -/
def crossingFeatures : Yaml :=
  .map [("version", .str "v2"),
    ("indicators", .list [
      .map [("name", .str "ema_12"), ("type", .str "ema"), ("params", .map [("period", .int 12)])],
      .map [("name", .str "ema_26"), ("type", .str "ema"), ("params", .map [("period", .int 26)])],
      .map [("name", .str "ema_cross"), ("type", .str "ema_cross"),
        ("params", .map [("fast", .int 12), ("slow", .int 26)])]]),
    ("context", .map [
      ("trend", .map [("fast", .str "ema_12"), ("slow", .str "ema_26")]),
      ("volatility", .map [("atr", .str "atr_14"), ("low", .float 0), ("high", .float 1)])])]

def crossingBase : FeaturesConfig where
  version := "v2"
  indicators := [⟨"ema_12", "ema", [("period", .int 12)]⟩, ⟨"ema_26", "ema", [("period", .int 26)]⟩,
    ⟨"ema_cross", "ema_cross", [("fast", .int 12), ("slow", .int 26)]⟩]
  flags := []
  context := { fast := "ema_12", slow := "ema_26", atr := "atr_14", low := 0, high := 1 }

theorem crossingBase_hasCrossing : crossingBase.HasCrossing plainLibrary 12 26 :=
  ⟨⟨_, rfl, rfl⟩, ⟨_, rfl, rfl⟩, ⟨_, rfl, rfl, rfl, rfl⟩⟩

/-- A directory with that features file. -/
def crossingDir : ConfigDir Yaml := { sampleDir "ema" with features := some crossingFeatures }

theorem crossingDir_loads :
    treeLibrary.loadFeaturesConfig crossingDir = .ok crossingBase := rfl

theorem features_crossesAt_iff_sample :
    ((∀ bars, PricesFor [9, 21, 26] bars →
        (sampleTrial.buildFeaturesConfigFromTrial crossingBase).CrossesAt plainLibrary sampleTrial
          bars) ↔ CrossesAlike 9 21 12 26) ∧
    ∃ dir' written,
      treeLibrary.writeFeaturesConfig crossingDir sampleTrial.buildFeaturesWriteKwargs =
        (dir', .ok ()) ∧
      treeLibrary.loadFeaturesConfig dir' = .ok written ∧
      ((∀ bars, PricesFor [9, 21, 26] bars → written.CrossesAt plainLibrary sampleTrial bars) ↔
        CrossesAlike 9 21 12 26) :=
  features_crossesAt_iff treeLibrary treeLibrary_lawful crossingDir crossingBase crossingDir_loads
    plainLibrary 12 26 crossingBase_hasCrossing sampleTrial

/-- Twenty-six bars at 100, then 101 and 99.25: the averages over 9 and 21 bars cross down, and
those over 12 and 26 do not. -/
theorem not_features_crossesAt : ¬ ∀ (lib : IndicatorLibrary) (base : FeaturesConfig)
    (fast slow : ℤ) (trial : TrialParams), base.HasCrossing lib fast slow → ∀ bars,
      PricesFor [trial.emaFast, trial.emaSlow, slow] bars →
        (trial.buildFeaturesConfigFromTrial base).CrossesAt lib trial bars := by
  intro h
  have hbars : PricesFor [9, 21, 26] (jumpBars 100 25 [1, -3 / 4]) :=
    ⟨⟨by decide, by decide +kernel, by decide +kernel⟩, by decide +kernel, by decide, by decide⟩
  have hcloses : closes (jumpBars 100 25 [1, -3 / 4]) =
      100 :: (List.replicate 25 100 ++ [101] ++ [397 / 4]) := by decide +kernel
  have hconfig := buildFeaturesConfigFromTrial_averages crossingBase_hasCrossing sampleTrial
  have hcrosses := h plainLibrary crossingBase 12 26 sampleTrial crossingBase_hasCrossing _ hbars
  have hequal := ((crossesAt_iff hconfig hbars hcloses).mp hcrosses).2
  revert hequal
  decide +kernel

end TradingPlatform
