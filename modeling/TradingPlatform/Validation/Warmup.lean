import TradingPlatform.Features.Crossing
import TradingPlatform.Validation.Periods

/-!
# The warm-up of a run

A run skips the lookback of the features file, one bar more than the longest need of its indicators,
and decides from then on with at most two hundred bars. Each indicator has a check of its own, and a
job may run with other features than the file's, so an indicator can ask for more bars than the
first decisions have. The feature builder then leaves it out.
-/

namespace TradingPlatform

/-! ## The bars that an indicator asks for -/

/-- The number of bars that the checks of an indicator ask for. -/
def IndicatorDef.requiredBars (lib : IndicatorLibrary) (definition : IndicatorDef) :
    Computed ℤ := do
  let params := definition.params
  match definition.type with
  | "ema" => lib.requiredInt params "period"
  | "sma" => lib.requiredInt params "period"
  | "atr" => return (← lib.requiredInt params "period") + 1
  | "rsi" => return (← lib.requiredInt params "period") + 1
  | "ema_cross" =>
    let _ ← lib.int params "fast" 12
    return (← lib.int params "slow" 26) + 1
  | "macd" =>
    let fast ← lib.int params "fast" 12
    let slow ← lib.int params "slow" 26
    let signal ← lib.int params "signal" 9
    -- the slope is checked after the averages, which raise an error for a span below 1
    return slow + signal + if lib.str params "component" "line" = "histogram_slope" ∧
      1 ≤ fast ∧ 1 ≤ slow ∧ 1 ≤ signal then 1 else 0
  | "bollinger" =>
    let period ← lib.int params "period" 20
    let _ ← lib.float params "std" 2
    return period
  | "adx" => return 2 * (← lib.int params "period" 14)
  | "supertrend" =>
    let period ← lib.int params "period" 10
    let _ ← lib.float params "multiplier" 3
    return 2 * period
  | "volume_flow" =>
    let period ← lib.int params "period" 20
    return if lib.str params "component" "cmf" = "close_delta" then 2 else period
  | "market_structure" => return 4 * (← lib.int params "pivot_bars" 5) + 1
  | _ => return 0

/-- The bars are enough for every indicator: none is left out for asking for more. -/
def FeaturesConfig.Sufficient (config : FeaturesConfig) (lib : IndicatorLibrary)
    (bars : List Bar) : Prop :=
  ∀ (name : String) (n : ℤ),
    .error (.insufficientData name n) ∈ sharedIndicators lib bars config.indicators →
      n ≤ bars.length

/-! ## Errors that ask for bars -/

section Asks

variable {α β : Type} {lib : IndicatorLibrary} {params : Yaml.Entries} {bars : List Bar}
  {m n : ℤ} {name : String}

/-- The error does not ask for bars. -/
def Raises (x : Computed α) : Prop := ∀ name n, x ≠ .error (.insufficientData name n)

/-- An error that asks for bars asks for `m` at most. -/
def Asks (m : ℤ) (x : Computed α) : Prop :=
  ∀ name n, x = .error (.insufficientData name n) → n ≤ m

theorem raises_ok (a : α) : Raises (.ok a) := by
  intro name n h
  cases h

theorem raises_raised (e : PyError) : Raises (.error (.raised e) : Computed α) := by
  intro name n h
  cases h

theorem raises_mapError (x : Except PyError α) : Raises (x.mapError IndicatorError.raised) := by
  cases x with
  | error e => exact raises_raised e
  | ok a => exact raises_ok a

theorem Raises.asks {x : Computed α} (h : Raises x) : Asks m x :=
  fun name n hx => absurd hx (h name n)

theorem Asks.bind {x : Computed α} {f : α → Computed β} (hx : Asks m x)
    (hf : ∀ a, x = .ok a → Asks m (f a)) : Asks m (x >>= f) := by
  intro name n h
  cases hvalue : x with
  | error e =>
    rw [hvalue] at h
    cases h
    exact hx name n hvalue
  | ok a =>
    rw [hvalue] at h
    exact hf a hvalue name n h

theorem asks_throw {name : String} (h : n ≤ m) :
    Asks m (.error (.insufficientData name n) : Computed α) := by
  rintro _ _ ⟨⟩
  exact h

theorem asks_requireBars (h : n ≤ m) : Asks m (requireBars name n bars) := by
  unfold requireBars
  split_ifs
  · exact asks_throw h
  · exact (raises_ok ()).asks

theorem asks_lastValid {s : Series ℚ} (h : n ≤ m) : Asks m (lastValid s name n) := by
  unfold lastValid
  cases s.lastValid with
  | some v => exact (raises_ok v).asks
  | none => exact asks_throw h

theorem raises_ewmSpan {s : Series ℚ} : Raises (ewmSpan n s) := by
  unfold ewmSpan
  split_ifs
  · exact raises_raised _
  · exact raises_ok _

theorem raises_ewmAlpha {s : Series ℚ} : Raises (ewmAlpha n s) := by
  unfold ewmAlpha
  split_ifs
  · exact raises_raised _
  · exact raises_raised _
  · exact raises_ok _

theorem raises_rolling {f : List ℚ → Option ℚ} {xs : List ℚ} : Raises (rolling n f xs) := by
  unfold rolling
  split_ifs
  · exact raises_raised _
  · exact raises_ok _

/-- The parameters are read without asking for bars. -/
theorem raises_int {key : String} {default : ℤ} : Raises (lib.int params key default) :=
  raises_mapError _

theorem raises_requiredInt {key : String} : Raises (lib.requiredInt params key) := by
  unfold IndicatorLibrary.requiredInt
  split
  · exact raises_mapError _
  · exact raises_raised _

theorem raises_float {key : String} {default : ℚ} : Raises (lib.float params key default) := by
  unfold IndicatorLibrary.float IndicatorLibrary.toFloat
  split
  · exact raises_ok _
  · exact raises_ok _
  · exact raises_ok _
  · split
    · exact raises_ok _
    · exact raises_raised _
  · exact raises_raised _

/-- On these bars, `x` asks for `needed` at most, and for more bars than there are where `needed` is
more. Where `needed` cannot be read, `x` does not ask for bars. -/
structure Meets (bars : List Bar) (needed : Computed ℤ) (x : Computed α) : Prop where
  raises : ∀ e, needed = .error e → Raises x
  asks : ∀ m, needed = .ok m → Asks m x
  short : ∀ m, needed = .ok m → bars.length < m →
    ∃ name n, x = .error (.insufficientData name n) ∧ bars.length < n

/-- Both read a parameter first. -/
theorem Meets.read {p : Computed β} {needed : β → Computed ℤ} {x : β → Computed α} (hp : Raises p)
    (h : ∀ b, Meets bars (needed b) (x b)) : Meets bars (p >>= needed) (p >>= x) := by
  cases hvalue : p with
  | ok b => exact h b
  | error e =>
    rw [hvalue] at hp
    refine ⟨fun _ _ name n hx => ?_, fun m hm => ?_, fun m hm => ?_⟩
    · cases hx
      exact hp name n rfl
    · cases hm
    · cases hm

/-- The check comes first, and what follows asks for no more. -/
theorem meets_check {f : Unit → Computed α} (h : Asks m (f ())) :
    Meets bars (.ok m) (requireBars name m bars >>= f) := by
  refine ⟨fun e he => ?_, fun _ hm => ?_, fun _ hm hshort => ?_⟩
  · cases he
  · cases hm
    exact (asks_requireBars le_rfl).bind fun _ _ => h
  · cases hm
    rw [requireBars, if_pos hshort]
    exact ⟨name, m, rfl, hshort⟩

/-- Nothing asks for bars. -/
theorem meets_zero {x : Computed α} (h : Raises x) : Meets bars (.ok 0) x := by
  refine ⟨fun _ _ => h, fun _ _ => h.asks, fun _ hm hshort => ?_⟩
  cases hm
  omega

end Asks

/-! ## What each indicator asks for -/

section Indicators

variable {lib : IndicatorLibrary} {bars : List Bar} {params : Yaml.Entries}
  {fast slow signal period : ℤ}

theorem ema_meets :
    Meets bars (lib.requiredInt params "period") (EmaIndicator.compute lib bars params) := by
  rw [← bind_pure (lib.requiredInt params "period")]
  refine .read raises_requiredInt fun period => meets_check ?_
  exact raises_ewmSpan.asks.bind fun _ _ => asks_lastValid le_rfl

theorem sma_meets :
    Meets bars (lib.requiredInt params "period") (SmaIndicator.compute lib bars params) := by
  rw [← bind_pure (lib.requiredInt params "period")]
  refine .read raises_requiredInt fun period => meets_check ?_
  exact raises_rolling.asks.bind fun _ _ => asks_lastValid le_rfl

theorem atr_meets : Meets bars (do return (← lib.requiredInt params "period") + 1)
    (AtrIndicator.compute lib bars params) := by
  refine .read raises_requiredInt fun period => meets_check ?_
  exact raises_ewmAlpha.asks.bind fun _ _ => asks_lastValid (by omega)

theorem asks_rsiSeries {m : ℤ} : Asks m (rsiSeries bars period) :=
  raises_ewmAlpha.asks.bind fun _ _ => raises_ewmAlpha.asks.bind fun _ _ => (raises_ok _).asks

theorem rsi_meets : Meets bars (do return (← lib.requiredInt params "period") + 1)
    (RsiIndicator.compute lib bars params) := by
  refine .read raises_requiredInt fun period => meets_check ?_
  exact asks_rsiSeries.bind fun _ _ => asks_lastValid (by omega)

theorem emaCross_meets : Meets bars (.ok (slow + 1)) (emaCrossSignal bars fast slow) := by
  refine meets_check (raises_ewmSpan.asks.bind fun _ _ => raises_ewmSpan.asks.bind fun _ _ => ?_)
  dsimp only
  split
  · split_ifs <;> exact (raises_ok _).asks
  · exact asks_throw le_rfl

/-- The averages of a MACD have spans of at least 1. -/
theorem spans_of_macdComponents {macd : Macd}
    (h : macdComponents bars fast slow signal = .ok macd) : 1 ≤ fast ∧ 1 ≤ slow ∧ 1 ≤ signal := by
  obtain ⟨_, -, h⟩ := Except.bind_eq_ok.mp h
  obtain ⟨_, hfast, h⟩ := Except.bind_eq_ok.mp h
  obtain ⟨_, hslow, h⟩ := Except.bind_eq_ok.mp h
  obtain ⟨_, hsignal, -⟩ := Except.bind_eq_ok.mp h
  refine ⟨period_of_emaSeries hfast, period_of_emaSeries hslow, ?_⟩
  unfold ewmSpan at hsignal
  split_ifs at hsignal
  omega

theorem asks_macdComponents {m : ℤ} (h : slow + signal ≤ m) :
    Asks m (macdComponents bars fast slow signal) :=
  (asks_requireBars h).bind fun _ _ => raises_ewmSpan.asks.bind fun _ _ =>
    raises_ewmSpan.asks.bind fun _ _ => raises_ewmSpan.asks.bind fun _ _ => (raises_ok _).asks

theorem macdComponents_of_short (h : bars.length < slow + signal) :
    macdComponents bars fast slow signal = .error (.insufficientData "macd" (slow + signal)) := by
  rw [macdComponents, requireBars, if_pos h]
  rfl

theorem macdComponents_of_long (hfast : 1 ≤ fast) (hslow : 1 ≤ slow) (hsignal : 1 ≤ signal)
    (h : slow + signal ≤ bars.length) :
    ∃ macd, macdComponents bars fast slow signal = .ok macd := by
  rw [macdComponents, requireBars, if_neg (not_lt.mpr h), emaSeries_ok hfast, emaSeries_ok hslow]
  dsimp only [bind, Except.bind]
  rw [ewmSpan, if_neg (by omega)]
  exact ⟨_, rfl⟩

theorem slope_meets (macd : Macd) : Meets bars (.ok (slow + signal + 1))
    (macd.component bars slow signal "histogram_slope") := by
  refine meets_check ?_
  split
  · exact (raises_ok _).asks
  · exact asks_throw le_rfl

/-- The slope asks for a bar more than the averages, once these are there. -/
theorem macd_meets (component : String) :
    Meets bars (.ok (slow + signal + if component = "histogram_slope" ∧
        1 ≤ fast ∧ 1 ≤ slow ∧ 1 ≤ signal then 1 else 0))
      (macdComponents bars fast slow signal >>= fun macd =>
        macd.component bars slow signal component) := by
  by_cases hslope : component = "histogram_slope" ∧ 1 ≤ fast ∧ 1 ≤ slow ∧ 1 ≤ signal
  · rw [if_pos hslope]
    obtain ⟨rfl, hfast, hslow, hsignal⟩ := hslope
    refine ⟨fun e he => (by cases he), fun m hm => ?_, fun m hm hshort => ?_⟩
    · cases hm
      exact (asks_macdComponents (by omega)).bind fun macd _ => (slope_meets macd).asks _ rfl
    · cases hm
      rcases lt_or_ge (bars.length : ℤ) (slow + signal) with hlt | hge
      · rw [macdComponents_of_short hlt]
        exact ⟨_, _, rfl, hlt⟩
      · obtain ⟨macd, hmacd⟩ := macdComponents_of_long hfast hslow hsignal hge
        rw [hmacd]
        exact (slope_meets macd).short _ rfl hshort
  · rw [if_neg hslope, add_zero]
    refine ⟨fun e he => (by cases he), fun m hm => ?_, fun m hm hshort => ?_⟩
    · cases hm
      refine (asks_macdComponents le_rfl).bind fun macd hmacd => ?_
      obtain ⟨hfast, hslow, hsignal⟩ := spans_of_macdComponents hmacd
      unfold Macd.component
      split
      · exact asks_lastValid (by omega)
      · exact asks_lastValid le_rfl
      · exact asks_lastValid le_rfl
      · exact absurd ⟨rfl, hfast, hslow, hsignal⟩ hslope
      · exact (raises_raised _).asks
    · cases hm
      rw [macdComponents_of_short hshort]
      exact ⟨_, _, rfl, hshort⟩

theorem bollinger_meets {stdMult : ℚ} (band : String) :
    Meets bars (.ok period) (bollingerComponents lib bars period stdMult >>= fun bands =>
      bands.band period band) := by
  rw [bollingerComponents, bind_assoc]
  refine meets_check (.bind ?_ fun _ _ => asks_lastValid le_rfl)
  exact raises_rolling.asks.bind fun _ _ => raises_rolling.asks.bind fun _ _ => (raises_ok _).asks

theorem adx_meets (component : String) :
    Meets bars (.ok (2 * period)) (adxComponents bars period >>= fun adx =>
      adx.component period component) := by
  rw [adxComponents, bind_assoc]
  refine meets_check (.bind ?_ fun adx hadx => ?_)
  · exact raises_ewmAlpha.asks.bind fun _ _ => raises_ewmAlpha.asks.bind fun _ _ =>
      raises_ewmAlpha.asks.bind fun _ _ => raises_ewmAlpha.asks.bind fun _ _ => (raises_ok _).asks
  · obtain ⟨_, hatr, -⟩ := Except.bind_eq_ok.mp hadx
    have hperiod := period_of_ewmAlpha hatr
    unfold Adx.component
    split
    · exact asks_lastValid le_rfl
    · exact asks_lastValid (by omega)
    · exact asks_lastValid (by omega)
    · exact (raises_raised _).asks

theorem supertrend_meets {multiplier : ℚ} (component : String) :
    Meets bars (.ok (2 * period)) (supertrendComponents bars period multiplier >>= fun st =>
      st.component period component) := by
  rw [supertrendComponents, bind_assoc]
  refine meets_check (.bind ?_ fun st _ => ?_)
  · exact raises_ewmAlpha.asks.bind fun _ _ => (raises_ok _).asks
  · unfold SuperTrend.component
    split
    · exact asks_lastValid le_rfl
    · exact asks_lastValid le_rfl
    · exact (raises_raised _).asks

theorem closeDelta_meets : Meets bars (.ok 2) (closeDelta bars) := by
  refine meets_check ?_
  split
  · exact (raises_ok _).asks
  · exact asks_throw le_rfl

theorem volumeFlow_meets {component : String} (h : component ≠ "close_delta") :
    Meets bars (.ok period) (volumeFlowComponents bars period >>= fun flow =>
      flow.component bars period component) := by
  rw [volumeFlowComponents, bind_assoc]
  refine meets_check (.bind ?_ fun flow _ => ?_)
  · exact raises_rolling.asks.bind fun _ _ => raises_rolling.asks.bind fun _ _ =>
      raises_rolling.asks.bind fun _ _ => (raises_ok _).asks
  · unfold VolumeFlow.component
    split
    · exact asks_lastValid le_rfl
    · exact asks_lastValid le_rfl
    · exact absurd rfl h
    · exact (raises_raised _).asks

theorem raises_slidingWindows {xs : List ℚ} {window : ℤ} : Raises (slidingWindows xs window) := by
  unfold slidingWindows
  split_ifs
  · exact raises_raised _
  · exact raises_raised _
  · exact raises_ok _

theorem asks_findConfirmedPivots {m upTo : ℤ} :
    Asks m (findConfirmedPivots bars period upTo) := by
  unfold findConfirmedPivots
  dsimp only
  split_ifs
  · exact (raises_ok _).asks
  · exact (raises_slidingWindows.asks.bind fun _ _ => (raises_ok _).asks).bind fun _ _ =>
      (raises_slidingWindows.asks.bind fun _ _ => (raises_ok _).asks).bind fun _ _ =>
        (raises_ok _).asks

theorem marketStructure_meets (component : String) :
    Meets bars (.ok (4 * period + 1)) (marketStructureLatest bars period >>= fun latest =>
      structureComponent latest component) := by
  rw [marketStructureLatest, bind_assoc]
  refine meets_check (.bind ?_ fun latest _ => ?_)
  · refine asks_findConfirmedPivots.bind fun _ _ => ?_
    split
    · exact (raises_ok _).asks
    · exact (raises_raised _).asks
  · unfold structureComponent
    split
    · exact (raises_ok _).asks
    · exact (raises_ok _).asks
    · exact (raises_raised _).asks

end Indicators

section Sufficient

variable {lib : IndicatorLibrary} {bars : List Bar} {config : FeaturesConfig} {d : IndicatorDef}

/-- Where its components are shared, an indicator asks for its bars. -/
theorem requiredBars_meets : Meets bars (d.requiredBars lib) (sharedAnswer lib bars d) := by
  by_cases hdelta : d.IsCloseDelta lib
  · rw [sharedAnswer, if_pos hdelta, IndicatorDef.requiredBars]
    simp only [hdelta.1]
    refine .read raises_int fun period => ?_
    rw [if_pos hdelta.2]
    exact closeDelta_meets
  rw [sharedAnswer, if_neg hdelta]
  unfold IndicatorDef.requiredBars
  dsimp only
  split <;> (rename_i htype; rw [computeIndicator]; try simp only [htype])
  · exact ema_meets
  · exact sma_meets
  · exact atr_meets
  · exact rsi_meets
  · exact .read raises_int fun fast => .read raises_int fun slow => emaCross_meets
  · exact .read raises_int fun fast => .read raises_int fun slow => .read raises_int fun signal =>
      macd_meets _
  · exact .read raises_int fun period => .read raises_float fun stdMult => bollinger_meets _
  · exact .read raises_int fun period => adx_meets _
  · exact .read raises_int fun period => .read raises_float fun multiplier => supertrend_meets _
  · refine .read raises_int fun period => ?_
    have hcomponent : lib.str d.params "component" "cmf" ≠ "close_delta" := fun h =>
      hdelta ⟨htype, h⟩
    rw [if_neg hcomponent]
    exact volumeFlow_meets hcomponent
  · exact .read raises_int fun pivotBars => marketStructure_meets _
  · -- a constant, or an unknown type
    refine meets_zero ?_
    split
    case h_12 => exact raises_float
    case h_13 => exact raises_raised _
    all_goals contradiction

theorem sufficient_iff : config.Sufficient lib bars ↔
    ∀ d ∈ config.indicators, ∀ n, d.requiredBars lib = .ok n → n ≤ bars.length := by
  have houtcomes : sharedIndicators lib bars config.indicators =
      config.indicators.map (sharedAnswer lib bars) :=
    MemoM.outcomes_eq (fun _ _ => computeIndicatorShared_answers) MemoM.sound_empty
  rw [FeaturesConfig.Sufficient, houtcomes]
  constructor
  · intro h d hd n hn
    by_contra hshort
    obtain ⟨name, asked, hasked, hlt⟩ := requiredBars_meets.short n hn (not_le.mp hshort)
    exact not_lt.mpr (h name asked (List.mem_map.mpr ⟨d, hd, hasked⟩)) hlt
  · intro h name n hn
    obtain ⟨d, hd, hasked⟩ := List.mem_map.mp hn
    cases hrequired : d.requiredBars lib with
    | error e => exact absurd hasked (requiredBars_meets.raises e hrequired name n)
    | ok m => exact (requiredBars_meets.asks m hrequired name n hasked).trans (h d hd m hrequired)

end Sufficient

/-! ## The bars of a cycle -/

/-- The longest need is one of the needs, or the one that the loop starts from. -/
theorem le_maxPeriod_iff {parseInt : String → Option ℤ} {indicators : List IndicatorDef}
    {period longest n : ℤ} (h : maxPeriod parseInt indicators period = .ok longest) :
    n ≤ longest ↔
      n ≤ period ∨ ∃ d ∈ indicators, ∃ needed, d.needed parseInt = .ok needed ∧ n ≤ needed := by
  induction indicators generalizing period with
  | nil =>
    cases h
    simp
  | cons d rest ih =>
    obtain ⟨needed, hneeded, hrest⟩ := Except.bind_eq_ok.mp h
    rw [ih hrest, le_max_iff, List.exists_mem_cons_iff, or_assoc]
    simp [hneeded]

namespace CsvDataProvider

variable {p : CsvDataProvider} {symbol timeframe : String} {limit : ℕ} {t : ℤ} {frame : Frame}

theorem length_getLatest (h : p.getLatest symbol timeframe limit (some t) = .ok frame) :
    frame.length = min (searchsortedRight p.df t) limit := by
  obtain ⟨_, -, h⟩ := Except.bind_eq_ok.mp h
  have hle : searchsortedRight p.df t ≤ p.df.length := (List.takeWhile_prefix _).length_le
  by_cases hdf : p.df = []
  · simp only [hdf, if_true] at h
    cases h
  by_cases hidx : searchsortedRight p.df t = 0
  · simp only [hdf, hidx, if_true, if_false] at h
    cases h
  simp only [hdf, hidx, if_false] at h
  cases h
  rw [List.length_drop, List.length_take]
  omega

theorem getLatest_of_pos (hvalid : p.validateSymbolTimeframe symbol timeframe = .ok ())
    (hidx : 0 < searchsortedRight p.df t) :
    ∃ frame, p.getLatest symbol timeframe limit (some t) = .ok frame := by
  have hdf : p.df ≠ [] := by
    rintro hnil
    rw [searchsortedRight, hnil] at hidx
    exact lt_irrefl 0 hidx
  unfold getLatest
  simp only [hvalid, hdf, hidx.ne', if_false]
  exact ⟨_, rfl⟩

end CsvDataProvider

theorem PlatformRuntime.prepareBar_of_latest {rt : PlatformRuntime} {call : CycleCall} {df : Frame}
    (hlatest : call.collaborators.getLatest call.symbol call.timeframe
      (some (rt.clock.nowEventTime call.collaborators.now)) = .ok df) (hne : df ≠ []) :
    ∃ ctx rt', rt.prepareBar call = .ok (ctx, rt') ∧ ctx.df = df := by
  have hquiet : Quiet rt (rt.cycleId call).2 := quiet_cycleId rt call
  rw [← hquiet.clock] at hlatest
  unfold prepareBar
  dsimp only
  rw [hlatest]
  dsimp only [bind, Except.bind]
  rw [List.getLast?_eq_some_getLast hne]
  exact ⟨_, _, rfl, rfl⟩

namespace ValidationHarness

variable {h : ValidationHarness} {times : List ℤ} {t : ℤ}

/-- The file has all bars that a run skips, up to a bar that it decides on. -/
theorem lookback_lt_searchsortedRight (hbars : h.barTimes = .ok times) (ht : t ∈ times) :
    h.minLookbackBars < CsvDataProvider.searchsortedRight h.dataProvider.df t := by
  obtain ⟨all, hall, hlong, rfl⟩ := barTimes_eq_ok.mp hbars
  obtain ⟨_, -, hall⟩ := Except.bind_eq_ok.mp hall
  cases hall
  generalize hrows : h.dataProvider.rangeSlice h.config.start h.config.endTime = rows at ht hlong
  have hsub : rows.Sublist h.dataProvider.df := hrows ▸ h.dataProvider.rangeSlice_sublist _ _
  rw [← List.map_drop] at ht
  obtain ⟨row, hrow, rfl⟩ := List.mem_map.mp ht
  have hsorted := h.dataProvider.sorted.sublist hsub
  rw [← List.take_append_drop h.minLookbackBars rows, List.pairwise_append] at hsorted
  have hearly : ∀ c ∈ rows.take h.minLookbackBars ++ [row], c.timestamp ≤ row.timestamp := by
    intro c hc
    rcases List.mem_append.mp hc with hskipped | hown
    · exact hsorted.2.2 c hskipped row hrow
    · rw [List.mem_singleton.mp hown]
  have hall : (rows.take h.minLookbackBars ++ [row]).Sublist h.dataProvider.df := by
    have hparts := (List.Sublist.refl (rows.take h.minLookbackBars)).append
      (List.singleton_sublist.mpr hrow)
    rw [List.take_append_drop] at hparts
    exact hparts.trans hsub
  have hle := (hall.filter (·.timestamp ≤ row.timestamp)).length_le
  rw [List.filter_eq_self.mpr fun c hc => decide_eq_true (hearly c hc), List.length_append,
    List.length_take, List.length_singleton, 
    ← CsvDataProvider.takeWhile_of_sorted h.dataProvider.sorted] at hle
  rw [List.length_map] at hlong
  unfold CsvDataProvider.searchsortedRight
  omega

/-- The first row of the file is at the start of the run. -/
def StartsAtFirst (h : ValidationHarness) : Prop :=
  h.dataProvider.df.head?.map (·.timestamp) = some h.config.start

/-- A run from `rt` comes to a cycle with this context. -/
def Evaluates (h : ValidationHarness) (rt : PlatformRuntime) (ctx : CycleCtx) : Prop :=
  ∃ times i t cycles rt₁ rt₂, h.barTimes = .ok times ∧ times[i]? = some t ∧
    h.runBars (times.zipIdx.take i) { rt with published := [] } = .ok (cycles, rt₁) ∧
    (setClock t rt₁).prepareBar (h.cycleCall i t) = .ok (ctx, rt₂)

/-- The context of a cycle has the bars before its own that are skipped, but for more than two
hundred. -/
theorem Evaluates.length_df {rt : PlatformRuntime} {ctx : CycleCtx} (heval : h.Evaluates rt ctx) :
    min (h.minLookbackBars + 1) 200 ≤ ctx.df.length := by
  obtain ⟨times, i, t, _, _, _, hbars, ht, -, hprepare⟩ := heval
  have hlatest := (PlatformRuntime.prepareBar_ok hprepare).latest
  rw [nowEventTime_setClock] at hlatest
  have hlt := lookback_lt_searchsortedRight hbars (List.mem_of_getElem? ht)
  have hlength := CsvDataProvider.length_getLatest hlatest
  omega

/-- The time after `k` hours. -/
def hours (k : ℤ) : ℤ := seconds (3600 * k)

/-- Flat bars an hour apart, one more than are skipped. -/
def flatRows (lookback : ℕ) : Frame :=
  (List.range (lookback + 1)).map fun (k : ℕ) => .flat (hours k) 100

theorem mem_flatRows {lookback : ℕ} {c : Candle} (hc : c ∈ flatRows lookback) :
    0 ≤ c.timestamp ∧ c.timestamp ≤ hours lookback := by
  obtain ⟨k, hk, rfl⟩ := List.mem_map.mp hc
  have hle : k ≤ lookback := Nat.lt_succ_iff.mp (List.mem_range.mp hk)
  simp only [Candle.flat, hours, seconds]
  omega

theorem flatRows_sorted (lookback : ℕ) :
    (flatRows lookback).Pairwise fun a b => a.timestamp ≤ b.timestamp := by
  refine List.pairwise_map.mpr (List.pairwise_lt_range.imp fun {a b} hlt => ?_)
  simp only [Candle.flat, hours, seconds]
  omega

/-- A run that decides on the last of these bars only. -/
def short (lookback : ℕ) : ValidationHarness where
  dataProvider := {
    symbol := "BTC/USDT"
    timeframe := "1h"
    df := flatRows lookback
    sorted := flatRows_sorted lookback }
  config := { symbol := "BTC/USDT", timeframe := "1h", start := 0, endTime := hours lookback }
  minLookbackBars := lookback
  isoformat _ := ""
  collaborators _ := .serving (.flat (hours lookback) 100) .buy

theorem short_startsAtFirst (lookback : ℕ) : (short lookback).StartsAtFirst := by
  change ((List.range (lookback + 1)).map _).head?.map _ = _
  rw [List.range_succ_eq_map]
  rfl

theorem barTimes_short (lookback : ℕ) : (short lookback).barTimes = .ok [hours lookback] := by
  have hrange : (short lookback).dataProvider.rangeSlice 0 (hours lookback) =
      flatRows lookback := by
    rw [CsvDataProvider.rangeSlice_eq_filter]
    change List.filter _ (List.filter _ (flatRows lookback)) = _
    rw [List.filter_eq_self.mpr fun c hc => decide_eq_true (mem_flatRows hc).1,
      List.filter_eq_self.mpr fun c hc => decide_eq_true (mem_flatRows hc).2]
  refine barTimes_eq_ok.mpr ⟨(flatRows lookback).map (·.timestamp), ?_, ?_, ?_⟩
  · change Except.ok (((short lookback).dataProvider.rangeSlice 0 (hours lookback)).map _) = _
    rw [hrange]
  · change lookback < _
    rw [List.length_map, flatRows, List.length_map, List.length_range]
    exact Nat.lt_succ_self lookback
  · change _ = List.drop lookback _
    rw [flatRows, List.map_map, List.range_succ, List.map_append, List.drop_left' (by simp)]
    rfl

theorem searchsortedRight_flatRows (lookback : ℕ) :
    CsvDataProvider.searchsortedRight (flatRows lookback) (hours lookback) = lookback + 1 := by
  rw [CsvDataProvider.searchsortedRight, List.takeWhile_eq_self_iff.mpr fun c hc =>
    decide_eq_true (mem_flatRows hc).2, flatRows, List.length_map, List.length_range]

/-- The context of its cycle has all bars of the file, but for more than two hundred. -/
theorem exists_evaluates (lookback : ℕ) (rt : PlatformRuntime) :
    ∃ ctx, (short lookback).Evaluates rt ctx ∧ ctx.df.length = min (lookback + 1) 200 := by
  have hidx := searchsortedRight_flatRows lookback
  have hvalid : (short lookback).dataProvider.validateSymbolTimeframe "BTC/USDT" "1h" =
      .ok () := rfl
  obtain ⟨frame, hframe⟩ : ∃ frame, (short lookback).dataProvider.getLatest "BTC/USDT" "1h" 200
      (some (hours lookback)) = .ok frame :=
    CsvDataProvider.getLatest_of_pos hvalid (hidx ▸ Nat.succ_pos lookback)
  have hlength := CsvDataProvider.length_getLatest hframe
  change frame.length = min (CsvDataProvider.searchsortedRight (flatRows lookback) _) 200 at hlength
  rw [hidx] at hlength
  have hne : frame ≠ [] := by
    rintro rfl
    rw [List.length_nil] at hlength
    omega
  obtain ⟨ctx, rt₂, hprepare, hdf⟩ : ∃ ctx rt₂,
      (setClock (hours lookback) { rt with published := [] }).prepareBar
        ((short lookback).cycleCall 0 (hours lookback)) = .ok (ctx, rt₂) ∧ ctx.df = frame :=
    PlatformRuntime.prepareBar_of_latest (by rw [nowEventTime_setClock]; exact hframe) hne
  exact ⟨ctx, ⟨_, 0, hours lookback, [], _, rt₂, barTimes_short lookback, rfl, rfl, hprepare⟩,
    hdf ▸ hlength⟩

end ValidationHarness

/-! ## The need of a job -/

/-- The default configuration has an indicator whose need is at most two bars below `n`, or the
least lookback is enough. -/
def CoveredBy (lib : IndicatorLibrary) (default : FeaturesConfig) (n : ℤ) : Prop :=
  n ≤ 3 ∨ ∃ d ∈ default.indicators, ∃ needed, d.needed lib.parseInt = .ok needed ∧ n ≤ needed + 2

theorem covered_iff {lib : IndicatorLibrary} {default : FeaturesConfig} {lookback : ℕ} {n : ℤ}
    (h : computeMinLookbackBars lib.parseInt default = .ok lookback) :
    n ≤ lookback + 1 ↔ CoveredBy lib default n := by
  obtain ⟨longest, hlongest, hbars⟩ := Except.bind_eq_ok.mp h
  cases hbars
  have hpos := le_maxPeriod hlongest
  have hcovers : n - 2 ≤ longest ↔ CoveredBy lib default n := by
    rw [le_maxPeriod_iff hlongest]
    simp only [sub_le_iff_le_add]
    rfl
  rw [← hcovers, Int.toNat_of_nonneg (by omega)]
  omega

/-- The cycles of all runs that skip the lookback of the default configuration have the bars that
the indicators of a job ask for if and only if each asks for two hundred at most, and for at most
two more than an indicator of the default configuration needs. -/
theorem evaluates_sufficient_iff (lib : IndicatorLibrary) (default config : FeaturesConfig)
    (lookback : ℕ) (hlookback : computeMinLookbackBars lib.parseInt default = .ok lookback) :
    (∀ h : ValidationHarness, h.minLookbackBars = lookback → h.StartsAtFirst →
      ∀ rt ctx, h.Evaluates rt ctx → config.Sufficient lib (ctx.df.map (·.bar))) ↔
      ∀ d ∈ config.indicators, ∀ n, d.requiredBars lib = .ok n →
        n ≤ 200 ∧ CoveredBy lib default n := by
  constructor
  · intro h d hd n hn
    obtain ⟨ctx, heval, hlength⟩ := ValidationHarness.exists_evaluates lookback
      ValidationHarness.risingSetup.start
    have hsufficient := h (.short lookback) rfl
      (ValidationHarness.short_startsAtFirst lookback) _ ctx heval
    have hle := sufficient_iff.mp hsufficient d hd n hn
    rw [List.length_map, hlength] at hle
    exact ⟨by omega, (covered_iff hlookback).mp (by omega)⟩
  · intro h harness hskip _ rt ctx heval
    refine sufficient_iff.mpr fun d hd n hn => ?_
    obtain ⟨hlimit, hcovered⟩ := h d hd n hn
    have hneed := (covered_iff hlookback).mpr hcovered
    have hlength := heval.length_df
    rw [List.length_map]
    omega

/-- The indicator of the default features with the longest need. -/
def slopeFeatures : FeaturesConfig := { crossingBase with
  indicators := [⟨"macd_histogram_slope", "macd", [("fast", .int 12), ("slow", .int 26),
    ("signal", .int 9), ("component", .str "histogram_slope")]⟩] }

/-- A trial with longer averages. -/
def slowMacd : TrialParams := { sampleTrial with macdSlow := 30, macdSignalPeriod := 11 }

theorem lookback_slopeFeatures :
    computeMinLookbackBars plainLibrary.parseInt slopeFeatures = .ok 37 := rfl

theorem evaluates_sufficient_iff_slope :
    (∀ h : ValidationHarness, h.minLookbackBars = 37 → h.StartsAtFirst → ∀ rt ctx,
      h.Evaluates rt ctx → (slowMacd.buildFeaturesConfigFromTrial slopeFeatures).Sufficient
        plainLibrary (ctx.df.map (·.bar))) ↔
      ∀ d ∈ (slowMacd.buildFeaturesConfigFromTrial slopeFeatures).indicators, ∀ n,
        d.requiredBars plainLibrary = .ok n → n ≤ 200 ∧ CoveredBy plainLibrary slopeFeatures n :=
  evaluates_sufficient_iff plainLibrary slopeFeatures
    (slowMacd.buildFeaturesConfigFromTrial slopeFeatures) 37 lookback_slopeFeatures

/-- The slope of the trial asks for 42 bars, and the first cycle has 38. -/
theorem not_evaluates_sufficient : ¬ ∀ (lib : IndicatorLibrary) (base : FeaturesConfig)
    (trial : TrialParams) (h : ValidationHarness),
    computeMinLookbackBars lib.parseInt base = .ok h.minLookbackBars → h.StartsAtFirst →
      ∀ rt ctx, h.Evaluates rt ctx →
        (trial.buildFeaturesConfigFromTrial base).Sufficient lib (ctx.df.map (·.bar)) := by
  intro h
  obtain ⟨ctx, heval, hlength⟩ := ValidationHarness.exists_evaluates 37
    ValidationHarness.risingSetup.start
  have hsufficient := h plainLibrary slopeFeatures slowMacd (.short 37) lookback_slopeFeatures
    (ValidationHarness.short_startsAtFirst 37) _ ctx heval
  have hasked : ∃ d ∈ (slowMacd.buildFeaturesConfigFromTrial slopeFeatures).indicators,
      d.requiredBars plainLibrary = .ok 42 := ⟨_, List.mem_cons_self, rfl⟩
  obtain ⟨d, hd, hrequired⟩ := hasked
  have hle := sufficient_iff.mp hsufficient d hd 42 hrequired
  rw [List.length_map, hlength] at hle
  omega

end TradingPlatform
