import TradingPlatform.Config.Files
import TradingPlatform.Validation.Ledgers
import TradingPlatform.Validation.Optimization

/-!
# The periods of an optimization run

Neighbouring periods share a boundary, which the job of a trial cuts to midnight and reads its bars
up to and including. A bar of that very time is therefore in both ranges. The harness of the later
period skips it: it never decides on the first bars of its range, of which the lookback has at least
two.
-/

namespace TradingPlatform

open CsvDataProvider

/-! ## The lookback -/

section Lookback

/-- `int` of a value, given `int` of a text. -/
def toInt (parseInt : String → Option ℤ) : Yaml → Except PyError ℤ
  | .bool b => .ok (if b then 1 else 0)
  | .int n => .ok n
  | .float q => .ok (if 0 ≤ q then ⌊q⌋ else ⌈q⌉)
  | .str s =>
    match parseInt s with
    | some n => .ok n
    | none => .error (.valueError ("invalid literal for int() with base 10: " ++ s))
  | _ => .error (.raised "TypeError")

/-- `int(params.get(key, default))` -/
def intParam (parseInt : String → Option ℤ) (params : Yaml.Entries) (key : String) (default : ℤ) :
    Except PyError ℤ :=
  toInt parseInt ((Yaml.get? params key).getD (.int default))

/-- `str(params.get("component", default)) == component` -/
def hasComponent (params : Yaml.Entries) (default component : String) : Bool :=
  match (Yaml.get? params "component").getD (.str default) with
  | .str s => s == component
  | _ => false

/-- The prior bars that an indicator needs. -/
def IndicatorDef.needed (parseInt : String → Option ℤ) (indicator : IndicatorDef) :
    Except PyError ℤ := do
  let params := indicator.params
  match indicator.type with
  | "macd" =>
    let slow ← intParam parseInt params "slow" 26
    let signal ← intParam parseInt params "signal" 9
    return slow + signal + if hasComponent params "line" "histogram_slope" then 1 else 0
  | "bollinger" => intParam parseInt params "period" 20
  | "adx" => return 2 * (← intParam parseInt params "period" 14)
  | "supertrend" => return 2 * (← intParam parseInt params "period" 10)
  | "volume_flow" =>
    if hasComponent params "cmf" "close_delta" then return 2
    else intParam parseInt params "period" 20
  | "market_structure" => return 4 * (← intParam parseInt params "pivot_bars" 5) + 1
  | _ => intParam parseInt params "period" 14

/-- The loop over the indicators. -/
def maxPeriod (parseInt : String → Option ℤ) : List IndicatorDef → ℤ → Except PyError ℤ
  | [], period => .ok period
  | indicator :: rest, period => do
    let needed ← indicator.needed parseInt
    maxPeriod parseInt rest (max period needed)

/-- `compute_min_lookback_bars` -/
def computeMinLookbackBars (parseInt : String → Option ℤ) (config : FeaturesConfig) :
    Except PyError ℕ := do
  let period ← maxPeriod parseInt config.indicators 1
  return (period + 1).toNat

variable {parseInt : String → Option ℤ}

theorem le_maxPeriod {indicators : List IndicatorDef} {period longest : ℤ}
    (h : maxPeriod parseInt indicators period = .ok longest) : period ≤ longest := by
  induction indicators generalizing period with
  | nil =>
    cases h
    exact le_rfl
  | cons indicator rest ih =>
    obtain ⟨needed, -, hrest⟩ := Except.bind_eq_ok.mp h
    exact (le_max_left period needed).trans (ih hrest)

/-- A run skips at least two bars. -/
theorem two_le_lookback {config : FeaturesConfig} {bars : ℕ}
    (h : computeMinLookbackBars parseInt config = .ok bars) : 2 ≤ bars := by
  obtain ⟨period, hperiod, hbars⟩ := Except.bind_eq_ok.mp h
  cases hbars
  have hle := le_maxPeriod hperiod
  omega

end Lookback

/-! ## The bars of a range -/

namespace CsvDataProvider

variable {p : CsvDataProvider} {symbol timeframe : String} {start endTime : ℤ} {times : List ℤ}

/-- The timestamps of a range lie in it, and are distinct where those of the file are. -/
theorem timestamps_within (hfile : p.df.Pairwise fun a b => a.timestamp < b.timestamp)
    (h : p.timestamps symbol timeframe start endTime = .ok times) :
    times.Pairwise (· < ·) ∧ ∀ t ∈ times, start ≤ t ∧ t ≤ endTime := by
  obtain ⟨_, _, h⟩ := Except.bind_eq_ok.mp h
  cases h
  refine ⟨List.pairwise_map.mpr (hfile.sublist (p.rangeSlice_sublist start endTime)), ?_⟩
  intro t ht
  obtain ⟨c, hc, rfl⟩ := List.mem_map.mp ht
  exact (p.mem_rangeSlice.mp hc).2

end CsvDataProvider

/-! ## The bars a run decides on -/

/-- The decision that a cycle returns is made on its bar. -/
theorem PlatformRuntime.decision_of_runCycle {rt rt' : PlatformRuntime} {call : CycleCall}
    {result : CycleResult} (h : rt.runCycle call = (.ok result, rt')) :
    ∃ ctx rt₁, Prepared call rt ctx rt₁ ∧ result.decision.eventTime = ctx.eventTime := by
  have hdecided : ∃ d rt₁, rt.runToDecision call = (.ok d, rt₁) ∧ result.decision = d.decision := by
    unfold runCycle at h
    split at h
    · cases h
    · next published rt₁ hpublish =>
      cases h
      unfold runToPublish at hpublish
      split at hpublish
      · cases hpublish
      · next d rt₂ hdecision =>
        split at hpublish
        · cases hpublish
        · cases hpublish
          exact ⟨d, rt₂, hdecision, rfl⟩
  obtain ⟨d, rt₁, hdecision, hsame⟩ := hdecided
  rcases runToSnapshot_cases rt call with ⟨e, -, hsnap⟩ | ⟨ctx, rt₂, hprep, hsnap⟩
  · cases (runToDecision_of_error hsnap).symm.trans hdecision
  rcases hsnap with ⟨e, rt₃, hsnap, -⟩ | ⟨a, rt₃, rt₄, hsnap, -, -, hctx, -⟩
  · cases (runToDecision_of_error hsnap).symm.trans hdecision
  rcases runToDecision_of_ok hsnap with ⟨e, rt₅, hraised, -⟩ |
    ⟨d', rt₅, hmade, -, -, -, htime, -⟩
  · cases hraised.symm.trans hdecision
  · cases hmade.symm.trans hdecision
    exact ⟨ctx, rt₂, hprep, by rw [hsame, htime, hctx.eventTime]⟩

namespace ValidationHarness

variable {h : ValidationHarness} {rt rt' : PlatformRuntime}

/-- The cycles of a run decide on its bars, in order. -/
theorem eventTimes_runBars {bars : List (ℤ × ℕ)} {cycles : List CycleResult}
    (hrows : ∀ b ∈ bars, ∃ c ∈ h.dataProvider.df, c.timestamp = b.1)
    (hrun : h.runBars bars rt = .ok (cycles, rt')) :
    cycles.map (·.decision.eventTime) = bars.map Prod.fst := by
  induction bars generalizing rt cycles with
  | nil =>
    cases hrun
    rfl
  | cons b rest ih =>
    obtain ⟨barTime, i⟩ := b
    obtain ⟨result, rt₁, cycles', hcycle, hrest, rfl⟩ := runBars_cons_ok hrun
    obtain ⟨ctx, rt₂, hprep, htime⟩ := PlatformRuntime.decision_of_runCycle hcycle
    rw [List.map_cons, List.map_cons, ih (fun b hb => hrows b (List.mem_cons_of_mem _ hb)) hrest,
      htime, eventTime_of_prepared (hrows _ List.mem_cons_self) hprep]

end ValidationHarness

namespace ValidationJob

variable (job : ValidationJob) (env : JobEnvironment)

/-- The event times of the decisions of a job's run. -/
def decisionTimes : Except PyError (List ℤ) := do
  let (provider, start, endTime) ← job.loadData env
  let (cycles, _) ← drive (job.harness env provider start endTime)
    (job.setup env job.emitAll start).start
  return cycles.map (·.decision.eventTime)

variable {job env} {times : List ℤ}

/-- The timestamps of every file are strictly increasing. -/
def StrictFiles (env : JobEnvironment) : Prop :=
  ∀ path rows, env.readCsv path = .ok rows →
    rows.Pairwise fun a b => a.timestamp < b.timestamp

theorem loadRows_strict (hfiles : StrictFiles env) {rows : Frame}
    (h : job.loadRows env = .ok rows) : rows.Pairwise fun a b => a.timestamp < b.timestamp := by
  unfold loadRows at h
  split at h
  · exact hfiles _ _ h
  · obtain ⟨path, -, h⟩ := Except.bind_eq_ok.mp h
    exact hfiles _ _ h

/-- The bars of a job: distinct, and from its start date to its end date. -/
theorem loadData_within (hfiles : StrictFiles env) {provider : CsvDataProvider}
    {start endTime last : ℤ} (hend : job.endDate = some last)
    (h : job.loadData env = .ok (provider, start, endTime)) :
    (provider.df.Pairwise fun a b => a.timestamp < b.timestamp) ∧
      job.startDate ≤ start ∧ endTime ≤ last := by
  obtain ⟨rows, hrows, h⟩ := Except.bind_eq_ok.mp h
  have hstrict := loadRows_strict hfiles hrows
  have hfile : (job.dataProvider rows).df.Pairwise fun a b => a.timestamp < b.timestamp := by
    have hsorted : rows.Pairwise fun a b => a.timestamp ≤ b.timestamp := hstrict.imp le_of_lt
    change (rows.insertionSort fun a b => a.timestamp ≤ b.timestamp).Pairwise _
    rwa [hsorted.insertionSort_eq]
  obtain ⟨last', hlast, h⟩ := Except.bind_eq_ok.mp h
  unfold ValidationJob.endTime at hlast
  rw [hend] at hlast
  cases hlast
  obtain ⟨times, htimes, h⟩ := Except.bind_eq_ok.mp h
  obtain ⟨-, hwithin⟩ := CsvDataProvider.timestamps_within hfile htimes
  cases times with
  | nil => cases h
  | cons first rest =>
    cases h
    refine ⟨hfile, (hwithin start List.mem_cons_self).1, (hwithin _ ?_).2⟩
    cases rest with
    | nil => exact List.mem_cons_self
    | cons a rest => exact List.mem_cons_of_mem _ (List.getLast_mem _)

/-- A run decides after the start of its range only, and not after its end. -/
theorem decisionTimes_within (hfiles : StrictFiles env) (hlookback : 1 ≤ env.minLookbackBars)
    {last : ℤ} (hend : job.endDate = some last) (h : job.decisionTimes env = .ok times) :
    ∀ t ∈ times, job.startDate < t ∧ t ≤ last := by
  obtain ⟨⟨provider, start, endTime⟩, hload, h⟩ := Except.bind_eq_ok.mp h
  obtain ⟨hfile, hstart, hend'⟩ := loadData_within hfiles hend hload
  obtain ⟨⟨cycles, rt⟩, hdrive, h⟩ := Except.bind_eq_ok.mp h
  cases h
  obtain ⟨bars, hbars, hdrive⟩ := Except.bind_eq_ok.mp hdrive
  obtain ⟨⟨cycles', rt'⟩, hrun, hdrive⟩ := Except.bind_eq_ok.mp hdrive
  obtain ⟨_, -, hdrive⟩ := Except.bind_eq_ok.mp hdrive
  cases hdrive
  obtain ⟨-, -, hrows⟩ := ValidationHarness.barTimes_ok hbars
  have hmap : bars.zipIdx.map Prod.fst = bars := List.zipIdx_map_fst 0 bars
  have hdecided := ValidationHarness.eventTimes_runBars
    (fun b hb => hrows b.1 (hmap ▸ List.mem_map_of_mem hb)) hrun
  rw [hdecided, hmap]
  obtain ⟨all, hall, -, rfl⟩ := ValidationHarness.barTimes_eq_ok.mp hbars
  obtain ⟨hsorted, hwithin⟩ := CsvDataProvider.timestamps_within hfile hall
  intro t ht
  -- the first bar of the range is skipped, and it is not before the start
  cases all with
  | nil => simp at ht
  | cons first rest =>
    have hlater : t ∈ rest := by
      obtain ⟨k, hk⟩ := Nat.exists_eq_add_of_le' hlookback
      change t ∈ (first :: rest).drop env.minLookbackBars at ht
      rw [hk, List.drop_succ_cons] at ht
      exact List.mem_of_mem_drop ht
    have hfirst : first < t := (List.pairwise_cons.mp hsorted).1 t hlater
    have hin : start ≤ first := (hwithin first List.mem_cons_self).1
    exact ⟨(hstart.trans hin).trans_lt hfirst,
      (hwithin t (List.mem_cons_of_mem _ hlater)).2.trans hend'⟩

end ValidationJob

/-! ## The periods in order -/

theorem midnight_mono {a b : ℤ} (h : a ≤ b) : midnight a ≤ midnight b :=
  mul_le_mul_of_nonneg_right (date_mono h) (by norm_num)

/-- A share of a span is part of it. -/
theorem shareOf_mem {span : ℤ} {ratio : ℚ} (hspan : 0 ≤ span) (hratio : 0 ≤ ratio ∧ ratio ≤ 1) :
    0 ≤ shareOf span ratio ∧ shareOf span ratio ≤ span := by
  have hspan' : (0 : ℚ) ≤ span := Int.cast_nonneg hspan
  constructor
  · refine le_roundHalfEven ?_
    rw [Int.cast_zero]
    exact mul_nonneg hspan' hratio.1
  · exact roundHalfEven_le (mul_le_of_le_one_right hspan' hratio.2)

theorem splitTrainTest_ok {start endTime : ℤ} {trainRatio : ℚ} {train test : ℤ × ℤ}
    (h : splitTrainTest start endTime trainRatio = .ok (train, test)) :
    train.2 = test.1 ∧ test.1 ≤ test.2 ∧ test.2 = endTime := by
  unfold splitTrainTest at h
  by_cases hratio : 0 < trainRatio ∧ trainRatio < 1
  · rw [if_neg (not_not.mpr hratio)] at h
    by_cases hspan : endTime - start ≤ 0
    · rw [if_pos hspan] at h
      cases h
    rw [if_neg hspan] at h
    cases h
    refine ⟨rfl, ?_, rfl⟩
    have hshare := shareOf_mem (not_le.mp hspan).le ⟨hratio.1.le, hratio.2.le⟩
    dsimp only
    omega
  · rw [if_pos hratio] at h
    cases h

/-- The holdout period starts where the range that is optimized on ends. -/
theorem splitHoldout_ok {start endTime optStart optEnd : ℤ} {holdoutRatio : ℚ}
    {holdout : Option (ℤ × ℤ)}
    (h : splitHoldout start endTime holdoutRatio = .ok ((optStart, optEnd), holdout)) :
    ∀ range ∈ holdout, range.1 = optEnd := by
  unfold splitHoldout at h
  by_cases hnone : holdoutRatio ≤ 0
  · rw [if_pos hnone] at h
    cases h
    rintro range ⟨⟩
  rw [if_neg hnone] at h
  by_cases hratio : 0 < holdoutRatio ∧ holdoutRatio < 1
  · rw [if_neg (not_not.mpr hratio)] at h
    by_cases hspan : endTime - start ≤ 0
    · rw [if_pos hspan] at h
      cases h
    rw [if_neg hspan] at h
    cases h
    rintro range ⟨⟩
    rfl
  · rw [if_pos hratio] at h
    cases h

namespace OptimizationCall

variable {Params : Type} {call call' : OptimizationCall Params} {env : OptimizationEnvironment}

theorem resolved_walkForwardWindows (h : call.resolved env = .ok call') :
    call'.walkForwardWindows = call.walkForwardWindows := by
  unfold resolved at h
  split at h
  · obtain ⟨path, -, h⟩ := Except.bind_eq_ok.mp h
    cases h
    rfl
  · cases h
    rfl

/-- Without windows the range is split once. -/
theorem periods_ok {optStart optEnd : ℤ} {p : Periods} (hwindows : call.walkForwardWindows ≤ 1)
    (h : call.periods optStart optEnd = .ok p) :
    p.train.2 = p.test.1 ∧ p.test.1 ≤ p.test.2 ∧ p.test.2 = optEnd := by
  unfold periods at h
  rw [if_neg (not_lt.mpr hwindows)] at h
  obtain ⟨windows, hnone, h⟩ := Except.bind_eq_ok.mp h
  cases hnone
  obtain ⟨⟨train, test⟩, hsplit, h⟩ := Except.bind_eq_ok.mp h
  cases h
  exact splitTrainTest_ok hsplit

end OptimizationCall

/-- Every time of `a` is before every time of `b`. -/
def Precede (a b : List ℤ) : Prop := ∀ x ∈ a, ∀ y ∈ b, x < y

namespace OptimizationCall

variable {Params : Type} {call call' : OptimizationCall Params} {env : OptimizationEnvironment}

/-- The run of a trial over the range decides at these times. -/
def Decides (call : OptimizationCall Params) (env : OptimizationEnvironment) (range : ℤ × ℤ)
    (times : List ℤ) : Prop :=
  ∃ params, (call.trialJob params range).decisionTimes env.toJobEnvironment = .ok times

/-- All training decisions are before all test decisions, and these before all decisions of the
holdout run. -/
structure Segregates (call : OptimizationCall Params) (env : OptimizationEnvironment) (p : Periods)
    (holdout : Option (ℤ × ℤ)) : Prop where
  trainTest : ∀ train test, call.Decides env p.train train → call.Decides env p.test test →
    Precede train test
  testHoldout : ∀ range ∈ holdout, ∀ test held, call.Decides env p.test test →
    call.Decides env range held → Precede test held
  trainHoldout : ∀ range ∈ holdout, ∀ train held, call.Decides env p.train train →
    call.Decides env range held → Precede train held

theorem Decides.within {range : ℤ × ℤ} {times : List ℤ}
    (hfiles : ValidationJob.StrictFiles env.toJobEnvironment) (hlookback : 1 ≤ env.minLookbackBars)
    (h : call.Decides env range times) :
    ∀ t ∈ times, midnight range.1 < t ∧ t ≤ midnight range.2 := by
  obtain ⟨params, h⟩ := h
  exact ValidationJob.decisionTimes_within hfiles hlookback rfl h

/-- Runs over ranges that do not overlap decide at times in order. -/
theorem Decides.precede {range range' : ℤ × ℤ} {times times' : List ℤ}
    (hfiles : ValidationJob.StrictFiles env.toJobEnvironment) (hlookback : 1 ≤ env.minLookbackBars)
    (hle : range.2 ≤ range'.1) (h : call.Decides env range times)
    (h' : call.Decides env range' times') : Precede times times' := by
  intro x hx y hy
  calc x ≤ midnight range.2 := (h.within hfiles hlookback x hx).2
    _ ≤ midnight range'.1 := midnight_mono hle
    _ < y := (h'.within hfiles hlookback y hy).1

/-- Without walk-forward windows, the training, test and holdout runs of an optimization decide on
bars that are pairwise distinct and in this order. -/
theorem segregates {parseInt : String → Option ℤ} {features : FeaturesConfig} {p : Periods}
    {optStart optEnd : ℤ} {holdout : Option (ℤ × ℤ)}
    (hlookback : computeMinLookbackBars parseInt features = .ok env.minLookbackBars)
    (hfiles : ValidationJob.StrictFiles env.toJobEnvironment)
    (hwindows : call.walkForwardWindows ≤ 1)
    (hsplit : splitHoldout call.start call.endTime call.holdoutRatio =
      .ok ((optStart, optEnd), holdout))
    (hresolved : call.resolved env = .ok call') (hperiods : call'.periods optStart optEnd = .ok p) :
    call'.Segregates env p holdout := by
  have hskip : 1 ≤ env.minLookbackBars := (two_le_lookback hlookback).trans' (by omega)
  have hholdout := splitHoldout_ok hsplit
  have hranges := periods_ok (resolved_walkForwardWindows hresolved ▸ hwindows) hperiods
  obtain ⟨hshared, htest, hopt⟩ := hranges
  exact {
    trainTest := fun train test h h' => h.precede hfiles hskip hshared.le h'
    testHoldout := fun range hrange test held h h' =>
      h.precede hfiles hskip (hopt.trans (hholdout range hrange).symm).le h'
    trainHoldout := fun range hrange train held h h' =>
      h.precede hfiles hskip (hshared.le.trans (htest.trans
        (hopt.trans (hholdout range hrange).symm).le)) h' }

/-- A sweep over six days: two to train on, two to test on and two held out. -/
def sixDays : OptimizationCall Unit where
  symbol := "BTC/USDT"
  timeframe := "1d"
  start := 0
  endTime := 6 * 86400000000
  trainRatio := 1 / 2
  search := .batch [()]
  space := {
    engineConfig := fun _ => .solo
    executionConfig := fun _ => .tenth
    collaborators := fun _ _ _ _ => .serving (.flat 0 100) .buy
    revisionId := fun _ => "rev"
    minAgreeingProviders := fun _ => 1 }
  holdoutRatio := 1 / 3
  refine _ := []

/-- Seven flat days, and no indicator. -/
def sevenBars : OptimizationEnvironment := { JobEnvironment.flat .close 7 with
  minLookbackBars := 2
  floatText := fun _ => "0.0" }

def noFeatures : FeaturesConfig where
  version := "1"
  indicators := []
  flags := []
  context := { fast := "ema_fast", slow := "ema_slow", atr := "atr", low := 0, high := 1 }

/-- The periods share their boundaries, and each has one bar to decide on. -/
theorem segregates_sixDays :
    sixDays.Segregates sevenBars
      { windows := []
        train := (0, 2 * 86400000000)
        test := (2 * 86400000000, 4 * 86400000000) }
      (some (4 * 86400000000, 6 * 86400000000)) := by
  have hlookback : computeMinLookbackBars (fun _ => none) noFeatures =
      .ok sevenBars.minLookbackBars := rfl
  have hfiles : ValidationJob.StrictFiles sevenBars.toJobEnvironment := by
    intro path rows h
    cases h
    decide
  have hsplit : splitHoldout sixDays.start sixDays.endTime sixDays.holdoutRatio =
      .ok ((0, 4 * 86400000000), some (4 * 86400000000, 6 * 86400000000)) := by decide +kernel
  exact segregates hlookback hfiles (by decide) hsplit rfl (by decide +kernel)

example : (sixDays.trialJob () (2 * 86400000000, 4 * 86400000000)).decisionTimes
    sevenBars.toJobEnvironment = .ok [4 * 86400000000] := by decide +kernel

end OptimizationCall

end TradingPlatform
