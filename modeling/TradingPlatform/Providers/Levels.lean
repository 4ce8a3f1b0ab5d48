import TradingPlatform.Engine.Consensus
import TradingPlatform.Engine.RiskGates
import TradingPlatform.Providers.Technical
import TradingPlatform.Validation.Brackets

/-!
# The levels of a final signal

A provider puts its stop on the losing side of the price and its target on the winning side. The
levels of a final signal are averages over those of the signals whose providers have won, or
percentages of the price, so they bracket the price as long as no provider that has won has a signal
to the other side as well.
-/

namespace TradingPlatform

/-- The level is on the side of the price on which an order of the side loses. -/
def Side.Losing (side : Side) (price level : ℚ) : Prop :=
  match side with
  | .buy => level < price
  | .sell => price < level

/-- The levels a signal has are those `_atr_stops` computes for its side with positive
multipliers; `HOLD` comes without levels. -/
def StrategySignal.AtrLevels (signal : StrategySignal) (context : MarketContext) : Prop :=
  ∃ (provider : BaseSignalProvider) (slAtrMult tpAtrMult : Option ℚ),
    0 < provider.slMult slAtrMult ∧ 0 < provider.tpMult tpAtrMult ∧
    (∀ level ∈ signal.stopLoss, ∃ side, signal.side.direction = some side ∧
      level = (provider.atrStops context side slAtrMult tpAtrMult).1) ∧
    ∀ level ∈ signal.takeProfit, ∃ side, signal.side.direction = some side ∧
      level = (provider.atrStops context side slAtrMult tpAtrMult).2

theorem brackets_entrySide {side : Side} {stopLoss price takeProfit : ℚ} :
    (SimulatedExecutionEngine.entrySide side).Brackets stopLoss price takeProfit ↔
      side.Losing price stopLoss ∧ side.opposite.Losing price takeProfit := by
  cases side with
  | buy => rfl
  | sell => exact and_comm

/-! ## What the providers give -/

section

variable {context : MarketContext} {signal : StrategySignal} {side : Side} {level : ℚ}

theorem StrategySignal.AtrLevels.stopLoss (h : signal.AtrLevels context)
    (hatr : 0 < context.atr) (hside : ∀ d, signal.side.direction = some d → d = side)
    (hlevel : level ∈ signal.stopLoss) : side.Losing context.currentPrice level := by
  obtain ⟨provider, slAtrMult, tpAtrMult, hsl, _, hstop, _⟩ := h
  obtain ⟨direction, hdirection, rfl⟩ := hstop level hlevel
  obtain rfl := hside direction hdirection
  have hmove : 0 < provider.slMult slAtrMult * context.atr := mul_pos hsl hatr
  cases direction with
  | buy => exact sub_lt_self _ hmove
  | sell => exact lt_add_of_pos_right _ hmove

theorem StrategySignal.AtrLevels.takeProfit (h : signal.AtrLevels context)
    (hatr : 0 < context.atr) (hside : ∀ d, signal.side.direction = some d → d = side)
    (hlevel : level ∈ signal.takeProfit) : side.opposite.Losing context.currentPrice level := by
  obtain ⟨provider, slAtrMult, tpAtrMult, _, htp, _, htarget⟩ := h
  obtain ⟨direction, hdirection, rfl⟩ := htarget level hlevel
  obtain rfl := hside direction hdirection
  have hmove : 0 < provider.tpMult tpAtrMult * context.atr := mul_pos htp hatr
  cases direction with
  | buy => exact lt_add_of_pos_right _ hmove
  | sell => exact sub_lt_self _ hmove

end

namespace BaseSignalProvider

variable {provider : BaseSignalProvider} {features : FeatureSet} {context : MarketContext}
  {side : SignalSide} {confidence minConfidence : ℚ} {rationale : ProviderRationale}
  {summary below : String} {signal : StrategySignal}

theorem atrLevels_of_no_levels (hsl : 0 < provider.slMult) (htp : 0 < provider.tpMult)
    (h : provider.buildSignal features side confidence rationale = .ok signal) :
    signal.AtrLevels context := by
  obtain ⟨_, _, _, _, hstop, htarget⟩ := buildSignal_eq_ok h
  refine ⟨provider, none, none, hsl, htp, ?_, ?_⟩
  · simp [hstop]
  · simp [htarget]

theorem atrLevels_of_atrStops {direction : Side} (hsl : 0 < provider.slMult)
    (htp : 0 < provider.tpMult) (hside : side.direction = some direction)
    (h : provider.buildSignal features side confidence rationale
      (some (provider.atrStops context direction).1)
      (some (provider.atrStops context direction).2) = .ok signal) :
    signal.AtrLevels context := by
  obtain ⟨_, rfl, _, _, hstop, htarget⟩ := buildSignal_eq_ok h
  refine ⟨provider, none, none, hsl, htp, ?_, ?_⟩
  · intro level hlevel
    rw [hstop] at hlevel
    exact ⟨direction, hside, (Option.mem_some_iff.mp hlevel).symm⟩
  · intro level hlevel
    rw [htarget] at hlevel
    exact ⟨direction, hside, (Option.mem_some_iff.mp hlevel).symm⟩

theorem atrLevels_of_conclude (hsl : 0 < provider.slMult) (htp : 0 < provider.tpMult)
    (h : provider.conclude features context side confidence minConfidence summary below =
      .ok signal) : signal.AtrLevels context := by
  unfold conclude at h
  split at h
  · exact atrLevels_of_no_levels hsl htp h
  · next direction hside =>
    split_ifs at h
    · exact atrLevels_of_no_levels hsl htp h
    · exact atrLevels_of_atrStops hsl htp hside h

end BaseSignalProvider

open BaseSignalProvider in
/-- The signals of the registered providers have levels of `_atr_stops` or none. -/
theorem ProviderClass.atrLevels_of_analyze {cls : ProviderClass} {provider : BaseSignalProvider}
    {features : FeatureSet} {context : MarketContext} {signal : StrategySignal}
    (hsl : 0 < provider.slMult) (htp : 0 < provider.tpMult)
    (h : cls.analyze provider features context = .ok signal) : signal.AtrLevels context := by
  cases cls with
  | coreLong =>
    simp only [analyze, CoreLongProvider.analyze, CoreLongProvider.hold] at h
    split at h
    · exact atrLevels_of_no_levels hsl htp h
    · split at h
      · exact atrLevels_of_no_levels hsl htp h
      · next direction hside =>
        by_cases hlow : provider.params.confidence.getD (9 / 10) <
            provider.params.minConfidence.getD (6 / 10)
        · rw [if_pos hlow] at h
          exact atrLevels_of_no_levels hsl htp h
        · rw [if_neg hlow] at h
          by_cases hstops : provider.params.useAtrStops.getD true = true
          · rw [if_pos hstops] at h
            exact atrLevels_of_atrStops hsl htp hside h
          · rw [if_neg hstops] at h
            exact atrLevels_of_no_levels hsl htp h
  | _ => exact atrLevels_of_conclude hsl htp h

/-! ## The levels of the final signal -/

namespace FinalSignalBuilder

variable {side : Side} {entry : ℚ}

/-- An average of levels on the losing side is on the losing side. -/
theorem losing_weightedAvg {values : List (ℚ × ℚ)} {level : ℚ}
    (hweights : ∀ v ∈ values, 0 ≤ v.2) (hlosing : ∀ v ∈ values, side.Losing entry v.1)
    (h : weightedAvg values = some level) : side.Losing entry level := by
  -- the plain mean is the average under equal weights
  have hmean : ∃ weight : ℚ × ℚ → ℚ, (∀ v ∈ values, 0 ≤ weight v) ∧
      0 < (values.map weight).sum ∧ level = values.weightedMean Prod.fst weight := by
    unfold weightedAvg at h
    dsimp only at h
    split_ifs at h with hnil htotal
    · have hlength : 0 < values.length :=
        List.length_pos_iff.mpr fun hv => hnil (List.isEmpty_iff.mpr hv)
      refine ⟨fun _ => 1, fun _ _ => zero_le_one, ?_, ?_⟩
      · simpa using hlength
      · rw [List.weightedMean_one]
        exact (Option.some.inj h).symm
    · exact ⟨Prod.snd, hweights, not_le.mp htotal, (Option.some.inj h).symm⟩
  obtain ⟨weight, hnonneg, hsum, rfl⟩ := hmean
  cases side with
  | buy => exact List.weightedMean_lt hnonneg hsum hlosing
  | sell => exact List.lt_weightedMean hnonneg hsum hlosing

theorem losing_levels {winners : List StrategySignal} {level : StrategySignal → Option ℚ}
    {weights : Dict String ℚ} {default : ℚ}
    (hweights : ∀ s ∈ winners, 0 ≤ weights.getD s.providerId 1)
    (hlosing : ∀ s ∈ winners, ∀ l ∈ level s, side.Losing entry l)
    (hdefault : side.Losing entry default) :
    side.Losing entry ((weightedAvg (winners.filterMap fun s =>
      (level s).map fun l => (l, weights.getD s.providerId 1))).getD default) := by
  have hvalues : ∀ v ∈ winners.filterMap fun s =>
      (level s).map fun l => (l, weights.getD s.providerId 1),
      0 ≤ v.2 ∧ side.Losing entry v.1 := by
    intro v hv
    obtain ⟨s, hs, hmap⟩ := List.mem_filterMap.mp hv
    obtain ⟨l, hl, rfl⟩ := Option.map_eq_some_iff.mp hmap
    exact ⟨hweights s hs, hlosing s hs l hl⟩
  cases havg : weightedAvg (winners.filterMap fun s =>
      (level s).map fun l => (l, weights.getD s.providerId 1)) with
  | none => exact hdefault
  | some avg =>
    exact losing_weightedAvg (fun v hv => (hvalues v hv).1) (fun v hv => (hvalues v hv).2) havg

theorem brackets_mergeLevels {winners : List StrategySignal} {weights : Dict String ℚ}
    (hentry : 0 < entry) (hweights : ∀ s ∈ winners, 0 ≤ weights.getD s.providerId 1)
    (hstop : ∀ s ∈ winners, ∀ l ∈ s.stopLoss, side.Losing entry l)
    (htarget : ∀ s ∈ winners, ∀ l ∈ s.takeProfit, side.opposite.Losing entry l) :
    side.Losing entry (mergeLevels side winners entry weights).1 ∧
      side.opposite.Losing entry (mergeLevels side winners entry weights).2 := by
  cases side with
  | buy =>
    exact ⟨losing_levels hweights hstop (show entry * (99 / 100) < entry by linarith),
      losing_levels hweights htarget (show entry < entry * (102 / 100) by linarith)⟩
  | sell =>
    exact ⟨losing_levels hweights hstop (show entry < entry * (101 / 100) by linarith),
      losing_levels hweights htarget (show entry * (98 / 100) < entry by linarith)⟩

variable {config : AggregationConfig} {signals : List StrategySignal} {context : MarketContext}
  {aggregated : AggregatorSuccess} {snapshot : StateSnapshot} {decisionTime : ℤ}
  {revisionId : Option String} {volTargetAtrPct volTargetCap : ℚ} {u : ℕ} {final : FinalSignal}

/-- The levels of a built signal are the merged ones around the price of the context. -/
theorem build_eq_ok (h : (build aggregated signals context snapshot decisionTime revisionId
      volTargetAtrPct volTargetCap u).1 = .ok final) :
    final.side = aggregated.side ∧ final.entryPrice = context.currentPrice ∧
    (final.stopLoss, final.takeProfit) = mergeLevels aggregated.side
      (signals.filter fun s => s.providerId ∈ aggregated.weights.keys) context.currentPrice
      aggregated.weights := by
  have hvalidate {raw : FinalSignal} (hraw : raw.validate = .ok final) : final = raw := by
    unfold FinalSignal.validate at hraw
    split_ifs at hraw
    exact (Except.ok.inj hraw).symm
  have hfinal := hvalidate h
  subst hfinal
  exact ⟨rfl, rfl, rfl⟩

theorem weights_of_combine (hcombine : config.combine signals = .ok aggregated) :
    aggregated.weights = AggregationConfig.winnerWeights (onSide aggregated.side signals)
      config.weighs :=
  congrArg (·.weights) (AggregationConfig.combine_eq_ok hcombine).2

/-- A signal of a provider that has won is not to the other side. -/
theorem side_of_winner
    (hids : ∀ s ∈ onSide .buy signals, ∀ s' ∈ onSide .sell signals, s.providerId ≠ s'.providerId)
    (hcombine : config.combine signals = .ok aggregated) {s : StrategySignal} (hs : s ∈ signals)
    (hkey : s.providerId ∈ aggregated.weights.keys) {d : Side}
    (hd : s.side.direction = some d) : d = aggregated.side := by
  rw [weights_of_combine hcombine] at hkey
  obtain ⟨winner, hwinner, hid⟩ := AggregationConfig.exists_of_mem_keys_winnerWeights hkey
  have hsame : s ∈ onSide d signals := mem_onSide.mpr ⟨hs, SignalSide.direction_eq_some.mp hd⟩
  cases d with
  | buy =>
    cases hagg : aggregated.side with
    | buy => rfl
    | sell => exact absurd hid.symm (hids s hsame winner (hagg ▸ hwinner))
  | sell =>
    cases hagg : aggregated.side with
    | buy => exact absurd hid (hids winner (hagg ▸ hwinner) s hsame)
    | sell => rfl

theorem weight_nonneg (hweights : ∀ s ∈ signals, 0 ≤ s.providerWeight)
    (hcombine : config.combine signals = .ok aggregated) (id : String) :
    0 ≤ aggregated.weights.getD id 1 := by
  rw [weights_of_combine hcombine, Dict.getD]
  cases hget : (AggregationConfig.winnerWeights (onSide aggregated.side signals)
      config.weighs).get? id with
  | none => exact zero_le_one
  | some weight =>
    obtain ⟨winner, hmem, _, rfl⟩ := AggregationConfig.exists_of_get?_winnerWeights hget
    exact AggregationConfig.recordedWeight_nonneg (hweights winner (mem_onSide.mp hmem).1)

/-- The levels of the final signal bracket its entry price, when the levels of the signals are those
of `_atr_stops` with positive multipliers or missing, the weights are not negative, and no provider
has signals to both sides. -/
theorem bracketed_of_combine (config : AggregationConfig) (signals : List StrategySignal)
    (context : MarketContext) (aggregated : AggregatorSuccess) (snapshot : StateSnapshot)
    (decisionTime : ℤ) (revisionId : Option String) (volTargetAtrPct volTargetCap : ℚ) (u : ℕ)
    (final : FinalSignal) (hprice : 0 < context.currentPrice) (hatr : 0 < context.atr)
    (hlevels : ∀ s ∈ signals, s.AtrLevels context)
    (hweights : ∀ s ∈ signals, 0 ≤ s.providerWeight)
    (hids : ∀ s ∈ onSide .buy signals, ∀ s' ∈ onSide .sell signals, s.providerId ≠ s'.providerId)
    (hcombine : config.combine signals = .ok aggregated)
    (hbuild : (build aggregated signals context snapshot decisionTime revisionId volTargetAtrPct
      volTargetCap u).1 = .ok final) : final.Bracketed := by
  obtain ⟨hside, hentry, hmerge⟩ := build_eq_ok hbuild
  have hwinner : ∀ s ∈ signals.filter fun s => s.providerId ∈ aggregated.weights.keys,
      s ∈ signals ∧ ∀ d, s.side.direction = some d → d = aggregated.side := by
    intro s hs
    obtain ⟨hmem, hkey⟩ := List.mem_filter.mp hs
    exact ⟨hmem, fun d => side_of_winner hids hcombine hmem (of_decide_eq_true hkey)⟩
  have hbrackets := brackets_mergeLevels hprice (fun s _ => weight_nonneg hweights hcombine _)
    (fun s hs l hl => (hlevels s (hwinner s hs).1).stopLoss hatr (hwinner s hs).2 hl)
    (fun s hs l hl => (hlevels s (hwinner s hs).1).takeProfit hatr (hwinner s hs).2 hl)
  rw [← hmerge] at hbrackets
  rw [FinalSignal.Bracketed, hside, hentry]
  exact brackets_entrySide.mpr hbrackets

open EngineConfig AggregationConfig

/-- An opinion with the levels of `_atr_stops` under the multipliers. -/
def levelled (providerId : String) (side : Side) (slMult : ℚ) : StrategySignal :=
  let provider : BaseSignalProvider := { providerId, params := { slAtrMult := some slMult } }
  { opinion providerId side.toSignalSide with
    stopLoss := (provider.atrStops usContext side).1
    takeProfit := (provider.atrStops usContext side).2 }

theorem atrLevels_levelled {providerId : String} {side : Side} {slMult : ℚ} (h : 0 < slMult) :
    (levelled providerId side slMult).AtrLevels usContext := by
  refine ⟨{ providerId, params := { slAtrMult := some slMult } }, none, none, h, three_pos,
    fun level hlevel => ⟨side, SignalSide.direction_eq_some.mpr rfl, ?_⟩,
    fun level hlevel => ⟨side, SignalSide.direction_eq_some.mpr rfl, ?_⟩⟩
  · exact (Option.mem_some_iff.mp hlevel).symm
  · exact (Option.mem_some_iff.mp hlevel).symm

theorem atrLevels_opinion {providerId : String} {side : SignalSide} {context : MarketContext} :
    (opinion providerId side).AtrLevels context :=
  ⟨{ providerId }, some 1, some 1, one_pos, one_pos, by simp [opinion], by simp [opinion]⟩

theorem bracketed_of_combine_pair :
    let signals := [levelled "ema_crossover" .sell 2, opinion "macd_momentum" .sell,
      levelled "rsi_divergence" .buy 1]
    ∀ aggregated final, solo.aggregation.combine signals = .ok aggregated →
      (build aggregated signals usContext (drawnDown "BTC") 0 none 0 1 0).1 = .ok final →
      final.Bracketed := by
  intro signals aggregated final hcombine hbuild
  refine bracketed_of_combine solo.aggregation signals usContext aggregated (drawnDown "BTC") 0 none
    0 1 0 final (by decide +kernel) (by decide +kernel) ?_ (by decide +kernel) (by decide +kernel)
    hcombine hbuild
  intro s hs
  simp only [signals, List.mem_cons, List.not_mem_nil, or_false] at hs
  rcases hs with rfl | rfl | rfl
  · exact atrLevels_levelled two_pos
  · exact atrLevels_opinion
  · exact atrLevels_levelled one_pos

/-- The signals of two providers of one identifier, to buy and to sell; the stop of the seller is
averaged into the bought position's. -/
def sharedId : List StrategySignal :=
  [levelled "ema_crossover" .buy 1, opinion "macd_momentum" .buy,
    levelled "ema_crossover" .sell 10]

theorem not_bracketed_of_shared_id : ¬ ∀ (config : AggregationConfig)
    (signals : List StrategySignal) (context : MarketContext) (aggregated : AggregatorSuccess)
    (snapshot : StateSnapshot) (decisionTime : ℤ) (revisionId : Option String)
    (volTargetAtrPct volTargetCap : ℚ) (u : ℕ) (final : FinalSignal),
    0 < context.currentPrice → 0 < context.atr → (∀ s ∈ signals, s.AtrLevels context) →
    (∀ s ∈ signals, 0 ≤ s.providerWeight) → config.combine signals = .ok aggregated →
    (build aggregated signals context snapshot decisionTime revisionId volTargetAtrPct volTargetCap
      u).1 = .ok final → final.Bracketed := by
  intro h
  have hlevels : ∀ s ∈ sharedId, s.AtrLevels usContext := by
    intro s hs
    simp only [sharedId, List.mem_cons, List.not_mem_nil, or_false] at hs
    rcases hs with rfl | rfl | rfl
    · exact atrLevels_levelled one_pos
    · exact atrLevels_opinion
    · exact atrLevels_levelled (by norm_num)
  have hrun : (solo.aggregation.combine sharedId).toOption.bind (fun aggregated =>
      (build aggregated sharedId usContext (drawnDown "BTC") 0 none 0 1 0).1.toOption.map
        fun final => decide final.Bracketed) = some false := by decide +kernel
  cases hcombine : solo.aggregation.combine sharedId with
  | error reason =>
    rw [hcombine] at hrun
    cases hrun
  | ok aggregated =>
    rw [hcombine] at hrun
    simp only [Except.toOption, Option.bind_some] at hrun
    cases hbuild : (build aggregated sharedId usContext (drawnDown "BTC") 0 none 0 1 0).1 with
    | error e =>
      rw [hbuild] at hrun
      cases hrun
    | ok final =>
      rw [hbuild] at hrun
      have hfinal := h solo.aggregation sharedId usContext aggregated (drawnDown "BTC") 0 none 0 1 0
        final (by decide +kernel) (by decide +kernel) hlevels (by decide +kernel) hcombine hbuild
      exact absurd hfinal (of_decide_eq_false (Option.some.inj hrun))

end FinalSignalBuilder

end TradingPlatform
