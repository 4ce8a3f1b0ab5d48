import TradingPlatform.Engine.Aggregator
import TradingPlatform.Lib.Average

/-!
# Consensus of the providers

Whatever the method, the aggregator counts the signals to buy and to sell: a side carries with
enough signals against few enough others, and otherwise the reason of the failure says which sides
had any. So the outcome does not depend on the order of the signals, and exchanging the sides
exchanges the outcome.
-/

namespace TradingPlatform

/-- The signals of a side. -/
def onSide (side : Side) (signals : List StrategySignal) : List StrategySignal :=
  signals.filter (·.side = side.toSignalSide)

def Side.opposite : Side → Side
  | .buy => .sell
  | .sell => .buy

theorem mem_onSide {side : Side} {signals : List StrategySignal} {s : StrategySignal} :
    s ∈ onSide side signals ↔ s ∈ signals ∧ s.side = side.toSignalSide := by
  simp [onSide]

namespace AggregationConfig

variable (config : AggregationConfig)

/-! ## What carries a side -/

/-- The winners are enough, and outnumber the losers; a unanimous method admits no loser. -/
def Carries (winners losers : List StrategySignal) : Prop :=
  config.minAgreeingProviders ≤ winners.length ∧
    match config.method with
    | .unanimous => losers = []
    | _ => losers.length < winners.length

instance (winners losers : List StrategySignal) : Decidable (config.Carries winners losers) := by
  unfold Carries
  cases config.method <;> infer_instance

/-- Every method but the plain majority weighs the confidences. -/
def weighs : Bool := config.method != .majority

/-- The reason given when no side carries. -/
def failureReason (buys sells : List StrategySignal) : String :=
  if buys = [] ∧ sells = [] then "no_active_signals"
  else if buys = [] ∨ sells = [] then "insufficient_consensus"
  else "provider_conflict"

/-- The outcome as the two sides determine it. -/
def settle (buys sells : List StrategySignal) : AggregatorOutcome :=
  if config.Carries buys sells then .ok (success buys sells .buy config.weighs)
  else if config.Carries sells buys then .ok (success sells buys .sell config.weighs)
  else .error (failureReason buys sells)

variable {config} {winners losers signals : List StrategySignal}

theorem Carries.outnumbers (h : config.Carries winners losers) :
    losers.length < winners.length := by
  obtain ⟨henough, hlosers⟩ := h
  have hmin := config.minAgreeingProviders_ge
  cases hmethod : config.method with
  | unanimous =>
    simp only [hmethod] at hlosers
    subst hlosers
    simp only [List.length_nil]
    omega
  | weightedMajority => simpa only [hmethod] using hlosers
  | majority => simpa only [hmethod] using hlosers

theorem Carries.not_nil (h : config.Carries winners losers) : winners ≠ [] := by
  rintro rfl
  exact absurd h.outnumbers (by simp)

theorem not_carries_nil : ¬ config.Carries [] losers := fun h => h.not_nil rfl

/-! ## The aggregator settles by the sides -/

/-- Without signals of the other side the active signals are those of the side. -/
theorem active_eq_onSide {side : Side} (h : onSide side.opposite signals = []) :
    signals.filter (·.side ≠ .hold) = onSide side signals := by
  refine List.filter_congr fun s hs => ?_
  have hother : s.side ≠ side.opposite.toSignalSide := fun hside =>
    List.not_mem_nil (h ▸ mem_onSide.mpr ⟨hs, hside⟩)
  revert hother
  cases side <;> cases s.side <;> decide

theorem active_eq_nil :
    signals.filter (·.side ≠ .hold) = [] ↔
      onSide .buy signals = [] ∧ onSide .sell signals = [] := by
  simp only [onSide, List.filter_eq_nil_iff, ← forall₂_and]
  refine forall₂_congr fun s _ => ?_
  cases s.side <;> decide

variable (signals) in
theorem filter_active (side : Side) :
    (signals.filter (·.side ≠ .hold)).filter (·.side = side.toSignalSide) =
      onSide side signals := by
  rw [List.filter_filter]
  refine List.filter_congr fun s _ => ?_
  cases side <;> cases s.side <;> decide

variable (config signals)

theorem combineMajority_eq (hmethod : config.method ≠ .unanimous) :
    config.combineMajority signals config.weighs =
      config.settle (onSide .buy signals) (onSide .sell signals) := by
  have hcarries (winners losers : List StrategySignal) : config.Carries winners losers ↔
      config.minAgreeingProviders ≤ winners.length ∧ losers.length < winners.length := by
    unfold Carries
    cases h : config.method with
    | unanimous => exact absurd h hmethod
    | weightedMajority => rfl
    | majority => rfl
  have hbuys : (signals.filter (·.side ≠ .hold)).filter (·.side = .buy) = onSide .buy signals :=
    filter_active signals .buy
  have hsells : (signals.filter (·.side ≠ .hold)).filter (·.side = .sell) = onSide .sell signals :=
    filter_active signals .sell
  unfold combineMajority settle failureReason
  dsimp only
  rw [hbuys, hsells]
  simp only [List.isEmpty_iff, active_eq_nil, hcarries]
  generalize onSide .buy signals = buys, onSide .sell signals = sells
  by_cases hb : buys = []
  · by_cases hs : sells = []
    · simp [hb, hs]
    · simp [hb, hs]
  · by_cases hs : sells = []
    · simp [hb, hs]
    · simp [hb, hs]

/-- The sides of the signals of one side are all that side. -/
theorem map_side_onSide (side : Side) : (onSide side signals).map (·.side) =
    List.replicate (onSide side signals).length side.toSignalSide :=
  List.map_eq_replicate_iff.mpr fun _ hs => (mem_onSide.mp hs).2

/-- Two different members, so some later member differs from the first. -/
theorem any_ne_head {α : Type*} [DecidableEq α] {first a b : α} {rest : List α}
    (ha : a ∈ first :: rest) (hb : b ∈ first :: rest) (hab : a ≠ b) :
    rest.any (· ≠ first) = true := by
  by_contra hnone
  have hall : ∀ x ∈ first :: rest, x = first := by
    simpa using hnone
  exact hab ((hall a ha).trans (hall b hb).symm)

theorem combineUnanimous_eq (hmethod : config.method = .unanimous) :
    config.combineUnanimous signals =
      config.settle (onSide .buy signals) (onSide .sell signals) := by
  have hcarries (winners losers : List StrategySignal) : config.Carries winners losers ↔
      config.minAgreeingProviders ≤ winners.length ∧ losers = [] := by
    unfold Carries
    rw [hmethod]
  have hweighs : config.weighs = true := by
    rw [weighs, hmethod]
    rfl
  have hmin := config.minAgreeingProviders_ge
  unfold combineUnanimous settle failureReason
  dsimp only
  by_cases hb : onSide .buy signals = []
  · by_cases hs : onSide .sell signals = []
    · rw [active_eq_nil.mpr ⟨hb, hs⟩]
      simp [hb, hs, not_carries_nil]
    · obtain ⟨n, hn⟩ := Nat.exists_eq_add_one_of_ne_zero (List.length_pos_iff.mpr hs).ne'
      rw [@active_eq_onSide _ .sell hb, map_side_onSide, hn, List.replicate_succ]
      simp [hb, hs, hn, hcarries, hweighs, Side.toSignalSide]
      split_ifs <;> first | rfl | omega
  · by_cases hs : onSide .sell signals = []
    · obtain ⟨n, hn⟩ := Nat.exists_eq_add_one_of_ne_zero (List.length_pos_iff.mpr hb).ne'
      rw [@active_eq_onSide _ .buy hs, map_side_onSide, hn, List.replicate_succ]
      simp [hb, hs, hn, hcarries, hweighs, Side.toSignalSide]
      split_ifs <;> first | rfl | omega
    · obtain ⟨buy, hbuy⟩ := List.exists_mem_of_ne_nil _ hb
      obtain ⟨sell, hsell⟩ := List.exists_mem_of_ne_nil _ hs
      have hactive {side : Side} {s : StrategySignal} (hmem : s ∈ onSide side signals) :
          side.toSignalSide ∈ (signals.filter (·.side ≠ .hold)).map (·.side) := by
        obtain ⟨hsignal, hside⟩ := mem_onSide.mp hmem
        refine List.mem_map.mpr ⟨s, List.mem_filter.mpr ⟨hsignal, ?_⟩, hside⟩
        rw [hside]
        cases side <;> rfl
      have hfirst := hactive hbuy
      have hsecond := hactive hsell
      generalize (signals.filter (·.side ≠ .hold)).map (·.side) = sides at hfirst hsecond ⊢
      cases sides with
      | nil => cases hfirst
      | cons first rest =>
        dsimp only
        rw [if_pos (any_ne_head hfirst hsecond (by decide))]
        simp [hcarries, hb, hs]

/-- The aggregator settles by the signals of the two sides, whatever its method. -/
theorem combine_eq_settle :
    config.combine signals = config.settle (onSide .buy signals) (onSide .sell signals) := by
  unfold combine
  cases hmethod : config.method with
  | unanimous => exact config.combineUnanimous_eq signals hmethod
  | weightedMajority =>
    have hweighs : config.weighs = true := by
      rw [weighs, hmethod]
      rfl
    have h := config.combineMajority_eq signals (by simp [hmethod])
    rwa [hweighs] at h
  | majority =>
    have hweighs : config.weighs = false := by
      rw [weighs, hmethod]
      rfl
    have h := config.combineMajority_eq signals (by simp [hmethod])
    rwa [hweighs] at h

variable {config signals}

/-- A success is that of a side that carries. -/
theorem combine_eq_ok {aggregated : AggregatorSuccess}
    (h : config.combine signals = .ok aggregated) :
    config.Carries (onSide aggregated.side signals) (onSide aggregated.side.opposite signals) ∧
    aggregated = success (onSide aggregated.side signals)
      (onSide aggregated.side.opposite signals) aggregated.side config.weighs := by
  rw [combine_eq_settle, settle] at h
  split_ifs at h with hbuy hsell
  · cases h
    exact ⟨hbuy, rfl⟩
  · cases h
    exact ⟨hsell, rfl⟩

/-! ## Order -/

end AggregationConfig

/-- The successes agree in all but the order of what they list. -/
structure AggregatorSuccess.Same (a b : AggregatorSuccess) : Prop where
  side : a.side = b.side
  confidence : a.confidence = b.confidence
  weights : ∀ id, a.weights.get? id = b.weights.get? id
  dissent : ∀ id, id ∈ a.dissent ↔ id ∈ b.dissent

/-- The outcomes are the same failure, or successes that agree in all but the order of what they
list. -/
def AggregatorOutcome.Same : AggregatorOutcome → AggregatorOutcome → Prop
  | .ok a, .ok b => a.Same b
  | .error reason, .error reason' => reason = reason'
  | _, _ => False

namespace AggregationConfig

/-- The weight recorded for a winner. -/
def recordedWeight (weighted : Bool) (s : StrategySignal) : ℚ :=
  if weighted then s.providerWeight else 1

theorem recordedWeight_nonneg {weighted : Bool} {s : StrategySignal} (h : 0 ≤ s.providerWeight) :
    0 ≤ recordedWeight weighted s := by
  unfold recordedWeight
  split
  · exact h
  · exact zero_le_one

theorem recordedWeight_pos {weighted : Bool} {s : StrategySignal} (h : 0 < s.providerWeight) :
    0 < recordedWeight weighted s := by
  unfold recordedWeight
  split
  · exact h
  · exact zero_lt_one

theorem entries_winnerWeights {winners : List StrategySignal} {weighted : Bool}
    (hids : (winners.map (·.providerId)).Nodup) : (winnerWeights winners weighted).entries =
      winners.map fun s => (s.providerId, recordedWeight weighted s) := by
  have hfold : winnerWeights winners weighted = (winners.map fun s =>
      (s.providerId, recordedWeight weighted s)).foldl (fun d e => d.set e.1 e.2) ∅ := by
    rw [List.foldl_map]
    rfl
  rw [hfold, Dict.entries_foldl_set (by simpa [Function.comp_def] using hids)]
  rfl

/-- Every recorded weight is a winner's, also where winners share a provider. -/
theorem exists_of_get?_winnerWeights {winners : List StrategySignal} {weighted : Bool} {id : String}
    {weight : ℚ} (h : (winnerWeights winners weighted).get? id = some weight) :
    ∃ s ∈ winners, s.providerId = id ∧ recordedWeight weighted s = weight := by
  have hfold (d : Dict String ℚ) (hd : (winners.foldl (fun d s =>
      d.set s.providerId (recordedWeight weighted s)) d).get? id = some weight) :
      d.get? id = some weight ∨
        ∃ s ∈ winners, s.providerId = id ∧ recordedWeight weighted s = weight := by
    clear h
    induction winners generalizing d with
    | nil => exact .inl hd
    | cons s rest ih =>
      rcases ih _ hd with hset | ⟨s', hs', heq⟩
      · rw [Dict.get?_set] at hset
        split_ifs at hset with hid
        · exact .inr ⟨s, List.mem_cons_self, hid, Option.some.inj hset⟩
        · exact .inl hset
      · exact .inr ⟨s', List.mem_cons_of_mem _ hs', heq⟩
  refine (hfold ∅ h).resolve_left ?_
  simp

theorem exists_of_mem_keys_winnerWeights {winners : List StrategySignal} {weighted : Bool}
    {id : String} (h : id ∈ (winnerWeights winners weighted).keys) :
    ∃ s ∈ winners, s.providerId = id := by
  obtain ⟨weight, hweight⟩ := Option.ne_none_iff_exists'.mp (Dict.mem_keys_iff.mp h)
  obtain ⟨s, hs, hid, _⟩ := exists_of_get?_winnerWeights hweight
  exact ⟨s, hs, hid⟩

theorem get?_winnerWeights {winners : List StrategySignal} {weighted : Bool}
    (hids : (winners.map (·.providerId)).Nodup) {id : String} {weight : ℚ} :
    (winnerWeights winners weighted).get? id = some weight ↔
      ∃ s ∈ winners, s.providerId = id ∧ recordedWeight weighted s = weight := by
  rw [← Dict.mem_entries_iff, entries_winnerWeights hids]
  simp only [List.mem_map, Prod.mk.injEq]

/-- The confidence of a success is an average of its winners'. -/
theorem confidence_success {winners losers : List StrategySignal} {side : Side} {weighted : Bool} :
    (success winners losers side weighted).confidence =
      winners.weightedMean (·.confidence) (recordedWeight weighted) := by
  cases weighted with
  | false =>
    exact List.weightedMean_one.symm
  | true =>
    have hweight : recordedWeight true = StrategySignal.providerWeight := rfl
    simp only [success, if_true, List.weightedMean, hweight]
    split_ifs with hzero
    · rfl
    · rw [not_not.mp hzero, div_zero]

theorem success_perm {winners winners' losers losers' : List StrategySignal} {side : Side}
    {weighted : Bool} (hids : (winners.map (·.providerId)).Nodup) (hw : winners.Perm winners')
    (hl : losers.Perm losers') :
    (success winners losers side weighted).Same (success winners' losers' side weighted) where
  side := rfl
  confidence := by
    rw [confidence_success, confidence_success, List.weightedMean_perm hw]
  weights id := by
    refine Option.ext fun weight => ?_
    have hids' : (winners'.map (·.providerId)).Nodup := (hw.map _).nodup_iff.mp hids
    simp only [success, get?_winnerWeights hids, get?_winnerWeights hids', hw.mem_iff]
  dissent id := (hl.map _).mem_iff

theorem carries_perm {config : AggregationConfig}
    {winners winners' losers losers' : List StrategySignal} (hw : winners.Perm winners')
    (hl : losers.Perm losers') :
    config.Carries winners losers ↔ config.Carries winners' losers' := by
  unfold Carries
  rw [hw.length_eq, hl.length_eq]
  cases config.method with
  | unanimous => exact and_congr_right' ⟨fun h => List.perm_nil.mp (h ▸ hl.symm),
      fun h => List.perm_nil.mp (h ▸ hl)⟩
  | _ => rfl

theorem failureReason_perm {buys buys' sells sells' : List StrategySignal} (hb : buys.Perm buys')
    (hs : sells.Perm sells') : failureReason buys sells = failureReason buys' sells' := by
  have hnil {l l' : List StrategySignal} (h : l.Perm l') : l = [] ↔ l' = [] :=
    ⟨fun hl => List.perm_nil.mp (hl ▸ h.symm), fun hl => List.perm_nil.mp (hl ▸ h)⟩
  simp only [failureReason, hnil hb, hnil hs]

theorem nodup_onSide {side : Side} {signals : List StrategySignal}
    (hids : (signals.map (·.providerId)).Nodup) :
    ((onSide side signals).map (·.providerId)).Nodup :=
  (List.filter_sublist.map _).nodup hids

theorem combine_perm {config : AggregationConfig} {signals signals' : List StrategySignal}
    (hids : (signals.map (·.providerId)).Nodup) (h : signals.Perm signals') :
    AggregatorOutcome.Same (config.combine signals) (config.combine signals') := by
  have hside (side : Side) : (onSide side signals).Perm (onSide side signals') := h.filter _
  rw [combine_eq_settle, combine_eq_settle, settle, settle]
  simp only [carries_perm (hside .buy) (hside .sell), carries_perm (hside .sell) (hside .buy)]
  split_ifs
  · exact success_perm (nodup_onSide hids) (hside .buy) (hside .sell)
  · exact success_perm (nodup_onSide hids) (hside .sell) (hside .buy)
  · exact failureReason_perm (hside .buy) (hside .sell)

/-! ## Exchanging the sides -/

end AggregationConfig

/-- `BUY` and `SELL` exchanged. -/
def SignalSide.opposite : SignalSide → SignalSide
  | .buy => .sell
  | .sell => .buy
  | .hold => .hold

theorem SignalSide.opposite_eq_iff {s : SignalSide} {side : Side} :
    s.opposite = side.toSignalSide ↔ s = side.opposite.toSignalSide := by
  cases s <;> cases side <;> decide

/-- The signal with `BUY` and `SELL` exchanged. -/
def StrategySignal.opposite (s : StrategySignal) : StrategySignal :=
  { s with side := s.side.opposite }

/-- The success with its side exchanged. -/
def AggregatorSuccess.opposite (a : AggregatorSuccess) : AggregatorSuccess :=
  { a with side := a.side.opposite }

namespace AggregationConfig

variable {config : AggregationConfig} {winners losers signals : List StrategySignal} {side : Side}
  {weighted : Bool}

theorem onSide_map_opposite :
    onSide side (signals.map StrategySignal.opposite) =
      (onSide side.opposite signals).map StrategySignal.opposite := by
  rw [onSide, onSide, List.filter_map]
  congr 1
  exact List.filter_congr fun s _ => decide_eq_decide.mpr SignalSide.opposite_eq_iff

theorem winnerWeights_map_opposite :
    winnerWeights (winners.map StrategySignal.opposite) weighted =
      winnerWeights winners weighted := by
  rw [winnerWeights, List.foldl_map]
  rfl

theorem success_map_opposite :
    success (winners.map StrategySignal.opposite) (losers.map StrategySignal.opposite) side.opposite
      weighted = (success winners losers side weighted).opposite := by
  simp only [success, AggregatorSuccess.opposite, winnerWeights_map_opposite, List.map_map,
    List.length_map]
  rfl

theorem carries_map_opposite : config.Carries (winners.map StrategySignal.opposite)
    (losers.map StrategySignal.opposite) ↔ config.Carries winners losers := by
  unfold Carries
  simp only [List.length_map, List.map_eq_nil_iff]

theorem combine_map_opposite : config.combine (signals.map StrategySignal.opposite) =
    (config.combine signals).map AggregatorSuccess.opposite := by
  rw [combine_eq_settle, combine_eq_settle]
  simp only [onSide_map_opposite, Side.opposite, settle, carries_map_opposite]
  by_cases hbuy : config.Carries (onSide .buy signals) (onSide .sell signals)
  · have hsell : ¬ config.Carries (onSide .sell signals) (onSide .buy signals) := fun h =>
      absurd h.outnumbers (not_lt_of_gt hbuy.outnumbers)
    simp only [if_neg hsell, if_pos hbuy]
    exact congrArg Except.ok (@success_map_opposite _ _ .buy _)
  · by_cases hsell : config.Carries (onSide .sell signals) (onSide .buy signals)
    · simp only [if_neg hbuy, if_pos hsell]
      exact congrArg Except.ok (@success_map_opposite _ _ .sell _)
    · simp only [if_neg hbuy, if_neg hsell, failureReason, List.map_eq_nil_iff]
      simp only [and_comm, or_comm, Except.map]

/-! ## Successes -/

/-- The confidence is between those of the least and of the most confident winner. -/
theorem confidence_between {aggregated : AggregatorSuccess}
    (h : config.combine signals = .ok aggregated)
    (hweights : ∀ s ∈ signals, 0 ≤ s.providerWeight)
    (hpos : ∃ s ∈ onSide aggregated.side signals, 0 < s.providerWeight) :
    ∃ least ∈ onSide aggregated.side signals, ∃ greatest ∈ onSide aggregated.side signals,
      (∀ s ∈ onSide aggregated.side signals,
        least.confidence ≤ s.confidence ∧ s.confidence ≤ greatest.confidence) ∧
      least.confidence ≤ aggregated.confidence ∧
      aggregated.confidence ≤ greatest.confidence := by
  obtain ⟨hcarries, heq⟩ := combine_eq_ok h
  have hconf : aggregated.confidence = (onSide aggregated.side signals).weightedMean
      (·.confidence) (recordedWeight config.weighs) :=
    (congrArg (·.confidence) heq).trans confidence_success
  have hnonneg : ∀ s ∈ onSide aggregated.side signals, 0 ≤ recordedWeight config.weighs s :=
    fun s hs => recordedWeight_nonneg (hweights s (mem_onSide.mp hs).1)
  have hsum : 0 < ((onSide aggregated.side signals).map (recordedWeight config.weighs)).sum := by
    obtain ⟨s, hs, hweight⟩ := hpos
    exact List.sum_weight_pos hnonneg ⟨s, hs, recordedWeight_pos hweight⟩
  have hne : (onSide aggregated.side signals).toFinset.Nonempty :=
    List.toFinset_nonempty_iff _ |>.mpr hcarries.not_nil
  obtain ⟨least, hleast, hmin⟩ := Finset.exists_min_image _ (·.confidence) hne
  obtain ⟨greatest, hgreatest, hmax⟩ := Finset.exists_max_image _ (·.confidence) hne
  simp only [List.mem_toFinset] at hleast hmin hgreatest hmax
  refine ⟨least, hleast, greatest, hgreatest, fun s hs => ⟨hmin s hs, hmax s hs⟩, ?_, ?_⟩
  · rw [hconf]
    exact List.le_weightedMean hnonneg hsum hmin
  · rw [hconf]
    exact List.weightedMean_le hnonneg hsum hmax

/-- With distinct providers and nonnegative weights the outcome does not depend on the order of the
signals, exchanging `BUY` and `SELL` exchanges the side and nothing else, and the winners of a
success are enough, outnumber the losers and bound the confidence. -/
theorem combine_symmetric (config : AggregationConfig) (signals : List StrategySignal)
    (hids : (signals.map (·.providerId)).Nodup) (hweights : ∀ s ∈ signals, 0 ≤ s.providerWeight) :
    (∀ signals', signals.Perm signals' →
      AggregatorOutcome.Same (config.combine signals) (config.combine signals')) ∧
    config.combine (signals.map StrategySignal.opposite) =
      (config.combine signals).map AggregatorSuccess.opposite ∧
    ∀ aggregated, config.combine signals = .ok aggregated →
      let winners := onSide aggregated.side signals
      let losers := onSide aggregated.side.opposite signals
      config.minAgreeingProviders ≤ winners.length ∧ losers.length < winners.length ∧
      ((∃ s ∈ winners, 0 < s.providerWeight) →
        ∃ least ∈ winners, ∃ greatest ∈ winners,
          (∀ s ∈ winners,
            least.confidence ≤ s.confidence ∧ s.confidence ≤ greatest.confidence) ∧
          least.confidence ≤ aggregated.confidence ∧
          aggregated.confidence ≤ greatest.confidence) := by
  refine ⟨fun signals' h => combine_perm hids h, combine_map_opposite, fun aggregated h => ?_⟩
  obtain ⟨hcarries, _⟩ := combine_eq_ok h
  exact ⟨hcarries.1, hcarries.outnumbers, confidence_between h hweights⟩

/-- A signal of full confidence. -/
def opinion (providerId : String) (side : SignalSide) : StrategySignal where
  providerId := providerId
  symbol := "BTC"
  side := side
  confidence := 1
  confidence_mem := one_mem_unit
  rationale := { summary := "", metadata := [("weight", 2)] }
  stopLoss := none
  takeProfit := none
  timeframe := "1h"
  eventTime := 0

theorem combine_symmetric_split :
    let config : AggregationConfig := { minAgreeingProviders := 2 }
    let signals := [opinion "macd_momentum" .buy, opinion "rsi_divergence" .sell,
      opinion "ema_crossover" .buy]
    AggregatorOutcome.Same (config.combine signals) (config.combine signals.reverse) ∧
    config.combine (signals.map StrategySignal.opposite) =
      (config.combine signals).map AggregatorSuccess.opposite :=
  have h := combine_symmetric { minAgreeingProviders := 2 }
    [opinion "macd_momentum" .buy, opinion "rsi_divergence" .sell, opinion "ema_crossover" .buy]
    (by decide) (by decide +kernel)
  ⟨h.1 _ (List.reverse_perm _).symm, h.2.1⟩

end AggregationConfig

end TradingPlatform
