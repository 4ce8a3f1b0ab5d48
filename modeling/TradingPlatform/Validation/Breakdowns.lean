import TradingPlatform.Features.ContextDeriver
import TradingPlatform.Lib.Grouping
import TradingPlatform.Validation.Drawdowns
import TradingPlatform.Validation.LoggedCurves
import TradingPlatform.Validation.Score

/-!
# The breakdowns of a run

The closed trades of the log by exit reason, session and side, by the regime and the confidence at
entry, and by month. A missing entry goes to a group of its own, so that no trade is lost.
-/

namespace TradingPlatform

namespace Logged

/-- The closed trades. -/
def closedTrades (events : List LoggedEvent) : List LoggedEvent :=
  eventsOfType .positionClosed events

/-- The closed trades in the order of their times. -/
def closedByTime (events : List LoggedEvent) : List LoggedEvent :=
  (closedTrades events).insertionSort fun a b => a.eventTime ≤ b.eventTime

/-! ## By reason, session and side -/

structure Diagnostics where
  byExitReason : Dict String BucketStats
  bySession : Dict String BucketStats
  bySide : Dict String BucketStats
  deriving DecidableEq

/-- `_derive_session_utc` -/
def deriveSessionUtc (eventTime : ℤ) : String := (sessionOfHour (hourOf eventTime)).literal

/-- The buckets of the closed trades under a key. -/
def bucketsBy (key : LoggedEvent → String) (closed : List LoggedEvent) : Dict String BucketStats :=
  (Dict.grouped key (·.pnl) closed).map bucketStats

/-- `compute_diagnostics` -/
def computeDiagnostics (events : List LoggedEvent) : Diagnostics :=
  let closed := closedTrades events
  { byExitReason := bucketsBy (fun e => orText e.payload.exitReason "unknown") closed
    bySession := bucketsBy (fun e => deriveSessionUtc e.eventTime) closed
    bySide := bucketsBy (fun e => orText e.payload.side "unknown") closed }

/-! ## By regime and confidence -/

/-- `_entry_correlation_by_position` -/
def entryCorrelationByPosition (events : List LoggedEvent) : Dict String CorrelationId :=
  events.foldl (fun mapping e =>
    if e.eventType = .positionOpened ∧ given e.payload.positionId then
      mapping.set (e.payload.positionId.getD "") e.correlationId
    else mapping) ∅

def contextByCorrelation (events : List LoggedEvent) : Dict CorrelationId LoggedPayload :=
  events.foldl (fun contexts e =>
    if e.eventType = .marketContextDerived then contexts.set e.correlationId e.payload
    else contexts) ∅

def confidenceByCorrelation (events : List LoggedEvent) : Dict CorrelationId ℚ :=
  events.foldl (fun confidences e =>
    if e.eventType = .decisionMade then
      match e.payload.confidence with
      | some confidence => confidences.set e.correlationId confidence
      | none => confidences
    else confidences) ∅

/-- `classify_regime` -/
def classifyRegime (context : LoggedPayload) : String :=
  orText context.trend "UNKNOWN" ++ "_" ++ orText context.volatility "UNKNOWN"

/-- The cycle a closed trade is attributed to, if there is one with a market context. -/
def entryCycle (events : List LoggedEvent) (closed : LoggedEvent) :
    Option (CorrelationId × LoggedPayload) := do
  let correlationId ← if given closed.payload.positionId then
    (entryCorrelationByPosition events).get? (closed.payload.positionId.getD "") else none
  let context ← if correlationId.truthy then (contextByCorrelation events).get? correlationId
    else none
  return (correlationId, context)

/-- One closed trade of the loop. -/
def breakdownStep (events : List LoggedEvent) (b : BreakdownLoop) (closed : LoggedEvent) :
    BreakdownLoop :=
  match entryCycle events closed with
  | none => { b with unattributed := b.unattributed + 1 }
  | some (correlationId, context) =>
    let b := { b with regimeBuckets := b.regimeBuckets.add (classifyRegime context) closed.pnl }
    match (confidenceByCorrelation events).get? correlationId with
    | none => b
    | some confidence => { b with
        confidenceBuckets := b.confidenceBuckets.add (confidenceBand confidence) closed.pnl }

/-- `compute_regime_breakdown` -/
def computeRegimeBreakdown (events : List LoggedEvent) : RegimeBreakdown :=
  let closed := closedTrades events
  if closed = [] then {}
  else
    let b := closed.foldl (breakdownStep events) {}
    { byRegime := b.regimeBuckets.map bucketStats
      byConfidenceBand := b.confidenceBuckets.map bucketStats
      unattributedTrades := b.unattributed }

/-! ## By month -/

structure MonthlyRow where
  month : ℤ
  trades : ℕ
  winRate : ℚ
  pnl : ℚ
  returnPct : ℚ
  maxDrawdownPct : ℚ
  startEquity : ℚ
  endEquity : ℚ
  deriving DecidableEq, Repr

/-- The row of a month that begins with `monthStartEquity`. -/
def monthlyRow (month : ℤ) (monthStartEquity : ℚ) (pnls : List ℚ) : MonthlyRow :=
  let monthEquityCurve := closedTradeCurve monthStartEquity pnls
  let equity := monthEquityCurve.getLastD monthStartEquity
  { month
    trades := pnls.length
    winRate := if pnls = [] then 0 else (pnls.countP (0 < ·) : ℚ) / pnls.length
    pnl := pnls.sum
    returnPct := if 0 < monthStartEquity then
      (equity - monthStartEquity) / monthStartEquity * 100 else 0
    maxDrawdownPct := monthDrawdown monthStartEquity monthEquityCurve
    startEquity := monthStartEquity
    endEquity := equity }

/-- The rows of the months, each beginning with the equity the one before has ended with. -/
def monthlyRows (equity : ℚ) : List (ℤ × List ℚ) → List MonthlyRow
  | [] => []
  | (month, pnls) :: rest =>
    let row := monthlyRow month equity pnls
    row :: monthlyRows row.endEquity rest

/-- `compute_monthly_breakdown` -/
def computeMonthlyBreakdown (events : List LoggedEvent) (initialCapital : ℚ) : List MonthlyRow :=
  let closed := closedByTime events
  if closed = [] then []
  else
    let byMonth := Dict.grouped (fun e => monthOf e.eventTime) (·.pnl) closed
    let months := byMonth.keys.insertionSort (· ≤ ·)
    monthlyRows initialCapital (months.map fun month => (month, byMonth.getD month []))

/-! ## Nothing is lost -/

/-- The gross profit adds up the positive parts. -/
theorem grossProfit_eq (pnls : List ℚ) :
    (bucketStats pnls).grossProfit = (pnls.map (max · 0)).sum := by
  change (pnls.filter (0 < ·)).sum = _
  induction pnls with
  | nil => rfl
  | cons pnl pnls ih =>
    rw [List.map_cons, List.sum_cons, List.filter_cons, ← ih]
    split
    · next h => rw [List.sum_cons, max_eq_left (of_decide_eq_true h).le]
    · next h => rw [max_eq_right (not_lt.mp fun h' => h (decide_eq_true h')), zero_add]

theorem sum_losses_eq (pnls : List ℚ) :
    (pnls.filter (· ≤ 0)).sum = -(pnls.map fun pnl => max (-pnl) 0).sum := by
  induction pnls with
  | nil => rfl
  | cons pnl pnls ih =>
    rw [List.map_cons, List.sum_cons, List.filter_cons, neg_add, ← ih]
    split
    · next h =>
      rw [List.sum_cons, max_eq_left (neg_nonneg.mpr (of_decide_eq_true h)), neg_neg]
    · next h =>
      have hpos : 0 < pnl := not_le.mp fun h' => h (decide_eq_true h')
      rw [max_eq_right (neg_neg_of_pos hpos).le, neg_zero, zero_add]

/-- The gross loss adds up the negative parts. -/
theorem grossLoss_eq (pnls : List ℚ) :
    (bucketStats pnls).grossLoss = (pnls.map fun pnl => max (-pnl) 0).sum := by
  change |(pnls.filter (· ≤ 0)).sum| = _
  rw [sum_losses_eq, abs_neg, abs_of_nonneg]
  refine List.sum_nonneg fun x hx => ?_
  obtain ⟨pnl, -, rfl⟩ := List.mem_map.mp hx
  exact le_max_right _ _

/-- Buckets that share out trades with the given sums. -/
structure Conserves (buckets : Dict String BucketStats) (trades : ℕ)
    (pnl grossProfit grossLoss : ℚ) : Prop where
  trades : (buckets.values.map (·.trades)).sum = trades
  pnl : (buckets.values.map (·.pnl)).sum = pnl
  grossProfit : (buckets.values.map (·.grossProfit)).sum = grossProfit
  grossLoss : (buckets.values.map (·.grossLoss)).sum = grossLoss

/-- An entry of the buckets that adds something up over their trades adds it up over all trades. -/
theorem sum_bucketsBy {M : Type*} [AddCommMonoid M] {entry : BucketStats → M} {weight : ℚ → M}
    (hentry : ∀ pnls, entry (bucketStats pnls) = (pnls.map weight).sum)
    (key : LoggedEvent → String) (closed : List LoggedEvent) :
    ((bucketsBy key closed).values.map entry).sum = entry (bucketStats (closed.map (·.pnl))) := by
  have hvalues : (bucketsBy key closed).values.map entry =
      (Dict.grouped key (·.pnl) closed).values.map fun pnls => (pnls.map weight).sum := by
    simp [bucketsBy, Dict.values, Dict.map, Function.comp_def, hentry]
  rw [hvalues, Dict.sum_values_grouped, hentry]

theorem trades_eq (pnls : List ℚ) : (bucketStats pnls).trades = (pnls.map fun _ => 1).sum := by
  simp [bucketStats]

theorem conserves_bucketsBy (key : LoggedEvent → String) (closed : List LoggedEvent) :
    Conserves (bucketsBy key closed) (closed.map (·.pnl)).length (closed.map (·.pnl)).sum
      (bucketStats (closed.map (·.pnl))).grossProfit
      (bucketStats (closed.map (·.pnl))).grossLoss where
  trades := sum_bucketsBy trades_eq key closed
  pnl := sum_bucketsBy (fun pnls => (congrArg List.sum (List.map_id pnls)).symm) key closed
  grossProfit := sum_bucketsBy grossProfit_eq key closed
  grossLoss := sum_bucketsBy grossLoss_eq key closed

/-- A closed trade is counted once, in a regime or as unattributed. -/
theorem counted_breakdownStep (events : List LoggedEvent) (b : BreakdownLoop)
    (closed : LoggedEvent) : (breakdownStep events b closed).counted = b.counted + 1 := by
  unfold breakdownStep
  cases entryCycle events closed with
  | none => rfl
  | some cycle =>
    dsimp only
    split
    · exact b.counted_add _ _
    · exact b.counted_add _ _

/-- The breakdown counts every closed trade once. -/
theorem trades_computeRegimeBreakdown (events : List LoggedEvent) :
    tradesIn (computeRegimeBreakdown events).byRegime +
      (computeRegimeBreakdown events).unattributedTrades = (closedTrades events).length := by
  unfold computeRegimeBreakdown
  dsimp only
  split
  · next hnone =>
    rw [hnone]
    rfl
  · refine (BreakdownLoop.counted_foldl (counted_breakdownStep events) _ {}).trans ?_
    exact Nat.zero_add _

/-! ## The months -/

/-- The rows of the months, where each begins with what the one before has ended with. -/
structure Chained (initialCapital : ℚ) (rows : List MonthlyRow) : Prop where
  first : ∀ row ∈ rows.head?, row.startEquity = initialCapital
  next : rows.IsChain fun a b => b.startEquity = a.endEquity

theorem endEquity_monthlyRow (month : ℤ) (start : ℚ) (pnls : List ℚ) :
    (monthlyRow month start pnls).endEquity = start + pnls.sum := by
  change (closedTradeCurve start pnls).getLastD start = _
  rw [List.getLastD_eq_getLast?, getLast?_closedTradeCurve, Option.getD_some]

theorem chained_monthlyRows (equity : ℚ) (months : List (ℤ × List ℚ)) :
    Chained equity (monthlyRows equity months) := by
  induction months generalizing equity with
  | nil => exact ⟨by simp [monthlyRows], List.IsChain.nil⟩
  | cons month rest ih =>
    obtain ⟨hfirst, hnext⟩ := ih (monthlyRow month.1 equity month.2).endEquity
    refine ⟨fun row hrow => ?_, ?_⟩
    · cases hrow
      rfl
    · exact List.isChain_cons.mpr ⟨fun row hrow => hfirst row hrow, hnext⟩

theorem pnl_monthlyRows (equity : ℚ) (months : List (ℤ × List ℚ)) :
    (monthlyRows equity months).map (·.pnl) = months.map fun month => month.2.sum := by
  induction months generalizing equity with
  | nil => rfl
  | cons month rest ih =>
    rw [monthlyRows, List.map_cons, List.map_cons, ih]
    rfl

theorem getLast?_monthlyRows (equity : ℚ) (months : List (ℤ × List ℚ)) :
    ∀ row ∈ (monthlyRows equity months).getLast?,
      row.endEquity = equity + (months.map fun month => month.2.sum).sum := by
  induction months generalizing equity with
  | nil => simp [monthlyRows]
  | cons month rest ih =>
    intro row hrow
    have hstep := endEquity_monthlyRow month.1 equity month.2
    rw [monthlyRows, List.getLast?_cons] at hrow
    rw [List.map_cons, List.sum_cons, ← add_assoc, ← hstep]
    cases hrest : (monthlyRows (monthlyRow month.1 equity month.2).endEquity rest).getLast? with
    | none =>
      rw [hrest] at hrow
      cases hrow
      have hrows : rest = [] := by
        cases rest with
        | nil => rfl
        | cons m rest => simp [monthlyRows] at hrest
      rw [hrows, List.map_nil, List.sum_nil, add_zero]
      rfl
    | some last =>
      rw [hrest] at hrow
      cases hrow
      exact ih _ last hrest

theorem closedByTime_perm (events : List LoggedEvent) :
    (closedByTime events).Perm (closedTrades events) :=
  List.perm_insertionSort _ _

/-- The months share out the results of the closed trades. -/
theorem sum_months (events : List LoggedEvent) :
    let byMonth := Dict.grouped (fun e => monthOf e.eventTime) (·.pnl) (closedByTime events)
    (((byMonth.keys.insertionSort (· ≤ ·)).map fun month => (month, byMonth.getD month [])).map
      fun month => month.2.sum).sum = ((closedTrades events).map (·.pnl)).sum := by
  intro byMonth
  have hgroups : (byMonth.keys.map fun month => (byMonth.getD month []).sum) =
      byMonth.values.map fun pnls => (pnls.map id).sum := by
    rw [← Dict.map_getD_keys (v := []), List.map_map]
    exact List.map_congr_left fun month _ => (congrArg List.sum (List.map_id _)).symm
  rw [List.map_map]
  calc ((byMonth.keys.insertionSort (· ≤ ·)).map _).sum
    _ = (byMonth.keys.map fun month => (byMonth.getD month []).sum).sum :=
      ((List.perm_insertionSort _ _).map _).sum_eq
    _ = ((closedByTime events).map (·.pnl)).sum := by
      rw [hgroups, Dict.sum_values_grouped, List.map_id]
    _ = ((closedTrades events).map (·.pnl)).sum := ((closedByTime_perm events).map _).sum_eq

section

variable (events : List LoggedEvent) (initialCapital : ℚ)

theorem computeMonthlyBreakdown_eq : ∃ months : List (ℤ × List ℚ),
    computeMonthlyBreakdown events initialCapital = monthlyRows initialCapital months ∧
      (months.map fun month => month.2.sum).sum = ((closedTrades events).map (·.pnl)).sum := by
  unfold computeMonthlyBreakdown
  dsimp only
  split
  · next hnone =>
    have hclosed := (closedByTime_perm events).symm
    rw [hnone, List.perm_nil] at hclosed
    exact ⟨[], rfl, by rw [hclosed, List.map_nil, List.map_nil]⟩
  · exact ⟨_, rfl, sum_months events⟩

theorem chained_computeMonthlyBreakdown :
    Chained initialCapital (computeMonthlyBreakdown events initialCapital) := by
  obtain ⟨months, hrows, -⟩ := computeMonthlyBreakdown_eq events initialCapital
  exact hrows ▸ chained_monthlyRows initialCapital months

theorem sum_computeMonthlyBreakdown :
    ((computeMonthlyBreakdown events initialCapital).map (·.pnl)).sum =
      ((closedTrades events).map (·.pnl)).sum := by
  obtain ⟨months, hrows, hsum⟩ := computeMonthlyBreakdown_eq events initialCapital
  rw [hrows, pnl_monthlyRows, hsum]

/-- The last month ends with the equity after all closed trades. -/
theorem getLast?_computeMonthlyBreakdown :
    ∀ row ∈ (computeMonthlyBreakdown events initialCapital).getLast?,
      (closedTradeCurve initialCapital ((closedTrades events).map (·.pnl))).getLast? =
        some row.endEquity := by
  obtain ⟨months, hrows, hsum⟩ := computeMonthlyBreakdown_eq events initialCapital
  intro row hrow
  rw [hrows] at hrow
  rw [getLast?_closedTradeCurve, getLast?_monthlyRows initialCapital months row hrow, hsum]

end

/-! ## The regimes of a run -/

/-- The payload of a market context as the log keeps it. -/
def contextPayload (context : MarketContext) : LoggedPayload :=
  (Payload.marketContextDerived context).logged

theorem given_idText (u : ℕ) : given (some (idText u)) = true :=
  decide_eq_true (idText_ne_empty u)

theorem classifyRegime_contextPayload (context : MarketContext) :
    classifyRegime (contextPayload context) = TradingPlatform.classifyRegime context := by
  have htrend : orText (some context.trend.literal) "UNKNOWN" = context.trend.literal := by
    cases context.trend <;> rfl
  have hvolatility : orText (some context.volatility.literal) "UNKNOWN" =
      context.volatility.literal := by
    cases context.volatility <;> rfl
  rw [TradingPlatform.classifyRegime, ← htrend, ← hvolatility]
  rfl

section

variable (events : List EventEnvelope)

theorem entryCorrelationByPosition_logged :
    entryCorrelationByPosition (events.map EventEnvelope.logged) =
      (TradingPlatform.entryCorrelationByPosition events).rekey idText idText_injective := by
  have hempty : (∅ : Dict String CorrelationId) =
      (∅ : Dict ℕ CorrelationId).rekey idText idText_injective := rfl
  rw [entryCorrelationByPosition, List.foldl_map, hempty]
  refine List.foldl_hom (Dict.rekey idText idText_injective) fun mapping e => ?_
  obtain ⟨_, _, _, _, _, _, _, _, _, _, payload⟩ := e
  cases payload with
  | positionOpened positionId _ _ =>
    rw [Dict.rekey_set]
    exact if_pos ⟨rfl, given_idText positionId⟩
  | _ => rfl

theorem contextByCorrelation_logged :
    contextByCorrelation (events.map EventEnvelope.logged) =
      (TradingPlatform.contextByCorrelation events).map contextPayload := by
  rw [contextByCorrelation, List.foldl_map, ← Dict.map_empty (f := contextPayload)]
  refine List.foldl_hom (Dict.map contextPayload) fun contexts e => ?_
  obtain ⟨_, _, _, _, _, _, _, _, _, _, payload⟩ := e
  cases payload with
  | marketContextDerived context =>
    rw [Dict.map_set]
    rfl
  | _ => rfl

theorem confidenceByCorrelation_logged :
    confidenceByCorrelation (events.map EventEnvelope.logged) =
      TradingPlatform.confidenceByCorrelation events := by
  rw [confidenceByCorrelation, List.foldl_map]
  refine List.foldl_hom id fun confidences e => ?_
  obtain ⟨_, _, _, _, _, _, _, _, _, _, payload⟩ := e
  cases payload <;> rfl

/-- A closed trade of the log is attributed to the cycle the run attributes it to. -/
theorem entryCycle_logged (e : EventEnvelope) (closed : ClosedPayload)
    (h : e.payload = .positionClosed closed) :
    entryCycle (events.map EventEnvelope.logged) e.logged =
      (TradingPlatform.entryCycle events closed).map (Prod.map id contextPayload) := by
  have hid : e.logged.payload.positionId = some (idText closed.positionId) := by
    rw [EventEnvelope.logged, h]
    rfl
  rw [entryCycle, TradingPlatform.entryCycle, hid, if_pos (given_idText _), Option.getD_some,
    entryCorrelationByPosition_logged, Dict.get?_rekey, contextByCorrelation_logged]
  cases (TradingPlatform.entryCorrelationByPosition events).get? closed.positionId with
  | none => rfl
  | some correlationId =>
    simp only [Option.bind_eq_bind, Option.bind_some, Dict.get?_map]
    cases correlationId.truthy with
    | false => rfl
    | true =>
      cases (TradingPlatform.contextByCorrelation events).get? correlationId <;> rfl

theorem breakdownStep_logged (b : BreakdownLoop) (e : EventEnvelope) (closed : ClosedPayload)
    (h : e.payload = .positionClosed closed) :
    breakdownStep (events.map EventEnvelope.logged) b e.logged = b.step events closed := by
  have hpnl : e.logged.pnl = closed.pnl := by
    rw [EventEnvelope.logged, h]
    rfl
  rw [breakdownStep, BreakdownLoop.step, entryCycle_logged events e closed h,
    confidenceByCorrelation_logged, hpnl]
  cases TradingPlatform.entryCycle events closed with
  | none => rfl
  | some cycle =>
    dsimp only [Option.map_some, Prod.map, id_eq]
    cases (TradingPlatform.confidenceByCorrelation events).get? cycle.1 <;>
      simp only [classifyRegime_contextPayload]

/-- The closed trades of the log are those of the run. -/
theorem closedTrades_logged : List.Forall₂ (fun logged closed => ∃ e : EventEnvelope,
      logged = e.logged ∧ e.payload = .positionClosed closed)
    (closedTrades (events.map EventEnvelope.logged)) (closedPayloads events) := by
  induction events with
  | nil => exact .nil
  | cons e events ih =>
    have htype : e.logged.eventType = e.payload.eventType := rfl
    rw [List.map_cons, closedTrades, eventsOfType, List.filter_cons, closedPayloads,
      List.filterMap_cons, htype]
    cases hpay : e.payload with
    | positionClosed closed => exact .cons ⟨e, rfl, hpay⟩ ih
    | _ => exact ih

/-- The loop over the closed trades of the log is the one over the closed trades of the run. -/
theorem foldl_breakdownStep_logged {trades : List LoggedEvent} {closed : List ClosedPayload}
    (h : List.Forall₂ (fun logged closed => ∃ e : EventEnvelope,
      logged = e.logged ∧ e.payload = .positionClosed closed) trades closed) (b : BreakdownLoop) :
    trades.foldl (breakdownStep (events.map EventEnvelope.logged)) b =
      closed.foldl (BreakdownLoop.step events) b := by
  induction h generalizing b with
  | nil => rfl
  | cons hfirst _ ih =>
    obtain ⟨e, rfl, hpay⟩ := hfirst
    rw [List.foldl_cons, List.foldl_cons, breakdownStep_logged events b e _ hpay, ih]

/-- On the log of a run the breakdown is the one of its events. -/
theorem computeRegimeBreakdown_logged :
    computeRegimeBreakdown (events.map EventEnvelope.logged) =
      TradingPlatform.computeRegimeBreakdown events := by
  have hclosed := closedTrades_logged events
  have hnil : closedTrades (events.map EventEnvelope.logged) = [] ↔ closedPayloads events = [] := by
    rw [← List.length_eq_zero_iff, hclosed.length_eq, List.length_eq_zero_iff]
  have hloop := foldl_breakdownStep_logged events hclosed {}
  unfold computeRegimeBreakdown TradingPlatform.computeRegimeBreakdown
  simp only [hloop, hnil]

end

end Logged

end TradingPlatform
