import TradingPlatform.Validation.Job

/-!
# The cycle a closed trade is attributed to

The events of a run tell which cycle decided a trade: the position names the fill that opened it,
the fill its order, and the order was submitted in the cycle that decided on it. The breakdown of a
run looks up the cycle that opened the position instead, and reads the confidence from a payload
that has none, so it attributes no trade to a band.
-/

namespace TradingPlatform

variable {events : List EventEnvelope} {closed : ClosedPayload}

/-! ## What the events tell -/

/-- The cycle `cycle` decided on the trade, in the market context and with the final signal given:
its order was filled, and the fill opened the position. -/
structure DecidedIn (events : List EventEnvelope) (closed : ClosedPayload) (cycle : CorrelationId)
    (context : MarketContext) (signal : FinalSignal) : Prop where
  opened : ∃ e ∈ events, ∃ fill position,
    e.payload = .positionOpened closed.positionId fill position ∧
    ∃ e' ∈ events, ∃ filled model, e'.payload = .fillReceived filled model false ∧
      filled.fillId = fill ∧
    ∃ e'' ∈ events, ∃ order decisionId, e''.payload = .orderSubmitted order decisionId ∧
      order.orderId = filled.orderId ∧ e''.correlationId = cycle ∧
    ∃ a ∈ events, ∃ snapshotId, a.payload = .decisionApproved decisionId snapshotId (some signal) ∧
      a.correlationId = cycle
  derived : ∃ e ∈ events, e.payload = .marketContextDerived context ∧ e.correlationId = cycle

/-- The regime and the confidence band that `compute_regime_breakdown` attributes a trade to. -/
def attribution (events : List EventEnvelope) (closed : ClosedPayload) :
    Option (String × Option String) :=
  (entryCycle events closed).map fun (correlationId, context) =>
    (classifyRegime context,
      ((confidenceByCorrelation events).get? correlationId).map confidenceBand)

/-- Every closed trade is attributed to the regime and the band of the cycle that decided on it, and
the bands count as many trades as the regimes. -/
def Attributes (events : List EventEnvelope) : Prop :=
  (∀ closed ∈ closedPayloads events, ∃ cycle context signal,
    DecidedIn events closed cycle context signal ∧
      attribution events closed =
        some (classifyRegime context, some (confidenceBand signal.confidence))) ∧
  tradesIn (computeRegimeBreakdown events).byConfidenceBand =
    tradesIn (computeRegimeBreakdown events).byRegime

/-! ## What the breakdown reads -/

/-- No decision event has a confidence. -/
theorem confidenceByCorrelation_eq_empty : confidenceByCorrelation events = ∅ := by
  refine List.foldlRecOn (motive := (· = ∅)) events _ rfl fun confidences hempty e _ => ?_
  cases hpay : e.payload <;> exact hempty

/-- No trade is attributed to a band. -/
theorem attribution_band {regime : String} {band : Option String}
    (h : attribution events closed = some (regime, band)) : band = none := by
  obtain ⟨cycle, _, heq⟩ := Option.map_eq_some_iff.mp h
  rw [confidenceByCorrelation_eq_empty] at heq
  exact (congrArg Prod.snd heq).symm

theorem breakdown_of_no_trade (h : closedPayloads events = []) :
    computeRegimeBreakdown events = {} := by
  unfold computeRegimeBreakdown
  rw [h]
  rfl

/-- The trades of a log are attributed to the cycles that decided on them exactly when there are
none. -/
theorem attributes_iff : Attributes events ↔ closedPayloads events = [] := by
  constructor
  · rintro ⟨hattributed, -⟩
    refine List.eq_nil_iff_forall_not_mem.mpr fun closed hclosed => ?_
    obtain ⟨_, _, _, _, hband⟩ := hattributed closed hclosed
    cases attribution_band hband
  · intro hnone
    refine ⟨fun closed hclosed => ?_, ?_⟩
    · rw [hnone] at hclosed
      cases hclosed
    · rw [breakdown_of_no_trade hnone]

/-! ## A trade filled in the next cycle -/

/-- Collaborators of a market that turns after the first bar, whose provider buys before it. -/
def Collaborators.turning (i : ℕ) : Collaborators :=
  let serving := Collaborators.serving (.flat 0 100) (if i = 0 then .buy else .hold)
  { serving with
    build := fun df symbol timeframe processingTime =>
      (serving.build df symbol timeframe processingTime).map fun (featureSet, context) =>
        (featureSet, { context with trend := if i = 0 then .up else .down }) }

/-- A job that keeps its events, in an uptrend that turns after the bar the trade is decided on. -/
def turningJob : ValidationJob where
  symbol := "BTC/USDT"
  timeframe := "1d"
  startDate := 0
  source := .csv
  persistDb := false
  retainEvents := some true
  engineConfig := .solo
  executionConfig := .tenth
  collaborators := .turning

/-- The attributions of the closed trades of a job. -/
def attributions : Except PyError (JobResult × PlatformRuntime) →
    List (Option (String × Option String))
  | .ok (result, _) => (closedPayloads result.events).map (attribution result.events)
  | .error _ => []

/-- The entry is filled at the open of the second bar, and the trade is attributed to the downtrend
of that bar and to no band. -/
theorem attributions_turningJob : attributions (turningJob.run (.flat .nextOpen 3)) =
    [some ("DOWN_NORMAL", none)] := by decide +kernel

theorem not_attributes_turningJob : ∃ result rt,
    turningJob.run (.flat .nextOpen 3) = .ok (result, rt) ∧
    turningJob.emitAll = true ∧ ¬ Attributes result.events := by
  have hattributions := attributions_turningJob
  cases hrun : turningJob.run (.flat .nextOpen 3) with
  | error e =>
    rw [hrun] at hattributions
    cases hattributions
  | ok run =>
    rw [hrun] at hattributions
    refine ⟨run.1, run.2, rfl, rfl, fun h => ?_⟩
    cases hclosed : closedPayloads run.1.events with
    | nil =>
      simp only [attributions, hclosed] at hattributions
      cases hattributions
    | cons closed rest =>
      obtain ⟨_, _, _, _, hband⟩ := h.1 closed (by rw [hclosed]; exact List.mem_cons_self)
      cases attribution_band hband

end TradingPlatform
