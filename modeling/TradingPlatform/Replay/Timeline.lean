import TradingPlatform.Replay.CausalGraph
import TradingPlatform.Replay.Correlation
import TradingPlatform.Runtime.Reports
import TradingPlatform.Runtime.Shape

/-!
# The strict replay of a cycle

`ReplayEngine.replay_cycle` selects the events of a cycle from a log, sorts them by their times and
lists them in a timeline by time, family and processing time. The events of a cycle are of one time,
so a log that has no other events under the id of the cycle gives back what the cycle has published,
in the order in which the database returns rows of one time; the timeline puts the families in the
order of the publication again.
-/

namespace TradingPlatform

/-! ## Timelines -/

/-- `family_order` of `build_timeline` -/
def EventFamily.order : EventFamily → ℕ
  | .market => 0
  | .signal => 1
  | .decision => 2
  | .execution => 3

def EventType.literal : EventType → String
  | .candleReceived => "CandleReceived"
  | .featureSetBuilt => "FeatureSetBuilt"
  | .marketContextDerived => "MarketContextDerived"
  | .providerOpinion => "ProviderOpinion"
  | .providerSkipped => "ProviderSkipped"
  | .decisionMade => "DecisionMade"
  | .decisionApproved => "DecisionApproved"
  | .decisionRejected => "DecisionRejected"
  | .orderIntentCreated => "OrderIntentCreated"
  | .orderSubmitted => "OrderSubmitted"
  | .orderAcknowledged => "OrderAcknowledged"
  | .fillReceived => "FillReceived"
  | .positionOpened => "PositionOpened"
  | .positionClosed => "PositionClosed"
  | .signalPublished => "SignalPublished"
  | .orderRejected => "OrderRejected"
  | .executionFailed => "ExecutionFailed"

def Side.literal : Side → String
  | .buy => "BUY"
  | .sell => "SELL"

def SignalSide.literal : SignalSide → String
  | .buy => "BUY"
  | .sell => "SELL"
  | .hold => "HOLD"

def ResultValue.literal : ResultValue → String
  | .approved => "approved"
  | .rejected => "rejected"

/-- `_event_summary`; `text` writes a number. The intent and the fill are nested in their payloads,
so the entries that are asked for are missing there. -/
def eventSummary (text : ℚ → String) (event : EventEnvelope) : Except PyError String :=
  match event.payload with
  | .candleReceived bar => return "Candle close " ++ text bar.close
  | .featureSetBuilt _ featureVersion .. => return "Features built (" ++ featureVersion ++ ")"
  | .marketContextDerived context =>
    return "Context: trend=" ++ context.trend.literal ++ ", vol=" ++ context.volatility.literal
  | .providerOpinion providerId side confidence _ =>
    return providerId ++ ": " ++ side.literal ++ " (" ++ text confidence ++ ")"
  | .providerSkipped providerId _ => return providerId ++ " skipped"
  | .decisionMade _ result .. => return "Decision made (" ++ result.literal ++ ")"
  | .decisionApproved _ _ finalSignal =>
    match finalSignal with
    | some signal => return "Approved " ++ signal.side.literal
    | none => throw (.raised "AttributeError")
  | .decisionRejected _ _ _ rejectionReason _ =>
    return "Rejected: " ++ rejectionReason.getD "None"
  | .orderIntentCreated _ => return "Order intent None qty=None"
  | .fillReceived .. => return "Fill None @ None"
  | .positionOpened .. => return "Position opened"
  | .positionClosed _ => return "Position closed"
  | _ => return event.eventType.literal

structure TimelineEntry where
  eventId : ℕ
  eventFamily : EventFamily
  eventType : EventType
  eventTime : String
  processingTime : String
  correlationId : CorrelationId
  causationId : Option ℕ
  summary : String
  deriving DecidableEq, Repr

/-- The entry of an event in a timeline. -/
def timelineEntry (text : ℚ → String) (event : EventEnvelope) : Except PyError TimelineEntry := do
  let summary ← eventSummary text event
  return {
    eventId := event.eventId
    eventFamily := event.eventFamily
    eventType := event.eventType
    eventTime := Calendar.isoformat event.eventTime
    processingTime := Calendar.isoformat event.processingTime
    correlationId := event.correlationId
    causationId := event.causationId
    summary }

/-- The sort key of `build_timeline`. -/
def timelineKey (e : EventEnvelope) : ℤ ×ₗ ℕ ×ₗ ℤ :=
  toLex (e.eventTime, toLex (e.eventFamily.order, e.processingTime))

/-- `build_timeline` -/
def buildTimeline (text : ℚ → String) (events : List EventEnvelope) :
    Except PyError (List TimelineEntry) :=
  (events.insertionSort fun a b => timelineKey a ≤ timelineKey b).mapM (timelineEntry text)

/-! ## The replay -/

structure ReplayResult where
  correlationId : CorrelationId
  events : List EventEnvelope
  timeline : List TimelineEntry
  familiesPresent : Finset EventFamily
  causalGraph : CausalGraph

/-- `ReplayEngine` -/
structure ReplayEngine where
  events : List EventEnvelope

namespace ReplayEngine

/-- `from_db` -/
def fromDb (db : Database) (scan : EventEnvelope → ℕ) (correlationId : CorrelationId) :
    ReplayEngine where
  events := db.fetchEventsByCorrelation scan correlationId

/-- The sort key of `replay_cycle`. -/
def replayKey (e : EventEnvelope) : ℤ ×ₗ ℤ := toLex (e.eventTime, e.processingTime)

variable (engine : ReplayEngine) (text : ℚ → String) (correlationId : CorrelationId)

/-- The events of a cycle in `replay_cycle`. -/
def cycleEvents : List EventEnvelope :=
  (engine.events.filter (·.correlationId = correlationId)).insertionSort
    fun a b => replayKey a ≤ replayKey b

/-- `replay_cycle` in strict mode. -/
def replayCycle : Except PyError ReplayResult := do
  let cycleEvents := engine.cycleEvents correlationId
  let timeline ← buildTimeline text cycleEvents
  return {
    correlationId, timeline
    events := cycleEvents
    familiesPresent := (cycleEvents.map (·.eventFamily)).toFinset
    causalGraph := buildCausalGraph cycleEvents }

/-- `has_full_chain` -/
def hasFullChain : Except PyError Bool := do
  let result ← engine.replayCycle text correlationId
  let types := result.events.map (·.eventType)
  let approved := result.events.any fun e => e.eventType = .decisionApproved
  let hasMarket := types.contains .candleReceived
  let hasDecision := types.contains .decisionMade
  let hasExecution := types.contains .orderIntentCreated || !approved
  if approved then return hasMarket && hasDecision && types.contains .orderIntentCreated
  else return hasMarket && hasDecision && hasExecution

end ReplayEngine

/-! ## What a replay shows -/

theorem EventFamily.order_injective : Function.Injective EventFamily.order := by
  intro a b h
  cases a <;> cases b <;> first | rfl | cases h

/-- The events come family by family. -/
def ByFamily (events : List EventEnvelope) : Prop :=
  events.Pairwise fun a b => a.eventFamily.order ≤ b.eventFamily.order

/-- Two lists of the same events, both by family, have the same families at the same places. -/
theorem ByFamily.families_eq {events events' : List EventEnvelope} (h : ByFamily events)
    (h' : ByFamily events') (hperm : events.Perm events') :
    events.map (·.eventFamily) = events'.map (·.eventFamily) :=
  List.Perm.eq_of_pairwise
    (fun _ _ _ _ hle hge => EventFamily.order_injective (le_antisymm hle hge))
    (List.pairwise_map.mpr h) (List.pairwise_map.mpr h') (hperm.map _)

/-- The replay gives these events and no others: their graph, their families, and a timeline that has
one entry for each of them, family by family as they are listed. -/
structure ReplayResult.Shows (result : ReplayResult) (text : ℚ → String)
    (events : List EventEnvelope) : Prop where
  perm : result.events.Perm events
  graph : result.causalGraph.Same (buildCausalGraph events)
  familiesPresent : result.familiesPresent = (events.map (·.eventFamily)).toFinset
  timeline : ∃ listed, listed.Perm events ∧
    listed.map (·.eventFamily) = events.map (·.eventFamily) ∧
    List.Forall₂ (fun e entry => timelineEntry text e = .ok entry) listed result.timeline

/-- The events of one cycle in some order: they are of one time, and none of them lacks what its
summary reads. -/
structure OfOneCycle (events : List EventEnvelope) : Prop where
  eventTime : ∃ t, ∀ e ∈ events, e.eventTime = t
  processingTime : ∃ t, ∀ e ∈ events, e.processingTime = t
  named : ∀ e ∈ events, e.payload.namesSignal = true

namespace OfOneCycle

variable {events events' : List EventEnvelope} {text : ℚ → String}

theorem perm (h : OfOneCycle events) (hperm : events'.Perm events) : OfOneCycle events' where
  eventTime := h.eventTime.imp fun _ ht e he => ht e (hperm.mem_iff.mp he)
  processingTime := h.processingTime.imp fun _ ht e he => ht e (hperm.mem_iff.mp he)
  named e he := h.named e (hperm.mem_iff.mp he)

/-- Events of one time are sorted by their families. -/
theorem byFamily_sort (h : OfOneCycle events) :
    ByFamily (events.insertionSort fun a b => timelineKey a ≤ timelineKey b) := by
  obtain ⟨t, htime⟩ := h.eventTime
  have hsorted := List.pairwise_insertionSort (fun a b => timelineKey a ≤ timelineKey b) events
  refine hsorted.imp_of_mem fun {a b} ha hb hle => ?_
  have hsame : a.eventTime = b.eventTime :=
    (htime a ((List.mem_insertionSort _).mp ha)).trans
      (htime b ((List.mem_insertionSort _).mp hb)).symm
  rcases Prod.Lex.toLex_le_toLex.mp hle with hlt | ⟨-, hle⟩
  · exact absurd hsame hlt.ne
  · rcases Prod.Lex.toLex_le_toLex.mp hle with hlt | ⟨heq, -⟩
    · exact hlt.le
    · exact heq.le

/-- Every event has a summary. -/
theorem exists_entry (h : OfOneCycle events) {e : EventEnvelope} (he : e ∈ events) :
    ∃ entry, timelineEntry text e = .ok entry := by
  have hnamed := h.named e he
  unfold timelineEntry eventSummary
  cases hpay : e.payload with
  | decisionApproved decisionId stateSnapshotId finalSignal =>
    cases finalSignal with
    | none =>
      rw [hpay] at hnamed
      cases hnamed
    | some signal => exact ⟨_, rfl⟩
  | _ => exact ⟨_, rfl⟩

theorem exists_entries (h : OfOneCycle events) (text : ℚ → String) : ∃ timeline,
    List.Forall₂ (fun e entry => timelineEntry text e = .ok entry) events timeline := by
  have hall : ∀ e ∈ events, ∃ entry, timelineEntry text e = .ok entry := fun _ => h.exists_entry
  clear h
  induction events with
  | nil => exact ⟨[], .nil⟩
  | cons e events ih =>
    obtain ⟨⟨entry, hentry⟩, hrest⟩ := List.forall_mem_cons.mp hall
    obtain ⟨timeline, htimeline⟩ := ih hrest
    exact ⟨entry :: timeline, .cons hentry htimeline⟩

/-- The timeline of a cycle lists its events by their families, each with its entry. -/
theorem exists_timeline (h : OfOneCycle events) (text : ℚ → String) : ∃ listed timeline,
    buildTimeline text events = .ok timeline ∧ listed.Perm events ∧ ByFamily listed ∧
      List.Forall₂ (fun e entry => timelineEntry text e = .ok entry) listed timeline := by
  let listed := events.insertionSort fun a b => timelineKey a ≤ timelineKey b
  have hperm : listed.Perm events := List.perm_insertionSort _ _
  obtain ⟨timeline, hentries⟩ := (h.perm hperm).exists_entries text
  exact ⟨listed, timeline, Except.mapM_eq_ok.mpr hentries, hperm, h.byFamily_sort, hentries⟩

/-- A log that has these events under the id and no others is replayed to them. -/
theorem replayCycle (h : OfOneCycle events) (hfamily : ByFamily events) (text : ℚ → String)
    {engine : ReplayEngine} {correlationId : CorrelationId}
    (hlog : (engine.events.filter (·.correlationId = correlationId)).Perm events) : ∃ result,
    engine.replayCycle text correlationId = .ok result ∧
      result.correlationId = correlationId ∧ result.Shows text events := by
  have hperm : (engine.cycleEvents correlationId).Perm events :=
    (List.perm_insertionSort _ _).trans hlog
  obtain ⟨listed, timeline, htimeline, hlisted, hbyFamily, hentries⟩ :=
    (h.perm hperm).exists_timeline text
  refine ⟨_, by simp only [ReplayEngine.replayCycle, htimeline, bind, Except.bind]; rfl, rfl,
    hperm, CausalGraph.same_of_perm hperm, List.toFinset_eq_of_perm _ _ (hperm.map _), listed,
    hlisted.trans hperm, hbyFamily.families_eq hfamily (hlisted.trans hperm), hentries⟩

end OfOneCycle

/-! ## The events of a cycle -/

namespace PlatformRuntime

variable {rt rt' : PlatformRuntime} {call : CycleCall} {result : CycleResult}

theorem family_of_mem_barTypes {type : EventType}
    (h : type ∈ SimulatedExecutionEngine.barTypes) : type.family = .execution := by
  revert type
  decide

theorem Orders.family {decision : Decision} {orders : List EventEnvelope}
    (h : Orders rt decision orders) : ∀ e ∈ orders, e.eventType ∈
      EventType.executionFailed :: SimulatedExecutionEngine.orderTypes := by
  cases h with
  | idle => exact List.forall_mem_nil _
  | executed _ _ h => exact fun e he => h.builtFor.eventType he

theorem family_opinionTypes (providers : List SignalProvider) :
    ∀ type ∈ providers.map opinionType, type.family = .signal := by
  refine List.forall_mem_map.mpr fun provider _ => ?_
  unfold opinionType
  split <;> rfl

/-- Of the types of a cycle, those outside the signal family do not depend on the providers. -/
theorem mem_cycleTypes {providers : List SignalProvider} {decision : Decision} {type : EventType}
    (h : type.family ≠ .signal) : type ∈ cycleTypes providers decision ↔
      type ∈ [.candleReceived, .featureSetBuilt, .marketContextDerived] ∨
        type ∈ decisionTypes decision := by
  rw [cycleTypes, List.mem_append, List.mem_append,
    or_iff_left fun hmem => h (family_opinionTypes providers type hmem)]

/-- The types of a cycle come family by family. -/
theorem pairwise_cycleTypes (providers : List SignalProvider) (decision : Decision) :
    (cycleTypes providers decision).Pairwise fun a b => a.family.order ≤ b.family.order := by
  have hopinion := family_opinionTypes providers
  have hdecision : ∀ type ∈ decisionTypes decision, 2 ≤ type.family.order := by
    unfold decisionTypes
    split <;> decide
  refine List.pairwise_append.mpr ⟨List.pairwise_append.mpr ⟨by decide, ?_, ?_⟩, ?_, ?_⟩
  · refine List.pairwise_of_forall_mem_list fun a ha b hb => ?_
    rw [hopinion a ha, hopinion b hb]
  · intro a ha b _
    have hmarket : a.family.order = 0 := by
      revert a
      decide
    omega
  · unfold decisionTypes
    split <;> decide
  · intro a ha b hb
    refine le_trans ?_ (hdecision b hb)
    rcases List.mem_append.mp ha with ha | ha
    · have hmarket : ∀ a ∈ [EventType.candleReceived, .featureSetBuilt, .marketContextDerived],
          a.family.order ≤ 2 := by decide
      exact hmarket a ha
    · rw [hopinion a ha]
      decide

/-- A cycle that returns publishes its events family by family, all of them of one time. -/
theorem runCycle_byFamily (hrun : rt.runCycle call = (.ok result, rt')) :
    OfOneCycle result.events ∧ ByFamily result.events := by
  obtain ⟨own, bar, orders, hevents, hown, hnamed, hbar, rt₁, -, horders⟩ := runCycle_shape hrun
  obtain ⟨ctx, _, _, _, _, hreports, _⟩ := runCycle_reports hrun
  have hexecution : ∀ e ∈ bar ++ orders, e.eventFamily = .execution ∧
      e.payload.namesSignal = true := by
    refine List.forall_mem_append.mpr ⟨fun e he => ?_, fun e he => ?_⟩
    · refine ⟨family_of_mem_barTypes (hbar e he), Payload.namesSignal_of_ne fun htype => ?_⟩
      have hmem := hbar e he
      rw [EventEnvelope.eventType, htype] at hmem
      revert hmem
      decide
    · have hmem := horders.family e he
      refine ⟨?_, Payload.namesSignal_of_ne fun htype => ?_⟩
      · rw [EventEnvelope.eventFamily]
        revert hmem
        generalize e.eventType = type
        revert type
        decide
      · rw [EventEnvelope.eventType, htype] at hmem
        revert hmem
        decide
  refine ⟨⟨⟨ctx.eventTime, hreports.times⟩, runCycle_processingTime hrun, ?_⟩, ?_⟩
  · rw [hevents]
    exact List.forall_mem_append.mpr ⟨hnamed, fun e he => (hexecution e he).2⟩
  · rw [hevents]
    refine List.pairwise_append.mpr ⟨?_, ?_, ?_⟩
    · have htypes : (own.map (·.eventType)).Pairwise
          fun a b => a.family.order ≤ b.family.order := by
        rw [hown, whenEmitting]
        split
        · exact pairwise_cycleTypes _ _
        · exact .nil
      have hpairs := List.pairwise_map.mp htypes
      exact hpairs
    · refine List.pairwise_of_forall_mem_list fun a ha b hb => ?_
      rw [(hexecution a ha).1, (hexecution b hb).1]
    · intro a _ b hb
      rw [(hexecution b hb).1]
      cases a.eventFamily <;> decide

end PlatformRuntime

/-! ## Full chains -/

namespace PlatformRuntime

variable {rt rt' : PlatformRuntime} {call : CycleCall} {result : CycleResult}

/-- The order of a cycle has got as far as an intent. -/
def OrderIntended (rt : PlatformRuntime) (result : CycleResult) : Prop :=
  ∃ signal longOnly, result.decision.finalSignal = some signal ∧
    rt.engineSetting = some (true, longOnly) ∧ ¬ (longOnly = true ∧ signal.side = .sell) ∧
    ∀ e ∈ result.events, e.eventType ≠ .executionFailed

theorem Orders.intent_iff {decision : Decision} {orders : List EventEnvelope} {signal : FinalSignal}
    (h : Orders rt decision orders) (happroved : decision.isApproved = true)
    (hsignal : decision.finalSignal = some signal) :
    (∃ e ∈ orders, e.eventType = .orderIntentCreated) ↔
      ∃ longOnly, rt.engineSetting = some (true, longOnly) ∧
        ¬ (longOnly = true ∧ signal.side = .sell) ∧
        ∀ e ∈ orders, e.eventType ≠ .executionFailed := by
  cases h with
  | idle h =>
    rcases h with h | h
    · rw [happroved] at h
      cases h
    · refine iff_of_false ?_ ?_
      · rintro ⟨e, he, -⟩
        cases he
      · rintro ⟨longOnly, hsetting, -⟩
        rw [engineSetting, h] at hsetting
        cases hsetting
  | @executed engine snapshot c _ _ hsetting h =>
    rw [hsetting]
    cases hemits : engine.emitEvents with
    | false =>
      refine iff_of_false ?_ ?_
      · rintro ⟨e, he, htype⟩
        exact h.not_intent hemits e he htype
      · rintro ⟨longOnly, hsome, -⟩
        cases hsome
    | true =>
      rw [h.intent_iff hemits happroved hsignal]
      constructor
      · rintro ⟨hlong, hfailed⟩
        exact ⟨_, rfl, hlong, hfailed⟩
      · rintro ⟨_, hsome, hlong, hfailed⟩
        cases hsome
        exact ⟨hlong, hfailed⟩

end PlatformRuntime

theorem OfOneCycle.hasFullChain {events : List EventEnvelope} (h : OfOneCycle events)
    (hfamily : ByFamily events) (text : ℚ → String) {engine : ReplayEngine}
    {correlationId : CorrelationId}
    (hlog : (engine.events.filter (·.correlationId = correlationId)).Perm events) :
    engine.hasFullChain text correlationId = .ok (Decidable.decide
      ((∃ e ∈ events, e.eventType = .candleReceived) ∧ (∃ e ∈ events, e.eventType = .decisionMade) ∧
        ((∃ e ∈ events, e.eventType = .decisionApproved) →
          ∃ e ∈ events, e.eventType = .orderIntentCreated))) := by
  obtain ⟨result, hreplay, -, hshows⟩ := h.replayCycle hfamily text hlog
  have hexists : ∀ type, (∃ e ∈ result.events, e.eventType = type) ↔
      ∃ e ∈ events, e.eventType = type := fun _ =>
    exists_congr fun _ => and_congr_left' hshows.perm.mem_iff
  have hcontains : ∀ type, (result.events.map (·.eventType)).contains type =
      Decidable.decide (∃ e ∈ events, e.eventType = type) := by
    intro type
    rw [List.contains_eq_mem]
    exact decide_eq_decide.mpr (List.mem_map.trans (hexists type))
  have hany : (result.events.any fun e => Decidable.decide (e.eventType = .decisionApproved)) =
      Decidable.decide (∃ e ∈ events, e.eventType = .decisionApproved) := by
    rw [Bool.eq_iff_iff, List.any_eq_true]
    simpa using hexists .decisionApproved
  simp only [ReplayEngine.hasFullChain, hreplay, bind, Except.bind, hcontains, hany]
  by_cases happroved : ∃ e ∈ events, e.eventType = .decisionApproved
  · simp only [happroved, decide_true, if_true, true_implies, Bool.decide_and, Bool.and_assoc]
    rfl
  · simp only [happroved, decide_false, Bool.false_eq_true, if_false, Bool.not_false, Bool.or_true,
      Bool.and_true, false_implies, and_true, Bool.decide_and]
    rfl

namespace PlatformRuntime

variable {rt rt' : PlatformRuntime} {call : CycleCall} {result : CycleResult}

theorem exists_type_iff {own bar orders : List EventEnvelope} {type : EventType}
    (hbar : ∀ e ∈ bar, e.eventType ∈ SimulatedExecutionEngine.barTypes)
    (htype : type ∉ SimulatedExecutionEngine.barTypes) :
    (∃ e ∈ own ++ (bar ++ orders), e.eventType = type) ↔
      type ∈ own.map (·.eventType) ∨ ∃ e ∈ orders, e.eventType = type := by
  constructor
  · rintro ⟨e, he, rfl⟩
    rcases List.mem_append.mp he with he | he
    · exact .inl (List.mem_map_of_mem he)
    · rcases List.mem_append.mp he with he | he
      · exact absurd (hbar e he) htype
      · exact .inr ⟨e, he, rfl⟩
  · rintro (hmem | ⟨e, he, heq⟩)
    · obtain ⟨e, he, heq⟩ := List.mem_map.mp hmem
      exact ⟨e, List.mem_append_left _ he, heq⟩
    · exact ⟨e, List.mem_append_right _ (List.mem_append_right _ he), heq⟩

/-- In a log that has no other events under its id, a cycle that returns has a full chain exactly if
the runtime emits events and the order of an approved decision has got as far as an intent: there is
an engine that emits events, the signal is no sale of a long-only book, and no size has failed. -/
theorem hasFullChain_iff (hrun : rt.runCycle call = (.ok result, rt')) (text : ℚ → String)
    {engine : ReplayEngine} (hlog : (engine.events.filter
      (·.correlationId = result.correlationId)).Perm result.events) :
    ∃ full, engine.hasFullChain text result.correlationId = .ok full ∧
      (full = true ↔ rt.emitEvents = true ∧
        (result.decision.isApproved = true → rt.OrderIntended result)) := by
  obtain ⟨hcycle, hfamily⟩ := runCycle_byFamily hrun
  refine ⟨_, hcycle.hasFullChain hfamily text hlog, ?_⟩
  rw [decide_eq_true_eq]
  obtain ⟨own, bar, orders, hevents, hown, -, hbar, rt₁, hsetting, horders⟩ := runCycle_shape hrun
  have htypes : ∀ {type : EventType}, type ∉ SimulatedExecutionEngine.barTypes →
      type.family ≠ .signal → ((∃ e ∈ result.events, e.eventType = type) ↔
        (rt.emitEvents = true ∧ (type ∈ [.candleReceived, .featureSetBuilt, .marketContextDerived] ∨
          type ∈ decisionTypes result.decision)) ∨ ∃ e ∈ orders, e.eventType = type) := by
    intro type hnot hfamily
    rw [hevents, exists_type_iff hbar hnot, hown, whenEmitting]
    split
    · next hemits => rw [mem_cycleTypes hfamily, and_iff_right hemits]
    · next hemits => simp only [hemits, List.not_mem_nil, false_and, Bool.false_eq_true]
  have hnone : ∀ {type : EventType},
      type ∉ EventType.executionFailed :: SimulatedExecutionEngine.orderTypes →
      ¬ ∃ e ∈ orders, e.eventType = type := by
    rintro type hnot ⟨e, he, rfl⟩
    exact hnot (horders.family e he)
  have hcandle : (∃ e ∈ result.events, e.eventType = .candleReceived) ↔ rt.emitEvents = true := by
    rw [htypes (by decide) (by decide), or_iff_left (hnone (by decide))]
    exact and_iff_left (.inl List.mem_cons_self)
  have hmade : (∃ e ∈ result.events, e.eventType = .decisionMade) ↔ rt.emitEvents = true := by
    rw [htypes (by decide) (by decide), or_iff_left (hnone (by decide))]
    refine and_iff_left (.inr ?_)
    unfold decisionTypes
    split <;> exact List.mem_cons_self
  have happroved : (∃ e ∈ result.events, e.eventType = .decisionApproved) ↔
      rt.emitEvents = true ∧ result.decision.isApproved = true := by
    rw [htypes (by decide) (by decide), or_iff_left (hnone (by decide)), or_iff_right (by decide)]
    refine and_congr_right fun _ => ?_
    cases h : result.decision.isApproved <;> simp [decisionTypes, h]
  have hdecision : ∀ {type : EventType}, type ∈ [.orderIntentCreated, .executionFailed] →
      type ∉ decisionTypes result.decision := by
    intro type htype
    unfold decisionTypes
    revert type
    split <;> decide
  have horder : ∀ {type : EventType}, type ∈ [.orderIntentCreated, .executionFailed] →
      ((∃ e ∈ result.events, e.eventType = type) ↔ ∃ e ∈ orders, e.eventType = type) := by
    intro type htype
    have hplaces : type ∉ SimulatedExecutionEngine.barTypes ∧ type.family ≠ .signal ∧
        type ∉ [.candleReceived, .featureSetBuilt, .marketContextDerived] := by
      revert type
      decide
    rw [htypes hplaces.1 hplaces.2.1]
    exact or_iff_right fun h => h.2.elim hplaces.2.2 (hdecision htype)
  have hintent := horder (.head _)
  have hfailed : (∀ e ∈ result.events, e.eventType ≠ .executionFailed) ↔
      ∀ e ∈ orders, e.eventType ≠ .executionFailed := by
    simpa only [not_exists, not_and] using not_congr (horder (.tail _ (.head _)))
  rw [hcandle, hmade, happroved, hintent]
  rw [← and_assoc, and_self]
  refine and_congr_right fun hemits => ?_
  rw [and_iff_right hemits]
  refine imp_congr_right fun hyes => ?_
  obtain ⟨signal, hsignal⟩ := runCycle_finalSignal hrun hyes
  rw [horders.intent_iff hyes hsignal, hsetting, OrderIntended, hfailed]
  constructor
  · rintro ⟨longOnly, h⟩
    exact ⟨signal, longOnly, hsignal, h⟩
  · rintro ⟨signal', longOnly, hsignal', h⟩
    obtain rfl : signal = signal' := Option.some.inj (hsignal.symm.trans hsignal')
    exact ⟨longOnly, h⟩

/-- The purchase of a cycle at the close has a full chain in the log of the cycle. -/
theorem hasFullChain_iff_solo : ∃ result rt' full,
    RuntimeSetup.soloEmitting.start.runCycle (.flat "BTC/USDT" 0 100 .buy) = (.ok result, rt') ∧
    (ReplayEngine.mk rt'.published).hasFullChain (fun _ => "") result.correlationId = .ok full ∧
    (full = true ↔ RuntimeSetup.soloEmitting.start.emitEvents = true ∧
      (result.decision.isApproved = true →
        RuntimeSetup.soloEmitting.start.OrderIntended result)) := by
  have hok : (RuntimeSetup.soloEmitting.start.runCycle
      (.flat "BTC/USDT" 0 100 .buy)).1.isOk = true := by decide +kernel
  cases hrun : RuntimeSetup.soloEmitting.start.runCycle (.flat "BTC/USDT" 0 100 .buy) with
  | mk outcome rt' =>
  rw [hrun] at hok
  cases outcome with
  | error e => cases hok
  | ok result =>
    have hpub := runCycle_publishes hrun
    have hlog : (ReplayEngine.mk rt'.published).events.filter
        (·.correlationId = result.correlationId) = result.events := by
      change rt'.published.filter _ = _
      rw [show rt'.published = result.events from hpub.published]
      exact List.filter_eq_self.mpr fun e he => decide_eq_true (hpub.stamped e he)
    obtain ⟨full, hfull, hiff⟩ := hasFullChain_iff hrun (fun _ => "") (.of_eq hlog)
    exact ⟨result, rt', full, rfl, hfull, hiff⟩

end PlatformRuntime

/-! ## The cycles of a history -/

/-- The cycle has returned from a runtime. -/
def CycleResult.Returned (cycle : CycleResult) : Prop :=
  ∃ rt call rt', PlatformRuntime.runCycle rt call = (.ok cycle, rt')

theorem ValidationHarness.returned_runBarsKept (h : ValidationHarness) (bars : List (ℤ × ℕ))
    (rt : PlatformRuntime) : ∀ c ∈ (h.runBarsKept bars rt).2.1, c.Returned := by
  induction bars generalizing rt with
  | nil => exact List.forall_mem_nil _
  | cons b rest ih =>
    obtain ⟨barTime, i⟩ := b
    cases hcycle : (setClock barTime rt).runCycle (h.cycleCall i barTime) with
    | mk outcome rt₁ =>
    cases outcome with
    | error e =>
      simp only [runBarsKept, hcycle]
      exact List.forall_mem_nil _
    | ok result =>
      simp only [runBarsKept, hcycle]
      exact List.forall_mem_cons.mpr ⟨⟨_, _, _, hcycle⟩, ih rt₁⟩

theorem ValidationHarness.returned_driveKept (h : ValidationHarness) (rt : PlatformRuntime) :
    ∀ c ∈ (h.driveKept rt).2.1, c.Returned := by
  unfold driveKept
  cases hbars : h.barTimes with
  | error e => exact List.forall_mem_nil _
  | ok barTimes =>
    have hreturned := h.returned_runBarsKept barTimes.zipIdx { rt with published := [] }
    dsimp only
    cases hrun : h.runBarsKept barTimes.zipIdx { rt with published := [] } with
    | mk outcome kept =>
    obtain ⟨cycles, rt₁⟩ := kept
    rw [hrun] at hreturned
    cases outcome with
    | error e => exact hreturned
    | ok _ =>
      dsimp only
      cases rt₁.liquidateOpenPositions (h.liquidationCall (barTimes.getLastD 0)) <;>
        exact hreturned

theorem ValidationJob.returned_execute (job : ValidationJob) (env : JobEnvironment) (uuid : ℕ) :
    ∀ c ∈ (job.execute env uuid).cycles, c.Returned := by
  unfold execute
  cases job.loadData env with
  | error e => exact List.forall_mem_nil _
  | ok data => exact ValidationHarness.returned_driveKept _ _

namespace Deployment

variable {d : Deployment}

theorem returned_written (d : Deployment) (op : Operation) :
    ∀ r ∈ d.written op, r.cycle.Returned := by
  cases op with
  | build => exact List.forall_mem_nil _
  | validate job env =>
    intro r hr
    unfold written at hr
    dsimp only at hr
    split at hr
    · obtain ⟨p, hp, rfl⟩ := List.mem_map.mp hr
      exact job.returned_execute env d.uuid p.2 (List.of_mem_zip hp).2
    · cases hr
  | live k entry call now =>
    by_cases hrecord : d.RecordsLive (.live k entry call now)
    · obtain ⟨stack, cycle, rt, hstack, hpersist, hrun⟩ := hrecord
      simp only [written, hstack, hrun, hpersist]
      exact List.forall_mem_singleton.mpr ⟨_, _, _, hrun⟩
    · rw [written_of_unrecorded hrecord]
      exact List.forall_mem_nil _

/-- In every history of validation jobs and live cycles that uses no key twice, the strict replay
of a cycle from the database gives the events of the cycle, all of them and no others, in whatever
order the database returns rows of one time; the timeline has an entry for each of them, family by
family as they were published, and none of them is without a summary. -/
theorem replayCycle_recorded {ops : List Operation} (hfresh : Run.Along step Fresh {} ops)
    (text : ℚ → String) (scan : EventEnvelope → ℕ) :
    let d := Run.exec step {} ops
    ∀ r ∈ d.recorded, ∃ result,
      (ReplayEngine.fromDb d.database scan r.cycle.correlationId).replayCycle text
        r.cycle.correlationId = .ok result ∧
      result.correlationId = r.cycle.correlationId ∧ result.Shows text r.cycle.events := by
  intro d r hr
  obtain ⟨hlogged, hnodup, hreturned⟩ := hfresh.exec_inv
    (I := fun d => Logged d.database.eventLog d.recorded ∧
      (d.recorded.map RecordedCycle.key).Nodup ∧ ∀ r ∈ d.recorded, r.cycle.Returned)
    (fun d op h hop => by
      obtain ⟨hrecorded, _, events, hlog, hevents⟩ := d.step_written op
      refine ⟨?_, (nodup_step h.2.1).mpr hop, ?_⟩
      · rw [hrecorded, hlog]
        exact h.1.append hevents
      · rw [hrecorded]
        exact List.forall_mem_append.mpr ⟨h.2.2, d.returned_written op⟩)
    ⟨.nil, List.nodup_nil, List.forall_mem_nil _⟩
  obtain ⟨rt, call, rt', hrun⟩ := hreturned r hr
  obtain ⟨hcycle, hfamily⟩ := PlatformRuntime.runCycle_byFamily hrun
  have hfetched := ((separated_iff hlogged).mpr hnodup).fetched r hr scan
  have hown : ∀ e ∈ d.database.fetchEventsByCorrelation scan r.cycle.correlationId,
      e.correlationId = r.cycle.correlationId := fun e he =>
    of_decide_eq_true (List.mem_filter.mp ((List.mem_insertionSort _).mp he)).2
  refine hcycle.replayCycle hfamily text ?_
  rw [ReplayEngine.fromDb, List.filter_eq_self.mpr fun e he => decide_eq_true (hown e he)]
  exact hfetched

/-- A validation run and a paper cycle in one database, whose rows come back last first. -/
theorem replayCycle_recorded_paperCycle :
    let d := Run.exec step {} [persistedRun, paperStack, paperCycle]
    d.recorded.length = 2 ∧ ∀ r ∈ d.recorded, ∃ result,
      (ReplayEngine.fromDb d.database (1000 - ·.eventId) r.cycle.correlationId).replayCycle
        (fun _ => "") r.cycle.correlationId = .ok result ∧
      result.correlationId = r.cycle.correlationId ∧
      result.Shows (fun _ => "") r.cycle.events := by
  have hpaper : Fresh (Run.exec step {} [persistedRun, paperStack]) paperCycle := by
    unfold Fresh
    decide +kernel
  have hfresh : Run.Along step Fresh {} [persistedRun, paperStack, paperCycle] :=
    ⟨fun _ _ => List.not_mem_nil, List.forall_mem_nil _, hpaper, trivial⟩
  exact ⟨by decide +kernel, replayCycle_recorded hfresh _ _⟩

end Deployment

end TradingPlatform
