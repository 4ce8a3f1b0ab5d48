import TradingPlatform.Execution.Causation
import TradingPlatform.Lib.Causality
import TradingPlatform.Runtime.CycleRule

/-!
# The causal graph of a cycle

`build_causal_graph` draws an edge from the cause of each event to the event. The events of a cycle
that returns name only earlier events of the same cycle as their causes, through all the passes of
the engine and in whatever order they are listed; so the graph has no cycle, and every event is
reached from a root that has no cause.
-/

namespace TradingPlatform

/-! ## The graph -/

structure CausalNode where
  id : ℕ
  eventType : EventType
  eventFamily : EventFamily
  eventTime : ℤ
  deriving DecidableEq, Repr

structure CausalEdge where
  source : ℕ
  target : ℕ
  relation : String := "caused_by"
  deriving DecidableEq, Repr

structure CausalGraph where
  nodes : List CausalNode
  edges : List CausalEdge
  roots : List ℕ
  deriving DecidableEq, Repr

namespace CausalGraph

/-- The node of an event. -/
def node (event : EventEnvelope) : CausalNode where
  id := event.eventId
  eventType := event.eventType
  eventFamily := event.eventFamily
  eventTime := event.eventTime

/-- What the loop of `build_causal_graph` has gathered. -/
structure Gathered where
  nodes : List CausalNode := []
  edges : List CausalEdge := []
  byId : Dict ℕ EventEnvelope := ∅

/-- One turn of the loop of `build_causal_graph`. Whether the cause has been seen makes no
difference to the edge. -/
def gather (g : Gathered) (event : EventEnvelope) : Gathered :=
  let byId := g.byId.set event.eventId event
  let nodes := g.nodes ++ [node event]
  match event.causationId with
  | none => { g with byId, nodes }
  | some causationId =>
    if (byId.get? causationId).isSome then
      { byId, nodes, edges := g.edges ++ [{ source := causationId, target := event.eventId }] }
    else
      { byId, nodes, edges := g.edges ++ [{ source := causationId, target := event.eventId }] }

end CausalGraph

open CausalGraph in
/-- `build_causal_graph` -/
def buildCausalGraph (events : List EventEnvelope) : CausalGraph :=
  let g := events.foldl gather {}
  { nodes := g.nodes
    edges := g.edges
    roots := (g.nodes.map (·.id)).filter fun id => ¬ g.edges.any (·.target == id) }

namespace CausalGraph

variable {events : List EventEnvelope} {e : EventEnvelope} {g : Gathered} {a b id : ℕ}

/-- There is an edge from `a` to `b`. -/
def Causes (graph : CausalGraph) (a b : ℕ) : Prop := ∃ edge ∈ graph.edges, edge.source = a ∧
  edge.target = b

/-- The edge to an event, if it has a cause. -/
def edge? (event : EventEnvelope) : Option CausalEdge :=
  event.causationId.map fun causationId => { source := causationId, target := event.eventId }

theorem gather_nodes : (gather g e).nodes = g.nodes ++ [node e] := by
  unfold gather
  cases e.causationId with
  | none => rfl
  | some causationId =>
    dsimp only
    split <;> rfl

theorem gather_edges : (gather g e).edges = g.edges ++ (edge? e).toList := by
  unfold gather edge?
  cases e.causationId with
  | none => exact (List.append_nil _).symm
  | some causationId =>
    dsimp only
    split <;> rfl

theorem foldl_gather : (events.foldl gather g).nodes = g.nodes ++ events.map node ∧
    (events.foldl gather g).edges = g.edges ++ events.filterMap edge? := by
  induction events generalizing g with
  | nil => exact ⟨(List.append_nil _).symm, (List.append_nil _).symm⟩
  | cons e rest ih =>
    obtain ⟨hnodes, hedges⟩ := @ih (gather g e)
    refine ⟨?_, ?_⟩
    · rw [List.foldl_cons, hnodes, gather_nodes, List.append_assoc]
      rfl
    · rw [List.foldl_cons, hedges, gather_edges, List.append_assoc]
      refine congrArg (g.edges ++ ·) ?_
      cases hedge : edge? e with
      | none => exact (List.filterMap_cons_none hedge).symm
      | some edge => exact (List.filterMap_cons_some hedge).symm

theorem edges_buildCausalGraph : (buildCausalGraph events).edges = events.filterMap edge? :=
  foldl_gather.2

theorem causes_iff : (buildCausalGraph events).Causes a b ↔
    ∃ e ∈ events, e.eventId = b ∧ e.causationId = some a := by
  simp only [Causes, edges_buildCausalGraph, List.mem_filterMap, edge?, Option.map_eq_some_iff]
  constructor
  · rintro ⟨edge, ⟨e, he, id, hid, rfl⟩, rfl, rfl⟩
    exact ⟨e, he, rfl, hid⟩
  · rintro ⟨e, he, rfl, hid⟩
    exact ⟨_, ⟨e, he, a, hid, rfl⟩, rfl, rfl⟩

theorem nodes_buildCausalGraph : (buildCausalGraph events).nodes = events.map node :=
  foldl_gather.1

theorem roots_buildCausalGraph : (buildCausalGraph events).roots =
    ((events.map node).map (·.id)).filter
      fun id => ¬ (buildCausalGraph events).edges.any (·.target == id) := by
  rw [buildCausalGraph, foldl_gather.1]
  rfl

/-- The roots are the events to which no edge leads. -/
theorem mem_roots : id ∈ (buildCausalGraph events).roots ↔
    (∃ e ∈ events, e.eventId = id) ∧ ∀ a, ¬ (buildCausalGraph events).Causes a id := by
  rw [roots_buildCausalGraph, List.mem_filter, List.map_map, List.mem_map]
  refine and_congr Iff.rfl ?_
  simp only [Causes, List.any_eq_true, beq_iff_eq, decide_not, Bool.not_eq_true',
    decide_eq_false_iff_not]
  constructor
  · rintro hno a ⟨edge, hedge, -, htarget⟩
    exact hno ⟨edge, hedge, htarget⟩
  · rintro hno ⟨edge, hedge, htarget⟩
    exact hno edge.source ⟨edge, hedge, rfl, htarget⟩

/-- The graphs have the same nodes, edges and roots, perhaps listed in another order. -/
structure Same (graph graph' : CausalGraph) : Prop where
  nodes : graph.nodes.Perm graph'.nodes
  edges : graph.edges.Perm graph'.edges
  roots : graph.roots.Perm graph'.roots

/-- The graph of a cycle does not depend on the order in which its events are read. -/
theorem same_of_perm {events' : List EventEnvelope} (h : events.Perm events') :
    (buildCausalGraph events).Same (buildCausalGraph events') := by
  have hedges : (buildCausalGraph events).edges.Perm (buildCausalGraph events').edges := by
    rw [edges_buildCausalGraph, edges_buildCausalGraph]
    exact h.filterMap edge?
  refine ⟨?_, hedges, ?_⟩
  · rw [nodes_buildCausalGraph, nodes_buildCausalGraph]
    exact h.map node
  · have hany : ∀ id, (buildCausalGraph events).edges.any (·.target == id) =
        (buildCausalGraph events').edges.any (·.target == id) := fun _ => hedges.any_eq
    rw [roots_buildCausalGraph, roots_buildCausalGraph]
    simp only [hany]
    exact ((h.map node).map (·.id)).filter _

end CausalGraph

/-! ## The causes of a cycle -/

namespace PlatformRuntime

open SimulatedExecutionEngine

/-- What a cycle has collected so far is traced, and the next event of the runtime names an event
that has been collected. -/
structure Caused (p : CycleCtx × PlatformRuntime) : Prop where
  traced : Traced true 0 p.2.uuid (p.1.events ++ p.1.executionEvents)
  cause : Names true p.1.events p.1.causationId

variable {rt rt' : PlatformRuntime} {ctx : CycleCtx} {call : CycleCall}

theorem Caused.emit {payload : Payload} (h : Caused (ctx, rt)) :
    Caused (rt.emit ctx payload).2 ∧
      Names true (rt.emit ctx payload).2.1.events (some (rt.emit ctx payload).1.eventId) := by
  let event := (rt.emit ctx payload).1
  have hlast : event ∈ ctx.events ++ [event] :=
    List.mem_append_right _ (List.mem_singleton_self event)
  have hnext : Traced true 0 (rt.uuid + 1) (ctx.events ++ ctx.executionEvents ++ [event]) :=
    h.traced.concat (Nat.zero_le _) le_rfl (Nat.lt_succ_self _)
      (h.cause.mono (List.subset_append_left _ _))
  refine ⟨⟨hnext.perm ?_, h.cause.mono (List.subset_append_left _ _)⟩, ?_,
    fun hoff => by cases hoff⟩
  · have hswap : (ctx.events ++ ([event] ++ ctx.executionEvents)).Perm
        (ctx.events ++ (ctx.executionEvents ++ [event])) :=
      (List.perm_append_comm).append_left ctx.events
    rwa [← List.append_assoc, ← List.append_assoc] at hswap
  · rintro id ⟨⟩
    exact ⟨event, hlast, rfl⟩

theorem Caused.mono (h : Caused (ctx, rt)) (hle : rt.uuid ≤ rt'.uuid) : Caused (ctx, rt') :=
  ⟨h.traced.mono le_rfl hle, h.cause⟩

/-- The events of a pass are traced among themselves. -/
theorem Caused.takeOver {pass : Pass} {emits : Bool} {u u' : ℕ} (h : Caused (ctx, rt))
    (hu : rt.uuid ≤ u) (hu' : u ≤ u') (hpass : Traced emits u u' pass.events) :
    Caused (takeOver (ctx, rt) pass u') := by
  have happlied : u' ≤ (PlatformRuntime.takeOver (ctx, rt) pass u').2.uuid :=
    (applied_applyTransitions { rt with uuid := u', executionEngine := some pass.engine }
      pass.transitions).uuid
  refine ⟨?_, h.cause⟩
  have hboth := h.traced.append (hpass.loud.mono hu le_rfl) (Nat.zero_le _) (hu.trans hu')
  rw [List.append_assoc] at hboth
  exact hboth.mono le_rfl happlied

theorem caused_kept : KeptByCycle Caused where
  emit _ h := h.emit.1
  emitCause _ h := ⟨h.emit.1.traced, h.emit.2⟩
  draw hle h := h.mono hle
  day h := ⟨h.traced, h.cause⟩
  books _ h := h.mono (Nat.le_add_right _ 2)
  evaluate _ _ hle h := h.takeOver hle (EnginePass.evaluated ..).le_uuid (traced_evaluateBar ..)
  execute _ _ hle hrun h := h.takeOver hle (execute_cases hrun).1 (traced_execute hrun)

/-- Nothing has been collected when the bar is prepared, so there is nothing to name as a cause. -/
theorem caused_prepareBar (h : rt.prepareBar call = .ok (ctx, rt')) : Caused (ctx, rt') := by
  obtain ⟨df, _, h⟩ := Except.bind_eq_ok.mp h
  cases hlast : df.getLast? with
  | none =>
    rw [hlast] at h
    cases h
  | some lastRow =>
    rw [hlast] at h
    cases h
    exact ⟨.nil, .uncaused⟩

/-- The events of a cycle that returns are traced. -/
theorem runCycle_traced {result : CycleResult} (h : rt.runCycle call = (.ok result, rt')) :
    Traced true 0 rt'.uuid result.events ∧ rt'.published = rt.published ++ result.events := by
  obtain ⟨ctx, last, hcaused, hevents, rfl⟩ :=
    caused_kept.runCycle (fun ctx rt₁ hprepare => caused_prepareBar hprepare) h
  rw [hevents]
  exact ⟨hcaused.traced, hevents ▸ (runCycle_publishes h).published⟩

end PlatformRuntime

/-! ## The graph of traced events -/

namespace Traced

open CausalGraph

variable {emits : Bool} {u u' : ℕ} {events : List EventEnvelope} {e : EventEnvelope} {a b : ℕ}

/-- In the graph an edge leads to an event that was created later. -/
theorem lt_of_causes (h : Traced emits u u' events) (hab : (buildCausalGraph events).Causes a b) :
    a < b := by
  obtain ⟨e, he, rfl, hid⟩ := causes_iff.mp hab
  exact h.earlier e he a hid

/-- An event without a cause is a root: no other event has its identifier. -/
theorem mem_roots (h : Traced emits u u' events) (he : e ∈ events) (hcause : e.causationId = none) :
    e.eventId ∈ (buildCausalGraph events).roots := by
  refine CausalGraph.mem_roots.mpr ⟨⟨e, he, rfl⟩, fun a hcauses => ?_⟩
  obtain ⟨e', he', heq, hid⟩ := causes_iff.mp hcauses
  rw [List.inj_on_of_nodup_map h.nodup he' he heq, hcause] at hid
  cases hid

/-- Every event is reached from one without a cause. -/
theorem exists_root (h : Traced emits u u' events) (he : e ∈ events) :
    ∃ e₀ ∈ events, e₀.causationId = none ∧
      Relation.ReflTransGen (buildCausalGraph events).Causes e₀.eventId e.eventId := by
  have hcause : ∀ b, (∃ e ∈ events, e.eventId = b) →
      (∃ e ∈ events, e.eventId = b ∧ e.causationId = none) ∨
      ∃ a, (∃ e ∈ events, e.eventId = a) ∧ (buildCausalGraph events).Causes a b := by
    rintro b ⟨e, he, rfl⟩
    cases hid : e.causationId with
    | none => exact .inl ⟨e, he, rfl, hid⟩
    | some id =>
      exact .inr ⟨id, (h.names e he).known id hid, causes_iff.mpr ⟨e, he, rfl, hid⟩⟩
  obtain ⟨a, _, ⟨e₀, he₀, rfl, hnone⟩, hpath⟩ :=
    Causality.exists_root id (fun _ _ => h.lt_of_causes) hcause ⟨e, he, rfl⟩
  exact ⟨e₀, he₀, hnone, hpath⟩

end Traced

/-! ## The causes and the graph of a cycle -/

/-- Each event has no cause or names another of the events that was created before it. -/
def CausedEarlier (events : List EventEnvelope) : Prop :=
  ∀ e ∈ events, ∀ id, e.causationId = some id →
    ∃ e' ∈ events, e' ≠ e ∧ e'.eventId = id ∧ e'.eventId < e.eventId

/-- The causal graph of the events has no cycle, and each event is reached from one without a cause,
which is a root of the graph. -/
structure RootedGraph (events : List EventEnvelope) : Prop where
  acyclic : ∀ id, ¬ Relation.TransGen (buildCausalGraph events).Causes id id
  reached : ∀ e ∈ events, ∃ e₀ ∈ events, e₀.causationId = none ∧
    e₀.eventId ∈ (buildCausalGraph events).roots ∧
    Relation.ReflTransGen (buildCausalGraph events).Causes e₀.eventId e.eventId

theorem Traced.causedEarlier {emits : Bool} {u u' : ℕ} {events : List EventEnvelope}
    (h : Traced emits u u' events) : CausedEarlier events := by
  intro e he id hid
  obtain ⟨e', he', rfl⟩ := (h.names e he).known id hid
  have hlt := h.earlier e he _ hid
  exact ⟨e', he', fun heq => Nat.lt_irrefl _ (heq ▸ hlt), rfl, hlt⟩

theorem Traced.rootedGraph {emits : Bool} {u u' : ℕ} {events : List EventEnvelope}
    (h : Traced emits u u' events) : RootedGraph events where
  acyclic := Causality.acyclic id fun _ _ => h.lt_of_causes
  reached e he := by
    obtain ⟨e₀, he₀, hnone, hpath⟩ := h.exists_root he
    exact ⟨e₀, he₀, hnone, h.mem_roots he₀ hnone, hpath⟩

/-- The events a cycle publishes when it returns are caused by earlier ones of the same cycle, if by
any, and have a rooted causal graph in whatever order they are listed. -/
theorem runCycle_causal {rt rt' : PlatformRuntime} {call : CycleCall} {result : CycleResult}
    (h : rt.runCycle call = (.ok result, rt')) :
    rt'.published = rt.published ++ result.events ∧ CausedEarlier result.events ∧
      ∀ events : List EventEnvelope, events.Perm result.events → RootedGraph events := by
  obtain ⟨htraced, hpublished⟩ := PlatformRuntime.runCycle_traced h
  exact ⟨hpublished, htraced.causedEarlier, fun events hperm => (htraced.perm hperm).rootedGraph⟩

/-- A runtime that trades at the close and publishes every event. -/
def RuntimeSetup.soloEmitting : RuntimeSetup := { RuntimeSetup.solo .close with emitEvents := true }

/-- A cycle that buys at the close publishes twelve events, from the candle to the position. -/
theorem runCycle_causal_solo : ∃ result rt',
    RuntimeSetup.soloEmitting.start.runCycle (.flat "BTC/USDT" 0 100 .buy) = (.ok result, rt') ∧
    result.events.length = 12 ∧ CausedEarlier result.events ∧ RootedGraph result.events := by
  have hlength : (RuntimeSetup.soloEmitting.start.runCycle
      (.flat "BTC/USDT" 0 100 .buy)).1.toOption.map (·.events.length) = some 12 := by
    decide +kernel
  cases hrun : RuntimeSetup.soloEmitting.start.runCycle (.flat "BTC/USDT" 0 100 .buy) with
  | mk outcome rt' =>
  rw [hrun] at hlength
  cases outcome with
  | error e => cases hlength
  | ok result =>
    obtain ⟨_, hcaused, hgraph⟩ := runCycle_causal hrun
    exact ⟨result, rt', rfl, Option.some.inj hlength, hcaused, hgraph _ (.refl _)⟩

end TradingPlatform
