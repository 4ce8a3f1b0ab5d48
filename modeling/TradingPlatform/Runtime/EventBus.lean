import TradingPlatform.Events

/-!
# The event bus

`InMemoryEventBus` and `RedisEventBus` append an event to their record and then hand it to their
subscribers in order, Redis first. What a subscriber raises ends the `publish_many` it is raised in:
the event at hand is on the record, the later ones are not published.
-/

namespace TradingPlatform

/-- An event handler as it behaves during a call. -/
structure EventHandler where
  eventTypes : List EventType := []
  handle : EventEnvelope → Except PyError Unit

/-- `InMemoryEventBus`, or with `redis` the `RedisEventBus`, as it behaves during a call. -/
structure EventBus where
  redis : Option (EventEnvelope → Except PyError Unit) := none
  handlers : List EventHandler := []

/-- The handler is called for the event: it names no types, or that of the event. -/
def EventHandler.handles (handler : EventHandler) (event : EventEnvelope) : Bool :=
  handler.eventTypes.isEmpty || handler.eventTypes.contains event.eventType

namespace EventBus

variable (bus : EventBus)

/-- `_dispatch` -/
def dispatch (event : EventEnvelope) : Except PyError Unit :=
  (bus.handlers.filter (·.handles event)).forM (·.handle event)

/-- `publish` after the event has been appended to `_published`. -/
def deliver (event : EventEnvelope) : Except PyError Unit := do
  if let some publish := bus.redis then publish event
  bus.dispatch event

/-- `publish_many`, with the events it has appended to `_published`. -/
def publishMany : List EventEnvelope → Except PyError Unit × List EventEnvelope
  | [] => (.ok (), [])
  | event :: rest =>
    match bus.deliver event with
    | .error e => (.error e, [event])
    | .ok () =>
      let (outcome, sent) := publishMany rest
      (outcome, event :: sent)

/-- No subscriber raises on the event. -/
def delivers (event : EventEnvelope) : Bool := (bus.deliver event).isOk

/-- The events from the first one on which a subscriber raises. -/
def unheard (events : List EventEnvelope) : List EventEnvelope := events.dropWhile bus.delivers

variable {bus} {event : EventEnvelope} {events : List EventEnvelope}

theorem delivers_iff : bus.delivers event = true ↔ bus.deliver event = .ok () := by
  unfold delivers
  cases bus.deliver event with
  | error e => exact ⟨nofun, nofun⟩
  | ok _ => exact ⟨fun _ => rfl, fun _ => rfl⟩

/-- What is published and handled by every subscriber are the events before the first one on which
one of them raises. -/
theorem filter_publishMany :
    (bus.publishMany events).2.filter bus.delivers = events.takeWhile bus.delivers := by
  induction events with
  | nil => rfl
  | cons event rest ih =>
    cases hdeliver : bus.deliver event with
    | error e =>
      have hraises : bus.delivers event = false := by rw [delivers, hdeliver]; rfl
      simp only [publishMany, hdeliver, List.takeWhile_cons, List.filter_cons, List.filter_nil,
        hraises, Bool.false_eq_true, if_false]
    | ok _ =>
      have hdelivers : bus.delivers event = true := delivers_iff.mpr hdeliver
      simp only [publishMany, hdeliver, List.takeWhile_cons, List.filter_cons, hdelivers, if_true,
        ih]

/-- Where no subscriber raises, everything is published. -/
theorem publishMany_of_delivers (h : ∀ event ∈ events, bus.delivers event = true) :
    bus.publishMany events = (.ok (), events) := by
  induction events with
  | nil => rfl
  | cons event rest ih =>
    obtain ⟨hevent, hrest⟩ := List.forall_mem_cons.mp h
    simp only [publishMany, delivers_iff.mp hevent, ih hrest]

end EventBus

end TradingPlatform
