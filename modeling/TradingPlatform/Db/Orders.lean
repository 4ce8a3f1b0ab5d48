import TradingPlatform.Execution.OrderFlow
import TradingPlatform.Lib.Outcome

/-!
# The tables of orders and fills

`db/repositories/order.py` writes a row for every submitted order and for every fill. Each table has
a primary key, so writing an order or a fill twice raises. The rows of a reconciled log are written
without an error, and they reconcile.
-/

namespace TradingPlatform

open OrderLog

structure OrderRow where
  orderId : OrderId
  intentId : ℕ
  decisionId : ℕ
  correlationId : CorrelationId
  status : String
  venue : String
  payload : Payload
  createdAt : ℤ

structure FillRow where
  fillId : ℕ
  orderId : OrderId
  price : ℚ
  quantity : ℚ
  fee : ℚ
  slippageBps : ℚ
  fillTime : ℤ
  fillModelId : String
  createdAt : ℤ

/-- The two tables under their primary keys. -/
structure OrderTables where
  orders : Dict OrderId OrderRow := ∅
  fills : Dict ℕ FillRow := ∅

namespace OrderTables

variable (tables : OrderTables)

/-- `persist_order`, and the commit. A new order of the simulator has its status and its venue. -/
def persistOrder (event : EventEnvelope) (order : Order) (decisionId : ℕ) :
    Except PyError OrderTables :=
  if order.orderId ∈ tables.orders.keys then .error (.raised "IntegrityError")
  else
    let row : OrderRow := {
      decisionId
      orderId := order.orderId
      intentId := order.intentId
      correlationId := event.correlationId
      status := "submitted"
      venue := "simulator"
      payload := event.payload
      createdAt := event.processingTime }
    .ok { tables with orders := tables.orders.set order.orderId row }

/-- `persist_fill` at the time `now`, and the commit. -/
def persistFill (now : ℤ) (fill : Fill) (fillModelId : String) : Except PyError OrderTables :=
  if fill.fillId ∈ tables.fills.keys then .error (.raised "IntegrityError")
  else
    let row : FillRow := {
      fillModelId
      fillId := fill.fillId
      orderId := fill.orderId
      price := fill.price
      quantity := fill.quantity
      fee := fill.fee
      slippageBps := fill.slippageBps
      fillTime := fill.fillTime
      createdAt := now }
    .ok { tables with fills := tables.fills.set fill.fillId row }

/-- `persist_execution_event` -/
def persistExecutionEvent (now : EventEnvelope → ℤ) (event : EventEnvelope) :
    Except PyError OrderTables :=
  match event.payload with
  | .orderSubmitted order decisionId => tables.persistOrder event order decisionId
  | .fillReceived fill fillModelId _ => tables.persistFill (now event) fill fillModelId
  | _ => .ok tables

/-- One event after another. -/
def persistAll (now : EventEnvelope → ℤ) (events : List EventEnvelope) :
    Except PyError OrderTables :=
  events.foldlM (fun tables event => tables.persistExecutionEvent now event) tables

/-! ## What the rows say -/

/-- The rows of the tables are those that the log says, in its order. -/
structure Shows (tables : OrderTables) (log : List (Entry OrderId ℕ ℕ ℚ)) : Prop where
  orders : tables.orders.keys = log.filterMap (·.order?)
  keys : tables.fills.keys = (log.filterMap (·.fill?)).map (·.1)
  fills : tables.fills.values.map (fun row => (row.fillId, row.orderId, row.quantity)) =
    log.filterMap (·.fill?)

/-- Every fill has its order in the other table, an order has two fills at most, and all the fills
of an order are of one quantity. -/
structure Reconcile (tables : OrderTables) : Prop where
  known : ∀ row ∈ tables.fills.values, row.orderId ∈ tables.orders.keys
  two : ∀ orderId, (tables.fills.values.filter (·.orderId = orderId)).length ≤ 2
  quantity : ∀ row ∈ tables.fills.values, ∀ row' ∈ tables.fills.values,
    row.orderId = row'.orderId → row.quantity = row'.quantity

variable {tables} {log : List (Entry OrderId ℕ ℕ ℚ)} {events : List EventEnvelope}
  {now : EventEnvelope → ℤ} {e : EventEnvelope}

theorem Shows.silent (h : Shows tables log) {more : List (Entry OrderId ℕ ℕ ℚ)}
    (hmore : ∀ entry ∈ more, entry.order? = none ∧ entry.fill? = none) :
    Shows tables (log ++ more) := by
  have horders : more.filterMap (·.order?) = [] :=
    List.filterMap_eq_nil_iff.mpr fun entry hentry => (hmore entry hentry).1
  have hfills : more.filterMap (·.fill?) = [] :=
    List.filterMap_eq_nil_iff.mpr fun entry hentry => (hmore entry hentry).2
  constructor
  · rw [List.filterMap_append, horders, List.append_nil, h.orders]
  · rw [List.filterMap_append, hfills, List.append_nil, h.keys]
  · rw [List.filterMap_append, hfills, List.append_nil, h.fills]

/-- A new order is written. -/
theorem Shows.persistOrder (h : Shows tables log) {order : Order} {decisionId : ℕ}
    (hnew : .submitted order.orderId ∉ log) :
    ∃ tables', tables.persistOrder e order decisionId = .ok tables' ∧
      Shows tables' (log ++ [.submitted order.orderId]) := by
  have hkey : order.orderId ∉ tables.orders.keys := by
    rw [h.orders, mem_orders]
    exact hnew
  refine ⟨_, if_neg hkey, ?_⟩
  constructor
  · rw [Dict.keys_set_of_not_mem hkey, h.orders, List.filterMap_append]
    rfl
  · rw [h.keys, List.filterMap_append, List.map_append]
    exact (List.append_nil _).symm
  · rw [h.fills, List.filterMap_append]
    exact (List.append_nil _).symm

/-- A new fill is written. -/
theorem Shows.persistFill (h : Shows tables log) {fill : Fill} {fillModelId : String} {time : ℤ}
    {exit : Bool} (hnew : Unused log fill.fillId) :
    ∃ tables', tables.persistFill time fill fillModelId = .ok tables' ∧
      Shows tables' (log ++ [.filled fill.orderId fill.fillId fill.quantity exit]) := by
  have hkey : fill.fillId ∉ tables.fills.keys := by
    rw [h.keys]
    intro hmem
    obtain ⟨⟨fillId, orderId, quantity⟩, hfill, rfl⟩ := List.mem_map.mp hmem
    obtain ⟨exit', hentry⟩ := mem_fills.mp hfill
    exact hnew.filled _ _ _ hentry
  refine ⟨_, if_neg hkey, ?_⟩
  constructor
  · rw [h.orders, List.filterMap_append]
    exact (List.append_nil _).symm
  · rw [Dict.keys_set_of_not_mem hkey, h.keys, List.filterMap_append, List.map_append]
    rfl
  · rw [Dict.values, Dict.entries_set_of_not_mem hkey, List.map_append, List.map_append,
      ← Dict.values, h.fills, List.filterMap_append]
    rfl

/-- The next event of a log is written. -/
theorem Shows.persist (h : Shows tables log)
    (he : ∀ entry, e.logged? = some entry → Justified log entry) :
    ∃ tables', tables.persistExecutionEvent now e = .ok tables' ∧
      Shows tables' (log ++ orderLog [e]) := by
  unfold persistExecutionEvent
  cases hpayload : e.payload with
  | orderSubmitted order decisionId =>
    have hentry : e.logged? = some (.submitted order.orderId) := by
      rw [EventEnvelope.logged?, hpayload]
    rw [orderLog_singleton hentry]
    exact h.persistOrder (he _ hentry)
  | fillReceived fill fillModelId exit =>
    have hentry : e.logged? = some (.filled fill.orderId fill.fillId fill.quantity exit) := by
      rw [EventEnvelope.logged?, hpayload]
    rw [orderLog_singleton hentry]
    exact h.persistFill (he _ hentry).2.1
  | _ =>
    refine ⟨tables, rfl, h.silent fun entry hentry => ?_⟩
    obtain ⟨e', he', hentry'⟩ := List.mem_filterMap.mp hentry
    rw [List.mem_singleton.mp he', EventEnvelope.logged?, hpayload] at hentry'
    cases hentry'
    try exact ⟨rfl, rfl⟩

/-- All the events of a log are written. -/
theorem persistAll_shows (now : EventEnvelope → ℤ)
    (h : Follows (fun before e => ∀ entry, e.logged? = some entry →
      Justified (orderLog before) entry) events) :
    ∃ tables, persistAll {} now events = .ok tables ∧ Shows tables (orderLog events) := by
  induction events using List.reverseRecOn with
  | nil => exact ⟨{}, rfl, rfl, rfl, rfl⟩
  | append_singleton events e ih =>
    obtain ⟨tables, hok, hshows⟩ := ih h.init
    obtain ⟨tables', hok', hshows'⟩ : ∃ tables', tables.persistExecutionEvent now e = .ok tables' ∧
        Shows tables' (orderLog events ++ orderLog [e]) := hshows.persist h.last
    refine ⟨tables', ?_, ?_⟩
    · rw [persistAll, List.foldlM_append]
      refine Except.bind_eq_ok.mpr ⟨tables, hok, ?_⟩
      rw [List.foldlM_cons, hok']
      rfl
    · rwa [orderLog_append]

theorem Shows.reconcile (h : Shows tables log) (hlog : Follows Justified log) :
    tables.Reconcile := by
  have hmem : ∀ row ∈ tables.fills.values, ∃ exit,
      .filled row.orderId row.fillId row.quantity exit ∈ log := by
    intro row hrow
    have hfill := List.mem_map_of_mem
      (f := fun row : FillRow => (row.fillId, row.orderId, row.quantity)) hrow
    rw [h.fills] at hfill
    exact mem_fills.mp hfill
  constructor
  · intro row hrow
    obtain ⟨exit, hfilled⟩ := hmem row hrow
    rw [h.orders, mem_orders]
    exact submitted_of_filled hlog hfilled
  · intro orderId
    have hcount : (tables.fills.values.filter (·.orderId = orderId)).length =
        (log.filterMap (·.fill?)).countP (fun fill => decide (fill.2.1 = orderId)) := by
      rw [← h.fills, List.countP_map, List.countP_eq_length_filter]
      rfl
    have hin := countP_fills_le_one hlog orderId false
    have hout := countP_fills_le_one hlog orderId true
    rw [hcount, countP_fill?]
    omega
  · intro row hrow row' hrow' heq
    obtain ⟨exit, hfilled⟩ := hmem row hrow
    obtain ⟨exit', hfilled'⟩ := hmem row' hrow'
    rw [← heq] at hfilled'
    exact quantity_unique hlog hfilled hfilled'

end OrderTables

end TradingPlatform
