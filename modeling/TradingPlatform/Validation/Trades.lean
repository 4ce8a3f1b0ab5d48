import TradingPlatform.Validation.Deals

/-!
# The trade ledger

`build_trade_ledger` makes a row for each `POSITION_CLOSED` event and completes it with what a
dictionary of the openings has under the position's id. Of the events of a run the rows are the
closes that the store has booked, in their order, and each has the terms of its own opening.
-/

namespace TradingPlatform

/-! ## The rows -/

/-- What `build_trade_ledger` keeps of a `POSITION_OPENED` event. -/
structure OpenInfo where
  symbol : String
  side : PositionSide
  entryPrice : ℚ
  stopLoss : Option ℚ
  takeProfit : Option ℚ
  quantity : ℚ
  entryTime : ℤ
  deriving DecidableEq, Repr

/-- A row of the ledger. -/
structure TradeRow where
  positionId : ℕ
  symbol : String
  side : PositionSide
  entryPrice : ℚ
  exitPrice : ℚ
  stopLoss : Option ℚ
  takeProfit : Option ℚ
  quantity : ℚ
  exitReason : ExitReason
  pnl : ℚ
  returnPct : ℚ
  barsHeld : ℕ
  entryTime : Option ℤ
  exitTime : ℤ
  win : Bool
  deriving DecidableEq, Repr

/-- `a or b` of two numbers, where 0 counts as missing. -/
def orElse (a b : Option ℚ) : Option ℚ :=
  match a with
  | some x => if x = 0 then b else some x
  | none => b

/-- The dictionary of the openings, by position. -/
def openedInfo (events : List EventEnvelope) : Dict ℕ OpenInfo :=
  events.foldl (fun opened e => match e.payload with
    | .positionOpened positionId _ position => opened.set positionId {
        symbol := e.symbol
        side := position.side
        entryPrice := position.entryPrice
        stopLoss := position.stopLoss
        takeProfit := position.takeProfit
        quantity := position.quantity
        entryTime := e.eventTime }
    | _ => opened) ∅

/-- The row of a close. -/
def tradeRow (opened : Dict ℕ OpenInfo) (symbol : String) (exitTime : ℤ) (payload : ClosedPayload) :
    TradeRow :=
  let openInfo := opened.get? payload.positionId
  let entryPrice := (orElse (some payload.entryPrice) (openInfo.map (·.entryPrice))).getD 0
  let quantity := (orElse (some payload.quantity) (openInfo.map (·.quantity))).getD 0
  let notional := entryPrice * quantity
  { positionId := payload.positionId
    symbol, entryPrice, quantity, exitTime
    side := payload.side
    exitPrice := payload.exitPrice
    stopLoss := orElse payload.stopLoss (openInfo.bind (·.stopLoss))
    takeProfit := orElse payload.takeProfit (openInfo.bind (·.takeProfit))
    exitReason := payload.exitReason
    pnl := payload.pnl
    returnPct := if 0 < notional then payload.pnl / notional * 100 else 0
    barsHeld := payload.barsHeld
    entryTime := openInfo.map (·.entryTime)
    win := decide (0 < payload.pnl) }

/-- `build_trade_ledger` -/
def buildTradeLedger (events : List EventEnvelope) : List TradeRow :=
  events.filterMap fun e => match e.payload with
    | .positionClosed payload => some (tradeRow (openedInfo events) e.symbol e.eventTime payload)
    | _ => none

variable {events : List EventEnvelope}

/-- The results of the rows are those that the metrics are computed from. -/
theorem pnl_buildTradeLedger : (buildTradeLedger events).map (·.pnl) =
    (eventsOfType .positionClosed events).map (·.pnl) := by
  have hread : ∀ opened (es : List EventEnvelope), (es.filterMap fun e => match e.payload with
      | .positionClosed payload => some (tradeRow opened e.symbol e.eventTime payload)
      | _ => none).map (·.pnl) = (eventsOfType .positionClosed es).map (·.pnl) := by
    intro opened es
    induction es with
    | nil => rfl
    | cons e es ih =>
      cases hpay : e.payload <;>
        simp [eventsOfType, EventEnvelope.eventType, Payload.eventType, EventEnvelope.pnl,
          tradeRow, hpay] at ih ⊢ <;> exact ih
  exact hread _ _

/-- A number and itself, in case it counts as missing. -/
theorem getD_orElse_self (x : ℚ) : (orElse (some x) (some x)).getD 0 = x := by
  by_cases hx : x = 0 <;> simp [orElse, hx]

theorem orElse_self (a : Option ℚ) : orElse a a = a := by
  cases a with
  | none => rfl
  | some x => by_cases hx : x = 0 <;> simp [orElse, hx]

/-! ## The dictionary of the openings -/

/-- What an opening puts into the dictionary. -/
def Deal.openInfo? : Deal → Option (ℕ × OpenInfo)
  | .opened positionId symbol time position => some (positionId, {
      symbol
      side := position.side
      entryPrice := position.entryPrice
      stopLoss := position.stopLoss
      takeProfit := position.takeProfit
      quantity := position.quantity
      entryTime := time })
  | .closed _ _ _ => none

theorem openedInfo_eq_foldl : openedInfo events =
    ((deals events).filterMap (·.openInfo?)).foldl (fun opened e => opened.set e.1 e.2) ∅ := by
  unfold openedInfo
  generalize (∅ : Dict ℕ OpenInfo) = opened
  induction events generalizing opened with
  | nil => rfl
  | cons e events ih =>
    have hcons : deals (e :: events) = e.deal?.toList ++ deals events := by
      unfold deals
      cases hdeal : e.deal? <;> simp [hdeal]
    rw [List.foldl_cons, ih, hcons, List.filterMap_append, List.foldl_append]
    unfold EventEnvelope.deal?
    cases e.payload <;> rfl

/-- A key that is set to one value only has that value at the end. -/
theorem get?_foldl_set_of_one {κ ν : Type} [DecidableEq κ] {entries : List (κ × ν)} {k : κ} {v : ν}
    (hmem : (k, v) ∈ entries) (hone : ∀ v', (k, v') ∈ entries → v' = v) (d : Dict κ ν) :
    (entries.foldl (fun d e => d.set e.1 e.2) d).get? k = some v := by
  induction entries using List.reverseRecOn with
  | nil => cases hmem
  | append_singleton entries e ih =>
    rw [List.foldl_append, List.foldl_cons, List.foldl_nil, Dict.get?_set]
    split
    · next hkey =>
      have hlast : (k, e.2) ∈ entries ++ [e] := by
        rw [← hkey]
        exact List.mem_append_right _ (List.mem_singleton_self e)
      rw [hone _ hlast]
    · next hkey =>
      refine ih ?_ fun v' hv' => hone v' (List.mem_append_left _ hv')
      rcases List.mem_append.mp hmem with hmem | hmem
      · exact hmem
      · exact absurd (congrArg Prod.fst (List.mem_singleton.mp hmem)).symm hkey

section Lawful

variable {fillModel : FillModel} {config : ValidationExecutionConfig}

/-- Openings under one id are one and the same. -/
theorem opened_unique {log : List Deal} (hlawful : Follows (Deal.Lawful fillModel config) log)
    {positionId : ℕ} {symbol symbol' : String} {time time' : ℤ} {p p' : PositionState}
    (h : .opened positionId symbol time p ∈ log) (h' : .opened positionId symbol' time' p' ∈ log) :
    Deal.opened positionId symbol time p = .opened positionId symbol' time' p' := by
  refine hlawful.unique h h' ?_ ?_
  · intro before hbefore hfollows
    exact hfollows.2.2.2 _ hbefore rfl
  · intro before hbefore hfollows
    exact hfollows.2.2.2 _ hbefore rfl

/-- The dictionary has the opening of each position. -/
theorem get?_openedInfo (hlawful : Follows (Deal.Lawful fillModel config) (deals events))
    {positionId : ℕ} {symbol : String} {time : ℤ} {p : PositionState}
    (h : .opened positionId symbol time p ∈ deals events) :
    (openedInfo events).get? positionId = some {
      symbol
      side := p.side
      entryPrice := p.entryPrice
      stopLoss := p.stopLoss
      takeProfit := p.takeProfit
      quantity := p.quantity
      entryTime := time } := by
  rw [openedInfo_eq_foldl]
  refine get?_foldl_set_of_one (List.mem_filterMap.mpr ⟨_, h, rfl⟩) (fun info hinfo => ?_) ∅
  obtain ⟨d, hd, hdinfo⟩ := List.mem_filterMap.mp hinfo
  cases d with
  | closed => cases hdinfo
  | opened id symbol' time' p' =>
    obtain ⟨rfl, rfl⟩ := Prod.mk.inj (Option.some.inj hdinfo)
    obtain ⟨-, rfl, rfl, rfl⟩ := Deal.opened.inj (opened_unique hlawful h hd)
    rfl

end Lawful

/-! ## The ledger of a run -/

/-- The row of a position that the event opens: the terms of the opening, the result that these and
the exit give, and the bars counted for it. -/
structure TradeRow.Completes (fillModel : FillModel) (config : ValidationExecutionConfig)
    (opening : EventEnvelope) (position : PositionState) (row : TradeRow) : Prop where
  opened : ∃ fillId, opening.payload = .positionOpened row.positionId fillId position
  symbol : row.symbol = opening.symbol
  entryTime : row.entryTime = some opening.eventTime
  side : row.side = position.side
  entryPrice : row.entryPrice = position.entryPrice
  quantity : row.quantity = position.quantity
  stopLoss : row.stopLoss = position.stopLoss
  takeProfit : row.takeProfit = position.takeProfit
  pnl : row.pnl = position.grossPnl row.exitPrice -
    row.exitPrice * row.quantity * fillModel.feeBps / 10000
  barsHeld : row.barsHeld ≤ config.maxBarsInTrade
  timeout : row.exitReason = .timeout → row.barsHeld = config.maxBarsInTrade

theorem completes_tradeRow {fillModel : FillModel} {config : ValidationExecutionConfig}
    (hlawful : Follows (Deal.Lawful fillModel config) (deals events)) {row : TradeRow}
    (hrow : row ∈ buildTradeLedger events) :
    ∃ opening ∈ events, ∃ position, row.Completes fillModel config opening position := by
  obtain ⟨e, he, hrow⟩ := List.mem_filterMap.mp hrow
  cases hpay : e.payload with
  | positionClosed payload =>
    rw [hpay] at hrow
    obtain rfl := Option.some.inj hrow
    have hdeal : .closed e.symbol e.eventTime payload ∈ deals events :=
      List.mem_filterMap.mpr ⟨e, he, by rw [EventEnvelope.deal?, hpay]⟩
    obtain ⟨before, hsub, -, time, position, hopened, hsettles⟩ := hlawful.exists_before hdeal
    obtain ⟨opening, hmem, hopening⟩ := List.mem_filterMap.mp (hsub hopened)
    have hinfo := get?_openedInfo hlawful (hsub hopened)
    refine ⟨opening, hmem, position, ?_⟩
    unfold EventEnvelope.deal? at hopening
    cases hpayload : opening.payload with
    | positionOpened positionId fillId position' =>
      rw [hpayload] at hopening
      obtain ⟨rfl, hsymbol, htime, rfl⟩ := Deal.opened.inj (Option.some.inj hopening)
      have hentry : (tradeRow (openedInfo events) e.symbol e.eventTime payload).entryPrice =
          payload.entryPrice := by
        simp only [tradeRow, hinfo, Option.map_some, ← hsettles.entryPrice, getD_orElse_self]
      have hquantity : (tradeRow (openedInfo events) e.symbol e.eventTime payload).quantity =
          payload.quantity := by
        simp only [tradeRow, hinfo, Option.map_some, ← hsettles.quantity, getD_orElse_self]
      constructor
      · exact ⟨fillId, hpayload⟩
      · exact hsymbol.symm
      · simp only [tradeRow, hinfo, Option.map_some, htime]
      · exact hsettles.side
      · exact hentry.trans hsettles.entryPrice
      · exact hquantity.trans hsettles.quantity
      · simp only [tradeRow, hinfo, Option.bind_some, ← hsettles.stopLoss, orElse_self]
      · simp only [tradeRow, hinfo, Option.bind_some, ← hsettles.takeProfit, orElse_self]
      · rw [hquantity]
        exact hsettles.pnl
      · exact hsettles.barsHeld
      · exact hsettles.timeout
    | _ =>
      rw [hpayload] at hopening
      cases hopening
  | _ =>
    rw [hpay] at hrow
    cases hrow

/-- The position that a trade closes. -/
def Trade.closedId? : Trade → Option ℕ
  | .opened _ _ => none
  | .closed positionId _ => some positionId

theorem closedIds_eq_madeTrades {ts : List StateTransitionEvent} :
    closedIds ts = (madeTrades ts).filterMap Trade.closedId? := by
  unfold closedIds madeTrades
  rw [List.filterMap_filterMap]
  refine List.filterMap_congr fun t _ => ?_
  unfold StateTransitionEvent.closedId?
  cases t.payload <;> rfl

/-- The rows are the closes reported, in their order. -/
theorem positionId_buildTradeLedger : (buildTradeLedger events).map (·.positionId) =
    (reportedTrades events).filterMap Trade.closedId? := by
  unfold buildTradeLedger reportedTrades
  rw [List.map_filterMap, List.filterMap_filterMap]
  refine List.filterMap_congr fun e _ => ?_
  cases e.payload <;> rfl

/-- The ledger of a run of cycles that return and of liquidations has one row for each position that
the store has closed, in the order of the closes. Each row has the terms of the one event that has
opened its position; its result is what these terms and the exit give, net of the fee of the exit,
and the rows together have the result that the store has realised. No position has been held for
more bars than the limit, and one that has timed out for exactly these. -/
theorem buildTradeLedger_run {setup : RuntimeSetup} {ops : List PlatformRuntime.RuntimeOp}
    (execution : ExecutionSetup) (hexecution : setup.execution = some execution)
    (hreturns : Run.Along PlatformRuntime.operate PlatformRuntime.Returns setup.start ops) :
    let rt := setup.after ops
    let trades := buildTradeLedger rt.published
    trades.map (·.positionId) = closedIds rt.transitions ∧ (closedIds rt.transitions).Nodup ∧
    (trades.map (·.pnl)).sum = rt.stateStore.portfolio.realizedPnl ∧
    ∀ row ∈ trades, ∃ opening ∈ rt.published, ∃ position,
      row.Completes execution.fillModel execution.config opening position := by
  intro rt trades
  have hread : rt.ReadBack setup.start.stateStore :=
    hreturns.exec_inv (I := fun rt => rt.ReadBack setup.start.stateStore)
      (fun _ _ h hop => h.operate hop) ⟨rfl, rfl⟩
  have htraded : PlatformRuntime.Traded setup.start.stateStore rt :=
    hreturns.exec_inv (I := fun rt => PlatformRuntime.Traded setup.start.stateStore rt)
      (fun _ op h _ => h.operate op) (.start setup)
  refine ⟨?_, htraded.inStep.closedOnce, ?_, fun row hrow => ?_⟩
  · rw [positionId_buildTradeLedger, hread.reported, closedIds_eq_madeTrades]
  · rw [pnl_buildTradeLedger, sum_pnl_positionClosed, hread.reported, htraded.stateStore,
      realizedPnl_exec htraded.produced]
    exact (zero_add _).symm
  · exact completes_tradeRow (deals_lawful execution hexecution hreturns) hrow

/-- A position bought at the open and sold at the end of the run. -/
theorem buildTradeLedger_run_soloQueueing : ∃ execution : ExecutionSetup,
    let rt := RuntimeSetup.soloQueueing.after boughtAndLiquidated
    let trades := buildTradeLedger rt.published
    (trades.map fun row => (row.symbol, row.exitReason, row.barsHeld)) =
      [("BTC/USDT", .endOfRun, 0)] ∧
    trades.map (·.positionId) = closedIds rt.transitions ∧ (closedIds rt.transitions).Nodup ∧
    (trades.map (·.pnl)).sum = rt.stateStore.portfolio.realizedPnl ∧
    ∀ row ∈ trades, ∃ opening ∈ rt.published, ∃ position,
      row.Completes execution.fillModel execution.config opening position := by
  refine ⟨_, by decide +kernel, buildTradeLedger_run _ rfl ⟨PlatformRuntime.returns_cycle ?_,
    PlatformRuntime.returns_cycle ?_, trivial, trivial⟩⟩
  · decide +kernel
  · decide +kernel

end TradingPlatform
