import TradingPlatform.Runtime.BookRule
import TradingPlatform.Runtime.Direction
import TradingPlatform.Validation.RoundTrips

/-!
# No position outlives the limit of bars

Every cycle of a symbol that gets a bar counts it for each open position of the symbol, whatever
becomes of the cycle afterwards. So a position is gone after as many such cycles as
`max_bars_in_trade` allows, in between any cycles of other symbols, and it does not come back.
-/

namespace TradingPlatform

open InMemoryStateStore SimulatedExecutionEngine

namespace SimulatedExecutionEngine

variable {engine : SimulatedExecutionEngine} {bar : Bar} {c : EventCtx} {u : ℕ}

theorem barsHeld_of_get? {engine' : SimulatedExecutionEngine} {p : PositionState}
    {incrementBars : Bool}
    (h : engine'.positionBars.get? p.positionId = engine.positionBars.get? p.positionId) :
    engine'.barsHeld p incrementBars = engine.barsHeld p incrementBars := by
  unfold barsHeld Dict.getD
  rw [h]

/-- What a pass records for a position of the symbol that it keeps are the bars it has counted. -/
theorem bars_evaluatePositions (bar : Bar) (c : EventCtx) (approvedSide : Option Side)
    (incrementBars : Bool) (positions : List PositionState) (engine : SimulatedExecutionEngine)
    (u : ℕ) (hnd : (positions.map (·.positionId)).Nodup) :
    let engine' := (evaluatePositions bar c approvedSide incrementBars engine positions u).1.engine
    ∀ p ∈ positions, p.symbol = c.symbol → ∀ n, engine'.positionBars.get? p.positionId = some n →
      n = engine.barsHeld p incrementBars := by
  induction positions generalizing engine u with
  | nil => exact fun p hp => absurd hp List.not_mem_nil
  | cons position rest ih =>
    obtain ⟨hnew, hrest⟩ := List.nodup_cons.mp hnd
    have hne : ∀ p ∈ rest, p.positionId ≠ position.positionId := fun p hp heq =>
      hnew (List.mem_map.mpr ⟨p, hp, heq⟩)
    by_cases hsym : position.symbol = c.symbol
    · cases hexit : (engine.countBar position incrementBars).checkExit position bar
          (engine.barsHeld position incrementBars) approvedSide incrementBars with
      | none =>
        rw [evaluatePositions_cons_of_none hsym hexit]
        intro engine' p hp hsymp n hn
        rcases List.mem_cons.mp hp with rfl | hp
        · have hbars : engine'.positionBars.get? p.positionId =
              (engine.countBar p incrementBars).positionBars.get? p.positionId :=
            get?_evaluatePositions bar c approvedSide incrementBars rest _ u hnew
          rw [← getD_countBar, Dict.getD, ← hbars, hn, Option.getD_some]
        · have hsame : (engine.countBar position incrementBars).positionBars.get? p.positionId =
              engine.positionBars.get? p.positionId := get?_countBar_of_ne (hne p hp)
          rw [← barsHeld_of_get? hsame]
          exact ih _ u hrest p hp hsymp n hn
      | some exit =>
        obtain ⟨exitReason, exitPrice⟩ := exit
        rw [evaluatePositions_cons_of_some hsym hexit]
        intro engine' p hp hsymp n hn
        rcases List.mem_cons.mp hp with rfl | hp
        · have hbars : engine'.positionBars.get? p.positionId = _ :=
            get?_evaluatePositions bar c approvedSide incrementBars rest _ _ hnew
          have hgone := hn.symm.trans (hbars.trans Dict.get?_erase_self)
          cases hgone
        · let closed := (engine.countBar position incrementBars).closePosition position exitPrice
            exitReason c u
          have hsame : closed.1.engine.positionBars.get? p.positionId =
              engine.positionBars.get? p.positionId :=
            (get?_closePosition_of_ne (hne p hp)).trans (get?_countBar_of_ne (hne p hp))
          rw [← barsHeld_of_get? hsame]
          exact ih _ _ hrest p hp hsymp n hn
    · rw [evaluatePositions_cons_of_ne hsym]
      intro engine' p hp hsymp n hn
      rcases List.mem_cons.mp hp with rfl | hp
      · exact absurd hsymp hsym
      · exact ih _ u hrest p hp hsymp n hn

end SimulatedExecutionEngine

/-! ## Held positions -/

namespace Book

/-- The id of a position of the symbol; as long as the engine counts bars for it, it has counted
`bars` of them at least, and these are fewer than the limit. -/
structure Held (id : ℕ) (symbol : String) (limit bars : ℕ) (b : Book) : Prop where
  limit_eq : b.engine.config.maxBarsInTrade = limit
  drawn : id < b.uuid
  symbol_eq : ∀ p ∈ b.stateStore.portfolio.openPositions, p.positionId = id → p.symbol = symbol
  counted : ∀ n, b.engine.positionBars.get? id = some n → bars ≤ n ∧ bars < limit

variable {c : EventCtx} {b b' : Book} {ts : List StateTransitionEvent} {closed : List ℕ} {id : ℕ}
  {symbol : String} {limit bars : ℕ}

/-- Drawing identifiers does not touch a position. -/
theorem Held.draw {u : ℕ} (h : Held id symbol limit bars b) (hle : b.uuid ≤ u) :
    Held id symbol limit bars { b with uuid := u } := { h with drawn := h.drawn.trans_le hle }

theorem Held.countBar (h : Held id symbol limit bars b) (hc : Coupled closed b) {p : PositionState}
    (isOpen : p ∈ b.stateStore.portfolio.openPositions) (incrementBars : Bool) :
    Held id symbol limit bars { b with engine := b.engine.countBar p incrementBars } := by
  refine { h with limit_eq := ?_, counted := fun n hn => ?_ }
  · exact (sameQueue_countBar.config ▸ h.limit_eq :)
  · by_cases hid : id = p.positionId
    · subst hid
      have hkey : p.positionId ∈ b.engine.positionBars.keys := by
        rw [hc.bars]
        exact List.mem_map_of_mem isOpen
      obtain ⟨m, hm⟩ := Option.ne_none_iff_exists'.mp (Dict.mem_keys_iff.mp hkey)
      have hheld := getD_countBar b.engine p incrementBars
      rw [Dict.getD, hn, Option.getD_some, barsHeld, Dict.getD, hm, Option.getD_some] at hheld
      obtain ⟨hle, hlt⟩ := h.counted m hm
      exact ⟨by omega, hlt⟩
    · exact h.counted n ((get?_countBar_of_ne hid).symm.trans hn)

/-- Every move keeps what is known of a held position. -/
theorem Moves.held (h : Moves c b ts b') (hc : Coupled closed b)
    (hheld : Held id symbol limit bars b) : Held id symbol limit bars b' := by
  induction h generalizing closed with
  | refl => exact hheld
  | count isOpen incrementBars _ ih =>
    exact ih (hc.countBar isOpen incrementBars) (hheld.countBar hc isOpen incrementBars)
  | draw hle _ ih =>
    exact ih (hc.congr rfl rfl rfl hle) (hheld.draw hle)
  | queue _ ih => exact ih (hc.congr rfl rfl rfl le_rfl) { hheld with }
  | @«open» b _ _ order quantity side positionSide stopLoss takeProfit bar cause next filled
      hfilled _ ih =>
    refine ih (hc.open hfilled) ?_
    have hle : b.uuid ≤ filled.2 := hfilled ▸ le_openPosition_uuid
    subst hfilled
    obtain ⟨fill, _, _, hpay⟩ := openPosition_payload b.engine order quantity side positionSide
      stopLoss takeProfit bar c cause next b.uuid
    have hnew : id < b.engine.openedId b.uuid := hheld.drawn.trans_le le_openedId
    refine ⟨hheld.limit_eq, hheld.drawn.trans_le hle, ?_, ?_⟩
    · intro p hp hid
      rw [apply_positionOpened hpay] at hp
      rcases List.mem_append.mp hp with hold | hopened
      · exact hheld.symbol_eq p hold hid
      · rw [List.mem_singleton.mp hopened] at hid
        exact absurd hid.symm hnew.ne
    · intro n hn
      rw [positionBars_openPosition, Dict.get?_set_of_ne hnew.ne'] at hn
      exact hheld.counted n hn
  | @close b _ _ position exitPrice exitReason filled isOpen hfilled _ ih =>
    refine ih (hc.close isOpen hfilled) ?_
    have hle : b.uuid ≤ filled.2 := hfilled ▸ le_closePosition_uuid
    subst hfilled
    obtain ⟨fill, _, _, hpay⟩ :=
      closePosition_payload b.engine c b.uuid position exitPrice exitReason
    refine ⟨hheld.limit_eq, hheld.drawn.trans_le hle, ?_, ?_⟩
    · intro p hp hid
      rw [apply_positionClosed hpay, openPositions_applyPositionClosed] at hp
      exact hheld.symbol_eq p (Keyed.mem_remove.mp hp).1 hid
    · intro n hn
      by_cases hid : id = position.positionId
      · subst hid
        have hgone := hn.symm.trans Dict.get?_erase_self
        cases hgone
      · rw [get?_closePosition_of_ne hid] at hn
        exact hheld.counted n hn

theorem Moves.config (h : Moves c b ts b') : b'.engine.config = b.engine.config := by
  induction h with
  | refl => rfl
  | count _ _ _ ih => exact ih.trans sameQueue_countBar.config
  | draw _ _ ih => exact ih
  | queue _ ih => exact ih
  | «open» hfilled _ ih =>
    subst hfilled
    exact ih
  | close _ hfilled _ ih =>
    subst hfilled
    exact ih

variable {snapshot : StateSnapshot}

/-- A pass that counts the bar adds one to what is known of a position of the bar's symbol. -/
theorem Held.evaluateBar (bar : Bar) (h : Held id c.symbol limit bars b) (hc : Coupled closed b)
    (hsnap : snapshot.portfolio = b.stateStore.portfolio) :
    Held id c.symbol limit (bars + 1)
      (b.after (b.engine.evaluateBar bar snapshot c none true b.uuid)) := by
  let pass := b.engine.evaluateBar bar snapshot c none true b.uuid
  have hmoves : Moves c b pass.1.transitions (b.after pass) :=
    evaluateBar_moves bar none true b hc.nodup hsnap
  have hafter : Held id c.symbol limit bars (b.after pass) := hmoves.held hc h
  refine { hafter with counted := fun n hn => ?_ }
  have hn : pass.1.engine.positionBars.get? id = some n := hn
  -- the position is still open, and it was open before
  have hkey : id ∈ (b.after pass).stateStore.openIds := by
    rw [← (hmoves.coupled hc).bars]
    exact Dict.mem_keys_iff.mpr (hn ▸ Option.some_ne_none n)
  obtain ⟨p, hp, rfl⟩ := List.mem_map.mp hkey
  have hsym : p.symbol = c.symbol := hafter.symbol_eq p hp rfl
  have hold : p ∈ b.stateStore.portfolio.openPositions :=
    (hmoves.mem_openPositions hp).resolve_right (not_le.mpr h.drawn)
  have hlt : n < limit := by
    obtain ⟨m, hm, hlt⟩ := evaluateBar_belowLimit bar hc hsnap hp hsym
    have hm : pass.1.engine.positionBars.get? p.positionId = some m := hm
    obtain rfl := Option.some.inj (hm.symm.trans hn)
    exact h.limit_eq ▸ hlt
  -- the entries filled first leave its bars as they were
  let filled := fillEntries bar c b.engine b.engine.pendingEntries b.uuid
  have hfilled : Held p.positionId c.symbol limit bars (b.after filled) :=
    (fillEntries_moves bar b.engine.pendingEntries b).held hc h
  have hkeys : p.positionId ∈ filled.1.engine.positionBars.keys := by
    have hcoupled := (fillEntries_moves (c := c) bar b.engine.pendingEntries b).coupled hc
    have hopenings : ∀ t ∈ filled.1.transitions, t.IsOpening := fun t ht =>
      ((fillEntries_spec bar c b.engine.pendingEntries b.engine b.uuid).1.isOpening.2 t ht).1
    have hbars : filled.1.engine.positionBars.keys = _ := hcoupled.bars
    rw [hbars]
    exact List.mem_map_of_mem (mem_of_openings hopenings hold)
  obtain ⟨m, hm⟩ := Option.ne_none_iff_exists'.mp (Dict.mem_keys_iff.mp hkeys)
  have hle : bars ≤ m := (hfilled.counted m hm).1
  -- and the exit tests count this bar
  let drained : SimulatedExecutionEngine := { filled.1.engine with
    pendingEntries := b.engine.pendingEntries.filter (·.symbol ≠ c.symbol) }
  have hcount : n = drained.barsHeld p true := by
    have hnd : (snapshot.portfolio.openPositions.map (·.positionId)).Nodup := by
      rw [hsnap]
      exact hc.nodup
    exact bars_evaluatePositions bar c none true snapshot.portfolio.openPositions drained filled.2
      hnd p (hsnap ▸ hold) hsym n hn
  have hdrained : drained.positionBars.get? p.positionId = some m := hm
  rw [barsHeld, Dict.getD, hdrained, Option.getD_some, if_pos rfl] at hcount
  omega

end Book

/-- Bookkeeping changes the value of a position, not its id and its symbol. -/
theorem mem_ids_exec_bookkeeping {s : InMemoryStateStore} {ts : List StateTransitionEvent}
    {p : PositionState} (hts : ∀ t ∈ ts, t.IsBookkeeping)
    (hp : p ∈ (Run.exec InMemoryStateStore.apply s ts).portfolio.openPositions) :
    ∃ q ∈ s.portfolio.openPositions, q.positionId = p.positionId ∧ q.symbol = p.symbol := by
  let named (s : InMemoryStateStore) : List (ℕ × String) :=
    s.portfolio.openPositions.map fun p => (p.positionId, p.symbol)
  have hsame : named (Run.exec InMemoryStateStore.apply s ts) = named s := by
    refine Run.exec_frame named fun t ht s => ?_
    rcases hts t ht with ⟨updates, hpay, _⟩ | ⟨prices, hpay⟩
    · rw [apply_riskUpdated hpay]
      rfl
    · rw [apply_markToMarket hpay]
      simp [named, applyMarkToMarket, symbol_revalue]
  have hmem : (p.positionId, p.symbol) ∈ named s := hsame ▸ List.mem_map.mpr ⟨p, hp, rfl⟩
  obtain ⟨q, hq, heq⟩ := List.mem_map.mp hmem
  exact ⟨q, hq, Prod.mk.inj heq⟩

/-! ## Over the cycles -/

namespace PlatformRuntime

variable {s₀ : InMemoryStateStore} {rt rt' : PlatformRuntime} {ctx : CycleCtx} {id limit bars : ℕ}
  {symbol : String} {engine : SimulatedExecutionEngine} {p : PositionState}

theorem keptByBook_held : KeptByBook (Book.Held id symbol limit bars) where
  moves hmoves hcoupled h := hmoves.held hcoupled h
  books hts hle h := { h with
    drawn := h.drawn.trans_le hle
    symbol_eq := by
      intro p hp hid
      obtain ⟨q, hq, hqid, hqsym⟩ := mem_ids_exec_bookkeeping hts hp
      exact hqsym ▸ h.symbol_eq q hq (hqid.trans hid) }

theorem keptByBook_config {config : ValidationExecutionConfig} :
    KeptByBook fun b => b.engine.config = config where
  moves hmoves _ h := hmoves.config.trans h
  books _ _ h := h

/-- A cycle that gets a bar of the symbol counts it, whether the cycle returns or raises. -/
def barCycle (symbol : String) (rt : PlatformRuntime) (call : CycleCall) : ℕ :=
  match rt.prepareBar call with
  | .ok (ctx, _) => if ctx.symbol = symbol then 1 else 0
  | .error _ => 0

/-- The cycles of a run that get a bar of the symbol. -/
def barCycles (symbol : String) : PlatformRuntime → List CycleCall → ℕ :=
  Run.total step (barCycle symbol)

theorem held_step (h : Keeping s₀ (Book.Held id symbol limit bars) rt) (call : CycleCall) :
    Keeping s₀ (Book.Held id symbol limit (bars + barCycle symbol rt call)) (rt.step call) := by
  have hpass := h.step_pass
    (Q := fun ctx => Book.Held id symbol limit (bars + if ctx.symbol = symbol then 1 else 0))
    keptByBook_held (fun _ => keptByBook_held) ?_ call
  · rcases hpass with ⟨e, hprep, hstep⟩ | ⟨ctx, rt₁, hprep, hstep⟩
    · simp only [barCycle, hprep, add_zero]
      exact hstep
    · simp only [barCycle, hprep.prepared]
      exact hstep
  · intro ctx b closed snapshot hcoupled hsnap hb
    split
    · next hsym =>
      subst hsym
      exact hb.evaluateBar (c := executionCtx b.engine ctx ctx.eventTime) ctx.bar hcoupled hsnap
    · exact (Book.evaluateBar_moves ctx.bar none true b hcoupled.nodup hsnap).held hcoupled hb

/-- Of a position that is open nothing is known but its symbol. -/
theorem held_of_open (h : Traded s₀ rt) (hp : p ∈ rt.stateStore.portfolio.openPositions)
    (hlimit : ∀ engine ∈ rt.executionEngine, engine.config.maxBarsInTrade = limit) :
    Keeping s₀ (Book.Held p.positionId p.symbol limit 0) rt := by
  refine ⟨h, fun engine hengine => ?_⟩
  have hcoupled := h.coupled.book hengine
  refine ⟨hlimit engine hengine, hcoupled.drawn _ (List.mem_map_of_mem hp), ?_, ?_⟩
  · intro q hq hid
    rw [List.inj_on_of_nodup_map hcoupled.nodup hq hp hid]
  · exact fun n _ => ⟨Nat.zero_le n, hlimit engine hengine ▸ engine.config.maxBarsInTrade_ge⟩

/-- A position that is open has an engine behind it. -/
theorem Traded.exists_engine (h : Traded s₀ rt)
    (hp : p ∈ rt.stateStore.portfolio.openPositions) :
    ∃ engine, rt.executionEngine = some engine := by
  cases hengine : rt.executionEngine with
  | some engine => exact ⟨engine, rfl⟩
  | none =>
    have hcoupled := h.coupled
    unfold PlatformRuntime.Coupled at hcoupled
    rw [hengine] at hcoupled
    rw [hcoupled.1] at hp
    exact absurd hp List.not_mem_nil

/-- A position is not open any more once its symbol has had as many bars as the limit allows. -/
theorem gone_of_held (h : Keeping s₀ (Book.Held id symbol limit bars) rt) (hle : limit ≤ bars) :
    id ∉ rt.stateStore.openIds := by
  intro hmem
  obtain ⟨p, hp, rfl⟩ := List.mem_map.mp hmem
  obtain ⟨engine, hengine⟩ := h.traded.exists_engine hp
  have hkey : p.positionId ∈ engine.positionBars.keys := by
    have hbars : engine.positionBars.keys = _ := (h.traded.coupled.book hengine).bars
    rw [hbars]
    exact hmem
  obtain ⟨n, hn⟩ := Option.ne_none_iff_exists'.mp (Dict.mem_keys_iff.mp hkey)
  have hlt := ((h.book engine hengine).counted n hn).2
  omega

/-! ## The end of a position -/

/-- A position that some cycles take out of the store has been closed in them, once. -/
theorem count_closedIds (h : Traded s₀ rt) (hp : p ∈ rt.stateStore.portfolio.openPositions)
    (h' : Traded s₀ rt') (hgrown : rt.transitions <+: rt'.transitions)
    (hgone : p.positionId ∉ rt'.stateStore.openIds) :
    (closedIds rt'.transitions).count p.positionId = 1 := by
  refine List.count_eq_one_of_mem (h'.inStep).closedOnce ?_
  by_contra hclosed
  obtain ⟨ts, hts⟩ := hgrown
  have hproduced : rt.stateStore.ProducedFrom ts := by
    have hall := h'.produced
    rw [← hts] at hall
    rw [h.stateStore]
    exact (Run.along_append.mp hall).2
  have hstays : p.positionId ∉ closedIds ts := by
    rw [← hts, closedIds_append, List.mem_append, not_or] at hclosed
    exact hclosed.2
  obtain ⟨q, hq, hsame⟩ := Holds.exec ⟨p, hp, .refl p⟩ hproduced hstays
  refine hgone (List.mem_map.mpr ⟨q, ?_, hsame.positionId⟩)
  rwa [h'.stateStore, ← hts, Run.exec_append, ← h.stateStore]

/-- A position that is open after some cycles of a run is not open any more after further cycles
that get `max_bars_in_trade` bars of its symbol, whatever else they do and whatever becomes of them;
by then it has been closed, once. -/
theorem closed_of_barCycles (setup : RuntimeSetup) (execution : ExecutionSetup)
    (hexecution : setup.execution = some execution) (earlier later : List CycleCall)
    (hp : p ∈ (Run.exec step setup.start earlier).stateStore.portfolio.openPositions)
    (hle : execution.config.maxBarsInTrade ≤
      barCycles p.symbol (Run.exec step setup.start earlier) later) :
    let rt := Run.exec step setup.start (earlier ++ later)
    p.positionId ∉ rt.stateStore.openIds ∧ (closedIds rt.transitions).count p.positionId = 1 := by
  intro rt
  let opened := Run.exec step setup.start earlier
  have hrt : rt = Run.exec step opened later := Run.exec_append
  have hconfig : Keeping setup.start.stateStore (fun b => b.engine.config = execution.config)
      opened := by
    refine Run.Along.exec_inv Run.along_true (fun _ call h _ => h.step keptByBook_config call)
      ⟨.start setup, fun engine hengine => ?_⟩
    rw [RuntimeSetup.start, hexecution] at hengine
    obtain rfl := Option.some.inj hengine
    rfl
  have hheld : Keeping setup.start.stateStore (Book.Held p.positionId p.symbol
      execution.config.maxBarsInTrade (0 + barCycles p.symbol opened later))
      (Run.exec step opened later) := by
    refine Run.exec_total (I := fun bars => Keeping setup.start.stateStore (Book.Held p.positionId
      p.symbol execution.config.maxBarsInTrade bars)) (fun bars r call h => held_step h call) ?_
    exact held_of_open hconfig.traded hp fun engine hengine =>
      congrArg _ (hconfig.book engine hengine)
  have hgone : p.positionId ∉ rt.stateStore.openIds := by
    rw [hrt]
    exact gone_of_held hheld (hle.trans_eq (Nat.zero_add _).symm)
  refine ⟨hgone, ?_⟩
  have hgrown : opened.transitions <+: rt.transitions := by
    rw [hrt]
    exact Run.Along.exec_inv (I := fun r => opened.transitions <+: r.transitions) Run.along_true
      (fun r call h _ => h.trans (transitions_prefix_step r call)) List.prefix_rfl
  exact count_closedIds hconfig.traded hp (hrt ▸ hheld.traded) hgrown hgone

end PlatformRuntime

/-- The solo runtime with a limit of one bar. -/
def RuntimeSetup.brief : RuntimeSetup := { RuntimeSetup.solo .close with
  execution := (RuntimeSetup.solo .close).execution.map fun e => { e with
    config := { e.config with maxBarsInTrade := 1, maxBarsInTrade_ge := le_rfl } } }

/-- A position bought on one bar is closed by the next bar of its symbol, after a bar of another. -/
theorem closed_of_barCycles_brief : ∃ p : PositionState,
    let rt := Run.exec PlatformRuntime.step RuntimeSetup.brief.start [
      .flat "BTC/USDT" 0 100 .buy, .flat "ETH/USDT" 0 100 .hold,
      .flat "BTC/USDT" 3600000000 100 .hold]
    p.symbol = "BTC/USDT" ∧ p.positionId ∉ rt.stateStore.openIds ∧
      (closedIds rt.transitions).count p.positionId = 1 := by
  have hopen : ((Run.exec PlatformRuntime.step RuntimeSetup.brief.start [
      .flat "BTC/USDT" 0 100 .buy]).stateStore.portfolio.openPositions.map (·.symbol)) =
      ["BTC/USDT"] := by decide +kernel
  obtain ⟨p, hp, hsym⟩ := List.mem_map.mp (hopen ▸ List.mem_singleton_self _)
  refine ⟨p, hsym, PlatformRuntime.closed_of_barCycles .brief _ rfl
    [.flat "BTC/USDT" 0 100 .buy] [.flat "ETH/USDT" 0 100 .hold,
      .flat "BTC/USDT" 3600000000 100 .hold] hp ?_⟩
  rw [hsym]
  decide +kernel

end TradingPlatform
