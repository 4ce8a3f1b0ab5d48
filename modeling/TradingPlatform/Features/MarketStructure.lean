import TradingPlatform.Features.SuperTrend
import TradingPlatform.Research.Stability

/-!
# Market structure

A pivot is a bar whose value no bar of the window centred at it beats, and is known once the window
is complete. More bars confirm more pivots and change none. The research series walks the pivots of
the whole frame and learns of each at the bar that confirms it, so at every bar it has seen the
pivots that production finds on the bars up to there.
-/

namespace TradingPlatform

/-! ## The research series -/

/-- The last two prices of pivots, the older one first. -/
abbrev LastTwo := Option ℚ × Option ℚ

def LastTwo.push (last : LastTwo) (price : ℚ) : LastTwo := (last.2, some price)

/-- The confirmed pivots that are still to be learned, the last two that have been, and the bias. -/
structure BiasWalk where
  highEvents : List (ℤ × ℚ)
  lowEvents : List (ℤ × ℚ)
  lastHighs : LastTwo := (none, none)
  lastLows : LastTwo := (none, none)
  prevBias : ℚ := 0

/-- The events up to `t` are learned. -/
def learn (t : ℤ) : List (ℤ × ℚ) → LastTwo → List (ℤ × ℚ) × LastTwo
  | [], last => ([], last)
  | event :: rest, last =>
    if event.1 ≤ t then learn t rest (last.push event.2) else (event :: rest, last)

/-- The bias of the last two highs and lows, or the one before if they do not agree. -/
def nextBias (highs lows : LastTwo) (prevBias : ℚ) : ℚ :=
  match highs, lows with
  | (some high2, some high1), (some low2, some low1) =>
    if high2 < high1 ∧ low2 < low1 then 1
    else if high1 < high2 ∧ low1 < low2 then -1
    else prevBias
  | _, _ => prevBias

def BiasWalk.step (walk : BiasWalk) (t : ℤ) : BiasWalk :=
  let highs := learn t walk.highEvents walk.lastHighs
  let lows := learn t walk.lowEvents walk.lastLows
  { highEvents := highs.1
    lowEvents := lows.1
    lastHighs := highs.2
    lastLows := lows.2
    prevBias := nextBias highs.2 lows.2 walk.prevBias }

/-- The bias at the `count` bars from `t` on. -/
def BiasWalk.series (walk : BiasWalk) (t : ℤ) : ℕ → List ℚ
  | 0 => []
  | count + 1 =>
    let walk := walk.step t
    walk.prevBias :: walk.series (t + 1) count

/-- `_events` -/
def pivotEvents (pivotBars : ℤ) (pivots : List Pivot) : List (ℤ × ℚ) :=
  pivots.map fun x => ((x.1 : ℤ) + pivotBars, x.2)

/-- `market_structure_bias` -/
def marketStructureBias (bars : List Bar) (pivotBars : ℤ) : Computed (List BaseLabel) := do
  let pivots ← findConfirmedPivots bars pivotBars (bars.length - 1)
  let walk : BiasWalk := {
    highEvents := pivotEvents pivotBars pivots.highs
    lowEvents := pivotEvents pivotBars pivots.lows }
  return (walk.series 0 bars.length).map fun bias => if 0 ≤ bias then .up else .down

/-! ## The pivots by definition -/

/-- No value within `pivotBars` of the index beats the value there, and the last of them is not
after `upTo`. -/
structure Centred (beats : ℚ → ℚ → Bool) (xs : List ℚ) (pivotBars : ℕ) (upTo : ℤ) (x : Pivot) :
    Prop where
  value : xs[x.1]? = some x.2
  before : pivotBars ≤ x.1
  confirmed : (x.1 + pivotBars : ℤ) ≤ upTo
  beaten : ∀ j y, x.1 ≤ j + pivotBars → j ≤ x.1 + pivotBars → xs[j]? = some y → beats x.2 y

section

variable {beats : ℚ → ℚ → Bool} {xs ys : List ℚ} {pivotBars : ℕ} {last upTo : ℤ} {x : Pivot}

theorem mem_take_drop {a w : ℕ} {y : ℚ} :
    y ∈ (xs.drop a).take w ↔ ∃ j, a ≤ j ∧ j < a + w ∧ xs[j]? = some y := by
  rw [List.mem_iff_getElem?]
  constructor
  · rintro ⟨k, hk⟩
    rw [List.getElem?_take] at hk
    split_ifs at hk with hlt
    exact ⟨a + k, by omega, by omega, by rw [← List.getElem?_drop, hk]⟩
  · rintro ⟨j, hle, hlt, hj⟩
    obtain ⟨k, rfl⟩ := Nat.exists_eq_add_of_le hle
    exact ⟨k, by rw [List.getElem?_take, if_pos (by omega), List.getElem?_drop, hj]⟩

/-- The pivot at an index, if there is one. -/
def pivotAt (beats : ℚ → ℚ → Bool) (xs : List ℚ) (pivotBars : ℕ) (last : ℤ) (i : ℕ) :
    Option Pivot :=
  if (i : ℤ) ≤ last then
    xs[i]?.bind fun centre =>
      if ((xs.drop (i - pivotBars)).take (2 * pivotBars + 1)).all (beats centre) then
        some (i, centre)
      else none
  else none

theorem pivotsOf_eq (hlength : 2 * pivotBars + 1 ≤ xs.length) :
    pivotsOf beats xs pivotBars last =
      .ok ((List.range' pivotBars (xs.length - 2 * pivotBars)).filterMap
        (pivotAt beats xs pivotBars last)) := by
  have hwindow : (2 * (pivotBars : ℤ) + 1).toNat = 2 * pivotBars + 1 := by omega
  rw [pivotsOf, slidingWindows, if_neg (by omega), if_neg (by omega), hwindow]
  have hcount : xs.length + 1 - (2 * pivotBars + 1) = xs.length - 2 * pivotBars := by omega
  have hzip (k : ℕ) (f : ℕ → List ℚ) : ((List.range k).map f).zipIdx pivotBars =
      (List.range' pivotBars k).map fun i => (f (i - pivotBars), i) := by
    refine List.ext_getElem? fun i => ?_
    rw [List.getElem?_zipIdx, List.getElem?_map, List.getElem?_map]
    by_cases h : i < k
    · rw [List.getElem?_range h, List.getElem?_range' h]
      simp
    · rw [List.getElem?_eq_none (by simpa using h), List.getElem?_eq_none (by simpa using h)]
      rfl
  change Except.ok ((((List.range _).map _).zipIdx _).filterMap _) = _
  rw [Int.toNat_natCast, hzip, List.filterMap_map, hcount]
  rfl

theorem pivotAt_eq_some {i : ℕ} (hbefore : pivotBars ≤ i) :
    pivotAt beats xs pivotBars (upTo - pivotBars) i = some x ↔
      x.1 = i ∧ Centred beats xs pivotBars upTo x := by
  unfold pivotAt
  constructor
  · intro h
    split_ifs at h with hlast
    obtain ⟨centre, hcentre, h⟩ := Option.bind_eq_some_iff.mp h
    split_ifs at h with hall
    cases h
    refine ⟨rfl, hcentre, hbefore, by omega, fun j y hj₁ hj₂ hy => ?_⟩
    exact List.all_eq_true.mp hall y (mem_take_drop.mpr ⟨j, by dsimp only at hj₁; omega,
      by dsimp only at hj₂; omega, hy⟩)
  · rintro ⟨rfl, h⟩
    rw [if_pos (by have := h.confirmed; omega), h.value, Option.bind_some, if_pos]
    refine List.all_eq_true.mpr fun y hy => ?_
    obtain ⟨j, hj₁, hj₂, hj⟩ := mem_take_drop.mp hy
    exact h.beaten j y (by omega) (by omega) hj

/-- The pivots of a column, in the order of the bars. -/
def centredPivots (beats : ℚ → ℚ → Bool) (xs : List ℚ) (pivotBars : ℕ) (upTo : ℤ) : List Pivot :=
  (List.range' pivotBars (xs.length - 2 * pivotBars)).filterMap
    (pivotAt beats xs pivotBars (upTo - pivotBars))

theorem mem_centredPivots (h : upTo < xs.length) :
    x ∈ centredPivots beats xs pivotBars upTo ↔ Centred beats xs pivotBars upTo x := by
  rw [centredPivots, List.mem_filterMap]
  constructor
  · rintro ⟨i, hi, hx⟩
    exact ((pivotAt_eq_some (List.mem_range'_1.mp hi).1).mp hx).2
  · intro hx
    have := hx.before
    have := hx.confirmed
    exact ⟨x.1, List.mem_range'_1.mpr ⟨hx.before, by omega⟩,
      (pivotAt_eq_some hx.before).mpr ⟨rfl, hx⟩⟩

theorem pairwise_centredPivots :
    (centredPivots beats xs pivotBars upTo).Pairwise fun x y => x.1 < y.1 := by
  rw [centredPivots, List.pairwise_filterMap]
  refine List.Pairwise.imp_of_mem ?_ List.pairwise_lt_range'
  intro i j hi hj hlt x hx y hy
  rw [((pivotAt_eq_some (List.mem_range'_1.mp hi).1).mp hx).1,
    ((pivotAt_eq_some (List.mem_range'_1.mp hj).1).mp hy).1]
  exact hlt

theorem getElem?_take_eq_some {m j : ℕ} {y : ℚ} :
    (xs.take m)[j]? = some y ↔ xs[j]? = some y ∧ j < m := by
  rw [List.getElem?_take]
  split_ifs with h
  · exact ⟨fun hy => ⟨hy, h⟩, fun hy => hy.1⟩
  · exact ⟨fun hy => (by cases hy), fun hy => absurd hy.2 h⟩

theorem centred_take {m : ℕ} (hm : m ≤ xs.length) :
    Centred beats (xs.take m) pivotBars (m - 1) x ↔
      Centred beats xs pivotBars (xs.length - 1) x ∧ x.1 + pivotBars < m := by
  constructor
  · intro h
    have hlt : x.1 + pivotBars < m := by
      have := h.confirmed
      omega
    refine ⟨⟨(getElem?_take_eq_some.mp h.value).1, h.before, by omega,
      fun j y hj₁ hj₂ hy => ?_⟩, hlt⟩
    exact h.beaten j y hj₁ hj₂ (getElem?_take_eq_some.mpr ⟨hy, by omega⟩)
  · rintro ⟨h, hlt⟩
    exact ⟨getElem?_take_eq_some.mpr ⟨h.value, by omega⟩, h.before, by omega,
      fun j y hj₁ hj₂ hy => h.beaten j y hj₁ hj₂ (getElem?_take_eq_some.mp hy).1⟩

/-- On the first bars the pivots are those of all bars that are confirmed there. -/
theorem centredPivots_take (beats : ℚ → ℚ → Bool) (pivotBars : ℕ) {m : ℕ} (hm : m ≤ xs.length) :
    ∃ later,
    centredPivots beats xs pivotBars (xs.length - 1) =
      centredPivots beats (xs.take m) pivotBars (m - 1) ++ later ∧
    ∀ x ∈ later, m ≤ x.1 + pivotBars := by
  have hsplit : xs.length - 2 * pivotBars =
      (m - 2 * pivotBars) + (xs.length - 2 * pivotBars - (m - 2 * pivotBars)) := by omega
  rw [centredPivots, hsplit, ← List.range'_append_1, List.filterMap_append]
  refine ⟨_, congrArg (· ++ _) ?_, fun x hx => ?_⟩
  · rw [centredPivots, List.length_take, min_eq_left hm]
    refine List.filterMap_congr fun i hi => Option.ext fun x => ?_
    obtain ⟨hbefore, hlt⟩ := List.mem_range'_1.mp hi
    rw [pivotAt_eq_some hbefore, pivotAt_eq_some hbefore, centred_take hm]
    exact ⟨fun h => ⟨h.1, h.2, by omega⟩, fun h => ⟨h.1, h.2.1⟩⟩
  · obtain ⟨i, hi, hx⟩ := List.mem_filterMap.mp hx
    have hrange := List.mem_range'_1.mp hi
    have hi := ((pivotAt_eq_some (by omega)).mp hx).1
    omega

end

/-! ## A frame -/

section

variable {bars more : List Bar} {pivotBars : ℕ} {upTo : ℤ} {x : Pivot}

def noLower (centre x : ℚ) : Bool := decide (x ≤ centre)

def noHigher (centre x : ℚ) : Bool := decide (centre ≤ x)

def centredHighs (bars : List Bar) (pivotBars : ℕ) (upTo : ℤ) : List Pivot :=
  centredPivots noLower (bars.map (·.high)) pivotBars upTo

def centredLows (bars : List Bar) (pivotBars : ℕ) (upTo : ℤ) : List Pivot :=
  centredPivots noHigher (bars.map (·.low)) pivotBars upTo

theorem findConfirmedPivots_eq (h : upTo < bars.length) : findConfirmedPivots bars pivotBars upTo =
    .ok { highs := centredHighs bars pivotBars upTo, lows := centredLows bars pivotBars upTo } := by
  unfold findConfirmedPivots
  dsimp only
  split_ifs with hshort
  · -- no window is complete
    have hnone (beats : ℚ → ℚ → Bool) (xs : List ℚ) :
        centredPivots beats xs pivotBars upTo = [] := by
      refine List.filterMap_eq_nil_iff.mpr fun i hi => if_neg ?_
      have := (List.mem_range'_1.mp hi).1
      omega
    rw [centredHighs, centredLows, hnone, hnone]
    rfl
  · have hhighs : pivotsOf noLower (bars.map (·.high)) pivotBars (upTo - pivotBars) =
        .ok (centredHighs bars pivotBars upTo) := pivotsOf_eq (by rw [List.length_map]; omega)
    have hlows : pivotsOf noHigher (bars.map (·.low)) pivotBars (upTo - pivotBars) =
        .ok (centredLows bars pivotBars upTo) := pivotsOf_eq (by rw [List.length_map]; omega)
    refine Except.bind_eq_ok.mpr ⟨_, hhighs, Except.bind_eq_ok.mpr ⟨_, hlows, rfl⟩⟩

/-! ## The walk -/

theorem learn_eq (t : ℤ) (events : List (ℤ × ℚ)) (last : LastTwo) :
    learn t events last = (events.dropWhile fun e => decide (e.1 ≤ t),
      ((events.takeWhile fun e => decide (e.1 ≤ t)).map Prod.snd).foldl LastTwo.push last) := by
  induction events generalizing last with
  | nil => rfl
  | cons event rest ih =>
    unfold learn
    split_ifs with h
    · simp [ih, h]
    · simp [h]

/-- The last two prices of a list of pivots. -/
def lastTwo (prices : List ℚ) : LastTwo := prices.foldl LastTwo.push (none, none)

/-- The prices of the events up to `t`. -/
def learned (t : ℤ) (events : List (ℤ × ℚ)) : List ℚ :=
  (events.takeWhile fun e => decide (e.1 ≤ t)).map Prod.snd

/-- The events after `t` are to be learned, and the last two up to `t` have been. -/
structure BiasWalk.Learned (walk : BiasWalk) (highs lows : List (ℤ × ℚ)) (t : ℤ) : Prop where
  highEvents : walk.highEvents = highs.dropWhile fun e => decide (e.1 ≤ t)
  lowEvents : walk.lowEvents = lows.dropWhile fun e => decide (e.1 ≤ t)
  lastHighs : walk.lastHighs = lastTwo (learned t highs)
  lastLows : walk.lastLows = lastTwo (learned t lows)

theorem learn_learned {t t' : ℤ} (h : t ≤ t') (events : List (ℤ × ℚ)) :
    learn t' (events.dropWhile fun e => decide (e.1 ≤ t)) (lastTwo (learned t events)) =
      (events.dropWhile fun e => decide (e.1 ≤ t'), lastTwo (learned t' events)) := by
  have hsplit (last : LastTwo) : learn t' (events.dropWhile fun e => decide (e.1 ≤ t))
      ((learned t events).foldl LastTwo.push last) = learn t' events last := by
    induction events generalizing last with
    | nil => rfl
    | cons event rest ih =>
      by_cases hle : event.1 ≤ t
      · rw [learned, List.dropWhile_cons, List.takeWhile_cons, if_pos (decide_eq_true hle),
          if_pos (decide_eq_true hle), learn, if_pos (hle.trans h)]
        exact ih _
      · rw [learned, List.dropWhile_cons, List.takeWhile_cons, if_neg (by simpa using hle),
          if_neg (by simpa using hle)]
        rfl
  exact (hsplit _).trans (learn_eq _ _ _)

theorem BiasWalk.Learned.step {walk : BiasWalk} {highs lows : List (ℤ × ℚ)} {t : ℤ}
    (h : walk.Learned highs lows (t - 1)) : (walk.step t).Learned highs lows t ∧
      (walk.step t).prevBias =
        nextBias (lastTwo (learned t highs)) (lastTwo (learned t lows)) walk.prevBias := by
  have hhighs := learn_learned (sub_one_lt t).le highs
  have hlows := learn_learned (sub_one_lt t).le lows
  rw [← h.highEvents, ← h.lastHighs] at hhighs
  rw [← h.lowEvents, ← h.lastLows] at hlows
  unfold BiasWalk.step
  rw [hhighs, hlows]
  exact ⟨⟨rfl, rfl, rfl, rfl⟩, rfl⟩

/-- At every bar the bias is that of the pivots learned there, or the one before. -/
theorem BiasWalk.Learned.series {walk : BiasWalk} {highs lows : List (ℤ × ℚ)} {t : ℤ} {count i : ℕ}
    (h : walk.Learned highs lows (t - 1)) (hi : i < count) : ∃ prevBias,
      (walk.series t count)[i]? = some
        (nextBias (lastTwo (learned (t + i) highs)) (lastTwo (learned (t + i) lows)) prevBias) := by
  induction count generalizing walk t i with
  | zero => exact absurd hi (Nat.not_lt_zero i)
  | succ count ih =>
    obtain ⟨hstep, hbias⟩ := h.step
    rw [BiasWalk.series]
    cases i with
    | zero =>
      refine ⟨walk.prevBias, ?_⟩
      rw [List.getElem?_cons_zero, hbias, Nat.cast_zero, add_zero]
    | succ i =>
      rw [List.getElem?_cons_succ, Nat.cast_add, Nat.cast_one, ← add_assoc, add_right_comm]
      exact ih (by rwa [add_sub_cancel_right]) (by omega)

/-! ## The bias -/

theorem lastTwo_of_reverse {pivots rest : List Pivot} {x y : Pivot}
    (h : pivots.reverse = y :: x :: rest) :
    lastTwo (pivots.map Prod.snd) = (some x.2, some y.2) := by
  have hpivots : pivots = rest.reverse ++ [x, y] := by
    rw [← List.reverse_reverse pivots, h, List.reverse_cons, List.reverse_cons, List.append_assoc]
    rfl
  rw [hpivots, List.map_append, lastTwo, List.foldl_append]
  rfl

/-- A bias that is not zero is that of the last two highs and lows. -/
theorem nextBias_eq {pivots : Pivots} (h : pivots.bias ≠ 0) (prevBias : ℚ) :
    nextBias (lastTwo (pivots.highs.map Prod.snd)) (lastTwo (pivots.lows.map Prod.snd)) prevBias =
      pivots.bias := by
  unfold Pivots.bias at h ⊢
  split at h
  · next h2 h1 _ l2 l1 _ hhighs hlows =>
    rw [lastTwo_of_reverse hhighs, lastTwo_of_reverse hlows]
    simp only [nextBias]
    split_ifs at h ⊢ <;> first | rfl | exact absurd rfl h
  · exact absurd rfl h

/-- Up to a bar the walk has learned the pivots of the bars up to there. -/
theorem learned_centredPivots (beats : ℚ → ℚ → Bool) {xs : List ℚ} (pivotBars : ℕ) {t : ℕ}
    (h : t < xs.length) :
    learned t (pivotEvents pivotBars (centredPivots beats xs pivotBars (xs.length - 1))) =
      (centredPivots beats (xs.take (t + 1)) pivotBars t).map Prod.snd := by
  obtain ⟨later, hsplit, hlater⟩ := centredPivots_take beats pivotBars (Nat.succ_le_of_lt h)
  have hup : ((t + 1 : ℕ) : ℤ) - 1 = t := by omega
  rw [hsplit, hup, learned, pivotEvents, List.map_append, List.takeWhile_append_of_pos]
  · have hnone : (later.map fun x => ((x.1 : ℤ) + pivotBars, x.2)).takeWhile
        (fun e => decide (e.1 ≤ (t : ℤ))) = [] := by
      cases later with
      | nil => rfl
      | cons x rest =>
        have := hlater x List.mem_cons_self
        rw [List.map_cons, List.takeWhile_cons, if_neg]
        rw [decide_eq_true_iff, not_le]
        dsimp only
        omega
    rw [hnone, List.append_nil, List.map_map]
    rfl
  · intro e he
    obtain ⟨x, hx, rfl⟩ := List.mem_map.mp he
    rw [mem_centredPivots (by rw [List.length_take]; omega)] at hx
    exact decide_eq_true hx.confirmed

theorem learned_highs {t : ℕ} (ht : t < bars.length) :
    learned t (pivotEvents pivotBars (centredHighs bars pivotBars (bars.length - 1))) =
      (centredHighs (bars.take (t + 1)) pivotBars t).map Prod.snd := by
  have hlength : t < (bars.map (·.high)).length := by rwa [List.length_map]
  have h := learned_centredPivots noLower pivotBars hlength
  rwa [List.length_map, ← List.map_take] at h

theorem learned_lows {t : ℕ} (ht : t < bars.length) :
    learned t (pivotEvents pivotBars (centredLows bars pivotBars (bars.length - 1))) =
      (centredLows (bars.take (t + 1)) pivotBars t).map Prod.snd := by
  have hlength : t < (bars.map (·.low)).length := by rwa [List.length_map]
  have h := learned_centredPivots noHigher pivotBars hlength
  rwa [List.length_map, ← List.map_take] at h

/-- Before the first bar nothing is learned. -/
theorem BiasWalk.learned_start (highs lows : List Pivot) : BiasWalk.Learned
    { highEvents := pivotEvents pivotBars highs, lowEvents := pivotEvents pivotBars lows }
    (pivotEvents pivotBars highs) (pivotEvents pivotBars lows) (0 - 1) := by
  have hlater (x : Pivot) : ¬ decide ((x.1 : ℤ) + pivotBars ≤ 0 - 1) = true := by
    rw [decide_eq_true_iff]
    omega
  have hdrop (pivots : List Pivot) : pivotEvents pivotBars pivots =
      (pivotEvents pivotBars pivots).dropWhile (fun e => decide (e.1 ≤ 0 - 1)) := by
    cases pivots with
    | nil => rfl
    | cons x rest => rw [pivotEvents, List.map_cons, List.dropWhile_cons, if_neg (hlater x)]
  have htake (pivots : List Pivot) :
      (none, none) = lastTwo (learned (0 - 1) (pivotEvents pivotBars pivots)) := by
    cases pivots with
    | nil => rfl
    | cons x rest =>
      rw [learned, pivotEvents, List.map_cons, List.takeWhile_cons, if_neg (hlater x)]
      rfl
  exact ⟨hdrop highs, hdrop lows, htake highs, htake lows⟩

/-- At every bar the research series has the bias of the bars up to there, where it is not zero. -/
theorem marketStructureBias_at (pivotBars : ℕ) {t : ℕ} (ht : t < bars.length) :
    ∃ series, marketStructureBias bars pivotBars = .ok series ∧
      ∀ pivots, findConfirmedPivots (bars.take (t + 1)) pivotBars t = .ok pivots →
        (pivots.bias = 1 → series[t]? = some .up) ∧
        (pivots.bias = -1 → series[t]? = some .down) := by
  have hlength : (t : ℤ) < (bars.take (t + 1)).length := by
    rw [List.length_take]
    omega
  refine ⟨_, Except.bind_eq_ok.mpr ⟨_, findConfirmedPivots_eq (sub_one_lt _), rfl⟩,
    fun pivots hpivots => ?_⟩
  rw [findConfirmedPivots_eq hlength] at hpivots
  cases hpivots
  obtain ⟨prevBias, hseries⟩ := (BiasWalk.learned_start
    (centredHighs bars pivotBars (bars.length - 1))
    (centredLows bars pivotBars (bars.length - 1))).series ht
  rw [zero_add, learned_highs ht, learned_lows ht] at hseries
  constructor
  · intro h
    have hbias := nextBias_eq (by rw [h]; norm_num) prevBias
    rw [hbias, h] at hseries
    rw [List.getElem?_map, hseries]
    rfl
  · intro h
    have hbias := nextBias_eq (by rw [h]; norm_num) prevBias
    rw [hbias, h] at hseries
    rw [List.getElem?_map, hseries]
    rfl

theorem centredPivots_append (beats : ℚ → ℚ → Bool) (pivotBars : ℕ) (xs ys : List ℚ) :
    centredPivots beats xs pivotBars (xs.length - 1) <+:
      centredPivots beats (xs ++ ys) pivotBars ((xs ++ ys).length - 1) := by
  obtain ⟨later, hsplit, -⟩ := centredPivots_take beats pivotBars
    (by rw [List.length_append]; omega : xs.length ≤ (xs ++ ys).length)
  rw [List.take_left] at hsplit
  exact ⟨later, hsplit.symm⟩

end

/-- The pivots are the bars that no bar of their window beats, in the order of the bars; more bars
keep them; and the research series of a frame has, at every bar, the bias of the bars up to there,
where it is not zero. -/
theorem marketStructure_spec (bars more : List Bar) (pivotBars : ℕ) (upTo : ℤ) (t : ℕ)
    (hupTo : upTo < bars.length) (ht : t < bars.length) :
    (∃ pivots, findConfirmedPivots bars pivotBars upTo = .ok pivots ∧
      (∀ x, x ∈ pivots.highs ↔ Centred noLower (bars.map (·.high)) pivotBars upTo x) ∧
      (∀ x, x ∈ pivots.lows ↔ Centred noHigher (bars.map (·.low)) pivotBars upTo x) ∧
      pivots.highs.Pairwise (fun x y => x.1 < y.1) ∧
      pivots.lows.Pairwise fun x y => x.1 < y.1) ∧
    (∃ pivots later, findConfirmedPivots bars pivotBars (bars.length - 1) = .ok pivots ∧
      findConfirmedPivots (bars ++ more) pivotBars ((bars ++ more).length - 1) = .ok later ∧
      pivots.highs <+: later.highs ∧ pivots.lows <+: later.lows) ∧
    ∃ pivots series, findConfirmedPivots (bars.take (t + 1)) pivotBars t = .ok pivots ∧
      marketStructureBias bars pivotBars = .ok series ∧
      (pivots.bias = 1 → series[t]? = some .up) ∧
      (pivots.bias = -1 → series[t]? = some .down) := by
  refine ⟨⟨_, findConfirmedPivots_eq hupTo, fun x => ?_, fun x => ?_, pairwise_centredPivots,
    pairwise_centredPivots⟩, ⟨_, _, findConfirmedPivots_eq (sub_one_lt _),
    findConfirmedPivots_eq (sub_one_lt _), ?_, ?_⟩, ?_⟩
  · exact mem_centredPivots (by rwa [List.length_map])
  · exact mem_centredPivots (by rwa [List.length_map])
  · have h := centredPivots_append noLower pivotBars (bars.map (·.high)) (more.map (·.high))
    rwa [← List.map_append, List.length_map, List.length_map] at h
  · have h := centredPivots_append noHigher pivotBars (bars.map (·.low)) (more.map (·.low))
    rwa [← List.map_append, List.length_map, List.length_map] at h
  · have hlength : (t : ℤ) < (bars.take (t + 1)).length := by
      rw [List.length_take]
      omega
    obtain ⟨series, hseries, h⟩ := marketStructureBias_at pivotBars ht
    exact ⟨_, series, findConfirmedPivots_eq hlength, hseries, h _ (findConfirmedPivots_eq hlength)⟩

/-- Bars whose peaks and troughs rise. -/
def risingBars : List Bar :=
  [10, 14, 12, 16, 13, 18, 15, 17].map fun close => ⟨close, close + 1, close - 1, close, 1⟩

theorem marketStructure_spec_rising :
    (∃ pivots, findConfirmedPivots risingBars (1 : ℕ) 7 = .ok pivots ∧
      (∀ x, x ∈ pivots.highs ↔ Centred noLower (risingBars.map (·.high)) 1 7 x) ∧
      (∀ x, x ∈ pivots.lows ↔ Centred noHigher (risingBars.map (·.low)) 1 7 x) ∧
      pivots.highs.Pairwise (fun x y => x.1 < y.1) ∧
      pivots.lows.Pairwise fun x y => x.1 < y.1) ∧
    (∃ pivots later, findConfirmedPivots risingBars (1 : ℕ) (risingBars.length - 1) = .ok pivots ∧
      findConfirmedPivots (risingBars ++ risingBars) (1 : ℕ) ((risingBars ++ risingBars).length - 1)
        = .ok later ∧
      pivots.highs <+: later.highs ∧ pivots.lows <+: later.lows) ∧
    ∃ pivots series, findConfirmedPivots (risingBars.take (6 + 1)) (1 : ℕ) (6 : ℕ) = .ok pivots ∧
      marketStructureBias risingBars (1 : ℕ) = .ok series ∧
      (pivots.bias = 1 → series[6]? = some .up) ∧
      (pivots.bias = -1 → series[6]? = some .down) :=
  marketStructure_spec risingBars risingBars 1 7 6 (by decide) (by decide)

example : (findConfirmedPivots (risingBars.take 7) 1 6).map Pivots.bias = .ok 1 := by decide +kernel

end TradingPlatform
