import TradingPlatform.Contracts
import TradingPlatform.Lib.Ordered
import TradingPlatform.Lib.TimeSeries

/-!
# The backtest of the carry

`simulate_basis_carry` holds the pair on a day if the mean of the trailing funding prints, as it
stood at the end of the day before, reaches a threshold. The funding earned is the day's own.
-/

namespace TradingPlatform

open TimeSeries

structure BasisCarryConfig where
  capitalMultiplier : ℚ := 15 / 10
  flipCost : ℚ := 6 / 10000
  rebalanceDragDaily : ℚ := 3 / 100000
  minTrailingFunding8h : ℚ := -1
  trailPrints : ℤ := 3
  deriving DecidableEq, Repr

/-- A row of the funding frame; `none` is a rate that is not a number. -/
structure FundingPrint where
  timestamp : ℤ
  fundingRate : Option ℚ
  deriving DecidableEq, Repr

/-- A number of a column; all but `finite` come from a division by zero. -/
inductive Cell
  | finite (value : ℚ)
  | posInf
  | negInf
  | nan
  deriving DecidableEq, Repr

namespace Cell

/-- The division of a column. -/
def div (x y : ℚ) : Cell :=
  if y ≠ 0 then .finite (x / y) else if 0 < x then .posInf else if x < 0 then .negInf else .nan

def value? : Cell → Option ℚ
  | .finite value => some value
  | _ => none

/-- The mean of a column, without the entries that are not numbers. -/
def mean (column : List Cell) : Cell :=
  if .posInf ∈ column then if .negInf ∈ column then .nan else .posInf
  else if .negInf ∈ column then .negInf
  else
    let values := column.filterMap value?
    if values = [] then .nan else .finite (values.sum / values.length)

/-- The value of a year for the mean of a day. -/
def annual : Cell → Cell
  | .finite value => .finite (value * 365)
  | cell => cell

end Cell

structure BasisCarryResult where
  dailyReturns : List (ℤ × Cell)
  grossFundingAnnual : ℚ
  netAnnual : Cell
  daysInMarket : ℕ
  nFlips : ℕ
  pctDaysInMarket : ℚ

/-- The mean of a window, if there is a number in it. -/
def meanOfPresent (values : List ℚ) : Option ℚ :=
  if values = [] then none else some (values.sum / values.length)

namespace BasisCarryConfig

variable (config : BasisCarryConfig) (f : List FundingPrint)

/-- The days with prints. -/
def printDays : List ℤ := (f.map fun p => date p.timestamp).dedup.insertionSort (· ≤ ·)

/-- `daily_gross` -/
def dailyGross : List (ℤ × ℚ) :=
  (printDays f).map fun day =>
    (day, ((f.filter (date ·.timestamp = day)).filterMap (·.fundingRate)).sum)

/-- The mean of the prints of the last `trail_prints * 8` hours, at each print. -/
def rollingMean : List (ℤ × Option ℚ) :=
  rolling (· - config.trailPrints * 8 * 3600000000) meanOfPresent
    (f.map fun p => (p.timestamp, p.fundingRate))

/-- `trailing_mean` -/
def trailingMean : List (ℤ × Option ℚ) := shift (resampleLast date (config.rollingMean f))

/-- `hold` -/
def hold : List (ℤ × Bool) :=
  (dailyGross f).map fun e =>
    (e.1, ((at? (config.trailingMean f) e.1).join).any (config.minTrailingFunding8h ≤ ·))

/-- `flips` -/
def flips : List (ℤ × ℕ) :=
  (lagFrom none (config.hold f)).map fun e =>
    (e.1, (((e.2.2.toNat : ℤ) - (e.2.1.getD false).toNat).natAbs))

/-- `daily_returns` -/
def dailyReturns : List (ℤ × Cell) :=
  (config.hold f).map fun e =>
    let gross := if e.2 then (at? (dailyGross f) e.1).getD 0 else 0
    let flip : ℚ := (at? (config.flips f) e.1).getD 0
    let costs := flip * config.flipCost + if e.2 then config.rebalanceDragDaily else 0
    (e.1, .div (gross - costs) config.capitalMultiplier)

end BasisCarryConfig

/-- `funding.sort_values("timestamp")` -/
def byTime (funding : List FundingPrint) : List FundingPrint :=
  funding.insertionSort fun a b => a.timestamp ≤ b.timestamp

/-- `simulate_basis_carry` -/
def simulateBasisCarry (funding : List FundingPrint) (config : BasisCarryConfig := {}) :
    BasisCarryResult :=
  if funding = [] then ⟨[], 0, .finite 0, 0, 0, 0⟩
  else
    let f := byTime funding
    let dailyGross := (BasisCarryConfig.dailyGross f).map Prod.snd
    let hold := config.hold f
    let inMarket := hold.countP (·.2)
    { dailyReturns := config.dailyReturns f
      grossFundingAnnual := dailyGross.sum / dailyGross.length * 365
      netAnnual := (Cell.mean ((config.dailyReturns f).map Prod.snd)).annual
      daysInMarket := inMarket
      nFlips := ((config.flips f).map Prod.snd).sum
      pctDaysInMarket := (inMarket : ℚ) / hold.length }

/-! ## No look-ahead -/

/-- Sorted frames with the same prints before a day, on which both have prints. -/
structure SameUntil (day : ℤ) (f f' : List FundingPrint) : Prop where
  sorted : f.Pairwise fun a b => a.timestamp ≤ b.timestamp
  sorted' : f'.Pairwise fun a b => a.timestamp ≤ b.timestamp
  prints : (f.filter (·.timestamp < day * 86400000000)).Perm
    (f'.filter (·.timestamp < day * 86400000000))
  reaches : ∃ p ∈ f, date p.timestamp = day
  reaches' : ∃ p ∈ f', date p.timestamp = day

theorem lt_midnight_iff (day t : ℤ) : t < day * 86400000000 ↔ date t < day := by
  unfold date
  omega

namespace BasisCarryConfig

variable {config : BasisCarryConfig} {day d : ℤ} {f f' : List FundingPrint}

theorem mem_printDays : d ∈ printDays f ↔ ∃ p ∈ f, date p.timestamp = d := by
  rw [printDays, List.mem_insertionSort, List.mem_dedup, List.mem_map]

theorem pairwise_printDays : (printDays f).Pairwise (· < ·) :=
  Ordered.pairwise_lt_insertionSort (List.nodup_dedup _)

theorem map_fst_dailyGross : (dailyGross f).map Prod.fst = printDays f := by
  rw [dailyGross, List.map_map]
  exact List.map_id _

theorem map_fst_hold (config : BasisCarryConfig) :
    (config.hold f).map Prod.fst = printDays f := by
  rw [hold, List.map_map, ← map_fst_dailyGross]
  rfl

theorem pairwise_hold : (config.hold f).Pairwise fun a b => a.1 < b.1 :=
  List.pairwise_map.mp (map_fst_hold config ▸ pairwise_printDays)

theorem map_fst_rollingMean (config : BasisCarryConfig) :
    (config.rollingMean f).map Prod.fst = f.map (·.timestamp) := by
  rw [rollingMean, map_fst_rolling, List.map_map]
  rfl

theorem pairwise_rollingMean (hf : f.Pairwise fun a b => a.timestamp ≤ b.timestamp) :
    (config.rollingMean f).Pairwise fun a b => a.1 ≤ b.1 :=
  List.pairwise_map.mp (map_fst_rollingMean config ▸ List.pairwise_map.mpr hf)

theorem exists_rollingMean (config : BasisCarryConfig) (hd : ∃ p ∈ f, date p.timestamp = d) :
    ∃ e ∈ config.rollingMean f, date e.1 = d := by
  obtain ⟨p, hp, rfl⟩ := hd
  have htime : p.timestamp ∈ (config.rollingMean f).map Prod.fst :=
    map_fst_rollingMean config ▸ List.mem_map_of_mem hp
  obtain ⟨e, he, heq⟩ := List.mem_map.mp htime
  exact ⟨e, he, by rw [heq]⟩

/-- The mean at the end of the day before. -/
theorem at?_trailingMean (hf : f.Pairwise fun a b => a.timestamp ≤ b.timestamp)
    (hd : ∃ p ∈ f, date p.timestamp = d) :
    at? (config.trailingMean f) d =
      some ((before d (resampleLast date (config.rollingMean f))).getLast?.bind Prod.snd) := by
  refine at?_shift ?_ ?_
  · refine List.pairwise_map.mp ?_
    rw [map_fst_resampleLast]
    exact pairwise_intervals
  · obtain ⟨e, he, hed⟩ := exists_rollingMean config hd
    rw [map_fst_resampleLast, mem_intervals (fun _ _ h => date_mono h) (pairwise_rollingMean hf)]
    exact ⟨⟨e, he, hed.le⟩, e, he, hed.ge⟩

/-- The decision of the day. -/
theorem at?_hold (hd : ∃ p ∈ f, date p.timestamp = d) : at? (config.hold f) d =
    some (((at? (config.trailingMean f) d).join).any (config.minTrailingFunding8h ≤ ·)) := by
  have hrow : d ∈ (dailyGross f).map Prod.fst :=
    map_fst_dailyGross ▸ mem_printDays.mpr hd
  obtain ⟨e, he, rfl⟩ := List.mem_map.mp hrow
  exact at?_of_mem pairwise_hold (List.mem_map_of_mem he)

section

variable (h : SameUntil day f f')

include h

theorem before_rollingMean : before (day * 86400000000) (config.rollingMean f) =
    before (day * 86400000000) (config.rollingMean f') := by
  have hrows : ∀ f : List FundingPrint, before (day * 86400000000)
      (f.map fun p => (p.timestamp, p.fundingRate)) =
      (f.filter (·.timestamp < day * 86400000000)).map fun p => (p.timestamp, p.fundingRate) := by
    intro f
    rw [before, List.filter_map]
    rfl
  refine before_rolling (fun l l' hperm => ?_) (List.pairwise_map.mpr h.sorted)
    (List.pairwise_map.mpr h.sorted') ?_
  · have hnil : l = [] ↔ l' = [] := by
      rw [← List.length_eq_zero_iff, hperm.length_eq, List.length_eq_zero_iff]
    simp only [meanOfPresent, hnil, hperm.sum_eq, hperm.length_eq]
  · rw [hrows, hrows]
    exact h.prints.map _

/-- Up to the day and on it, the trailing mean is decided by the prints before the day. -/
theorem at?_trailingMean_congr (hd : ∃ p ∈ f, date p.timestamp = d)
    (hd' : ∃ p ∈ f', date p.timestamp = d) (hle : d ≤ day) :
    at? (config.trailingMean f) d = at? (config.trailingMean f') d := by
  have hbefore : before day (resampleLast date (config.rollingMean f)) =
      before day (resampleLast date (config.rollingMean f')) :=
    before_resampleLast (fun _ _ hle => date_mono hle) (lt_midnight_iff day)
      (pairwise_rollingMean h.sorted) (pairwise_rollingMean h.sorted') (before_rollingMean h)
      (exists_rollingMean config h.reaches) (exists_rollingMean config h.reaches')
  rw [at?_trailingMean h.sorted hd, at?_trailingMean h.sorted' hd', before_of_before hbefore hle]

theorem before_dailyGross : before day (dailyGross f) = before day (dailyGross f') := by
  have hprint : ∀ f : List FundingPrint, ∀ d < day, ∀ p : FundingPrint,
      (p ∈ f ∧ date p.timestamp = d) ↔
        (p ∈ f.filter (·.timestamp < day * 86400000000) ∧ date p.timestamp = d) := by
    intro f d hd p
    rw [List.mem_filter, decide_eq_true_eq, lt_midnight_iff, and_assoc]
    exact and_congr_right fun _ => ⟨fun hp => ⟨hp ▸ hd, hp⟩, And.right⟩
  have hdays : (printDays f).filter (· < day) = (printDays f').filter (· < day) := by
    refine (pairwise_printDays.filter _).eq_of_mem_iff (pairwise_printDays.filter _) fun d => ?_
    simp only [List.mem_filter, decide_eq_true_eq, mem_printDays]
    refine and_congr_left fun hd => exists_congr fun p => ?_
    rw [hprint f d hd, hprint f' d hd, h.prints.mem_iff]
  have hgross : ∀ f : List FundingPrint, before day (dailyGross f) =
      ((printDays f).filter (· < day)).map fun d =>
        (d, (((f.filter (·.timestamp < day * 86400000000)).filter
          (date ·.timestamp = d)).filterMap (·.fundingRate)).sum) := by
    intro f
    rw [dailyGross, before, List.filter_map]
    refine List.map_congr_left fun d hd => ?_
    have hlt : d < day := by simpa using (List.mem_filter.mp hd).2
    rw [List.filter_filter]
    congr 3
    refine List.filter_congr fun p _ => ?_
    rw [← Bool.decide_and]
    exact decide_eq_decide.mpr
      ⟨fun hp => ⟨hp, (lt_midnight_iff day _).mpr (hp ▸ hlt)⟩, And.left⟩
  rw [hgross, hgross, hdays]
  refine List.map_congr_left fun d _ => Prod.ext rfl ?_
  exact ((h.prints.filter _).filterMap _).sum_eq

/-- The decisions before the day are the same. -/
theorem before_hold : before day (config.hold f) = before day (config.hold f') := by
  rw [hold, hold, before_map, before_map, before_dailyGross h]
  refine List.map_congr_left fun e he => ?_
  have hday : ∀ f : List FundingPrint, e ∈ before day (dailyGross f) →
      ∃ p ∈ f, date p.timestamp = e.1 := fun f he =>
    mem_printDays.mp (map_fst_dailyGross ▸ List.mem_map_of_mem (mem_before.mp he).1)
  rw [at?_trailingMean_congr h (hday f (before_dailyGross h ▸ he)) (hday f' he)
    (mem_before.mp he).2.le]

theorem before_flips : before day (config.flips f) = before day (config.flips f') := by
  rw [flips, flips, before_map, before_map, before_lagFrom pairwise_hold,
    before_lagFrom pairwise_hold, before_hold h]

theorem before_dailyReturns :
    before day (config.dailyReturns f) = before day (config.dailyReturns f') := by
  rw [dailyReturns, dailyReturns, before_map, before_map, before_hold h]
  refine List.map_congr_left fun e he => ?_
  have hlt : e.1 < day := (mem_before.mp he).2
  rw [at?_of_before (before_dailyGross h) hlt, at?_of_before (before_flips h) hlt]

end

end BasisCarryConfig

/-- The decision for a day and the returns before it are the same for any two frames with the same
prints before the day, on which both have prints. -/
theorem simulateBasisCarry_no_lookahead (config : BasisCarryConfig)
    {funding funding' : List FundingPrint} {day : ℤ}
    (hagree : (funding.filter (·.timestamp < day * 86400000000)).Perm
      (funding'.filter (·.timestamp < day * 86400000000)))
    (hday : ∃ p ∈ funding, date p.timestamp = day)
    (hday' : ∃ p ∈ funding', date p.timestamp = day) :
    (∃ decision, at? (config.hold (byTime funding)) day = some decision ∧
      at? (config.hold (byTime funding')) day = some decision) ∧
    before day (simulateBasisCarry funding config).dailyReturns =
      before day (simulateBasisCarry funding' config).dailyReturns := by
  have hperm : ∀ funding : List FundingPrint, (byTime funding).Perm funding :=
    fun funding => List.perm_insertionSort _ _
  have hreaches : ∀ funding : List FundingPrint, (∃ p ∈ funding, date p.timestamp = day) →
      ∃ p ∈ byTime funding, date p.timestamp = day := by
    rintro funding ⟨p, hp, heq⟩
    exact ⟨p, (hperm funding).mem_iff.mpr hp, heq⟩
  have h : SameUntil day (byTime funding) (byTime funding') := {
    sorted := List.pairwise_insertionSort _ _
    sorted' := List.pairwise_insertionSort _ _
    prints := (((hperm funding).filter _).trans hagree).trans ((hperm funding').filter _).symm
    reaches := hreaches funding hday
    reaches' := hreaches funding' hday' }
  have hreturns : ∀ funding : List FundingPrint, (∃ p ∈ funding, date p.timestamp = day) →
      (simulateBasisCarry funding config).dailyReturns = config.dailyReturns (byTime funding) := by
    rintro funding ⟨p, hp, -⟩
    rw [simulateBasisCarry, if_neg (List.ne_nil_of_mem hp)]
  refine ⟨⟨_, BasisCarryConfig.at?_hold h.reaches, ?_⟩, ?_⟩
  · rw [BasisCarryConfig.at?_hold h.reaches',
      BasisCarryConfig.at?_trailingMean_congr h h.reaches h.reaches' le_rfl]
  · rw [hreturns funding hday, hreturns funding' hday']
    exact BasisCarryConfig.before_dailyReturns h

/-- A print of the first day and one of the second, with a given rate. -/
def twoDays (rate : ℚ) : List FundingPrint :=
  [⟨86400000000, some rate⟩, ⟨0, some (1 / 10000)⟩]

theorem simulateBasisCarry_no_lookahead_twoDays :
    (∃ decision, at? (BasisCarryConfig.hold {} (byTime (twoDays (-2)))) 1 = some decision ∧
      at? (BasisCarryConfig.hold {} (byTime (twoDays 5))) 1 = some decision) ∧
    before 1 (simulateBasisCarry (twoDays (-2))).dailyReturns =
      before 1 (simulateBasisCarry (twoDays 5)).dailyReturns :=
  simulateBasisCarry_no_lookahead {} (List.Perm.refl _) (by decide +kernel) (by decide +kernel)

end TradingPlatform
