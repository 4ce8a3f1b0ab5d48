import TradingPlatform.Carry.BasisCarry
import TradingPlatform.Lib.Outcome

/-!
# The blended book

`build_blended_book` weighs the carry leg and the core leg into one book of daily returns and scales
it so that the volatility of the days before comes to a target. The values of the legs and of the
conviction are numbers or missing. The square root is an argument.
-/

namespace TradingPlatform

open TimeSeries

structure BlendConfig where
  carryWeight : ℚ := 7 / 10
  coreWeight : ℚ := 3 / 10
  targetAnnualVol : Option ℚ := some (13 / 100)
  volWindow : ℤ := 30
  leverageCap : ℚ := 3
  deriving DecidableEq, Repr

/-- A series of the caller: timestamps without a time zone, in any order, with their values. -/
abbrev RawSeries := List (ℤ × Option ℚ)

namespace Cell

def sign : Cell → SignType
  | .finite value => SignType.sign value
  | .posInf => 1
  | .negInf => -1
  | .nan => 0

/-- A product with an infinite factor. -/
def ofSign : SignType → Cell
  | 1 => .posInf
  | -1 => .negInf
  | 0 => .nan

def mul : Cell → Cell → Cell
  | .finite x, .finite y => .finite (x * y)
  | .nan, _ | _, .nan => .nan
  | x, y => ofSign (x.sign * y.sign)

/-- `1.0 + cell` -/
def succ : Cell → Cell
  | .finite value => .finite (1 + value)
  | cell => cell

/-- `clip(upper=cap)` -/
def clipAbove (cap : ℚ) : Cell → Cell
  | .finite value => .finite (min value cap)
  | .posInf => .finite cap
  | cell => cell

/-- A cell that is not a number counts as missing. -/
def present? : Cell → Option Cell
  | .nan => none
  | cell => some cell

end Cell

/-! ## The span -/

/-- `max(a, b)` of two timestamps; a comparison with `NaT` is false. -/
def laterOf : Option ℤ → Option ℤ → Option ℤ
  | some a, some b => some (max a b)
  | a, _ => a

/-- `min(a, b)` of two timestamps. -/
def earlierOf : Option ℤ → Option ℤ → Option ℤ
  | some a, some b => some (min a b)
  | a, _ => a

/-- The start and the end of the overlap of the two legs. -/
def overlap (carryReturns coreReturns : RawSeries) : Option ℤ × Option ℤ :=
  (laterOf (carryReturns.map Prod.fst).min? (coreReturns.map Prod.fst).min?,
    earlierOf (carryReturns.map Prod.fst).max? (coreReturns.map Prod.fst).max?)

/-- The microseconds of a day. -/
def dayLength : ℤ := 86400000000

/-- `pd.date_range(start, end, freq="D")` -/
def dateRange : Option ℤ × Option ℤ → Except PyError (List ℤ)
  | (some start, some stop) => .ok <|
    (List.range ((stop - start) / dayLength + 1).toNat).map fun k : ℕ => start + k * dayLength
  | _ => .error (.valueError "Neither `start` nor `end` can be NaT")

/-- `reindex`, which raises on an index with duplicates. -/
def reindexed (index : List ℤ) (s : RawSeries) : Except PyError RawSeries :=
  if (s.map Prod.fst).Nodup then .ok (reindex index s)
  else .error (.valueError "cannot reindex on an axis with duplicate labels")

/-- `reindex` of a conviction, if there is one. -/
def reindexedOption (index : List ℤ) : Option RawSeries → Except PyError (Option RawSeries)
  | none => .ok none
  | some s => some <$> reindexed index s

/-! ## The book -/

/-- The sample deviation of a window. -/
def sampleStd (sqrt : ℚ → ℚ) (values : List ℚ) : Option ℚ :=
  if values.length ≤ 1 then none
  else
    let mean := values.sum / values.length
    some (sqrt ((values.map fun x => (x - mean) ^ 2).sum / (values.length - 1)))

/-- The series that `build_blended_book` goes through. -/
structure Blend where
  coreAllocation : List (ℤ × ℚ)
  raw : List (ℤ × ℚ)
  leverage : Option (List (ℤ × Cell))
  book : List (ℤ × Cell)

structure BlendedBookResult where
  dailyReturns : List (ℤ × Cell)
  equityCurve : List (ℤ × Cell)

namespace BlendConfig

variable (config : BlendConfig)

/-- `w_carry` -/
def carryShare : ℚ := config.carryWeight / (config.carryWeight + config.coreWeight)

/-- `w_core` -/
def coreShare : ℚ := config.coreWeight / (config.carryWeight + config.coreWeight)

/-- `core_alloc`: the share of the core leg on each day, which a conviction scales. -/
def coreAllocation (index : List ℤ) : Option RawSeries → List (ℤ × ℚ)
  | none => index.map fun t => (t, config.coreShare)
  | some conviction =>
    (ffill conviction).map fun e =>
      (e.1, config.coreShare * (e.2.map fun v => max 0 (min v 1)).getD 0)

/-- `raw` -/
def raw (allocation : List (ℤ × ℚ)) (dynamic : Bool) (carry core : RawSeries) : List (ℤ × ℚ) :=
  allocation.map fun e =>
    let carryAllocation := if dynamic then 1 - e.2 else config.carryShare
    (e.1, carryAllocation * ((at? carry e.1).join).getD 0 + e.2 * ((at? core e.1).join).getD 0)

/-- `(cfg.target_annual_vol / realised).clip(upper=cfg.leverage_cap)` -/
def scaling (sqrt : ℚ → ℚ) (target : ℚ) (raw : List (ℤ × ℚ)) : List (ℤ × Option Cell) :=
  (rollingRows config.volWindow.toNat (sampleStd sqrt) raw).map fun e =>
    (e.1, e.2.bind fun std =>
      ((Cell.div target (std * sqrt 365)).clipAbove config.leverageCap).present?)

/-- `lev` -/
def leverage (sqrt : ℚ → ℚ) (target : ℚ) (raw : List (ℤ × ℚ)) : List (ℤ × Cell) :=
  (shift (config.scaling sqrt target raw)).map fun e => (e.1, e.2.getD (.finite 1))

/-- `raw * lev` -/
def scaled (raw : List (ℤ × ℚ)) (leverage : List (ℤ × Cell)) : List (ℤ × Cell) :=
  raw.map fun e => (e.1, (Cell.finite e.2).mul ((at? leverage e.1).getD .nan))

/-- The series of `build_blended_book` on legs and a conviction that are on its index. -/
def blendOn (sqrt : ℚ → ℚ) (index : List ℤ) (carry core : RawSeries)
    (conviction : Option RawSeries) : Except PyError Blend :=
  let coreAllocation := config.coreAllocation index conviction
  let raw := config.raw coreAllocation conviction.isSome carry core
  match config.targetAnnualVol with
  | none =>
    .ok { coreAllocation, raw, leverage := none, book := raw.map fun e => (e.1, .finite e.2) }
  | some target =>
    if config.volWindow < 0 then .error (.valueError "window must be an integer 0 or greater")
    else
      let leverage := config.leverage sqrt target raw
      .ok { coreAllocation, raw, leverage := some leverage, book := scaled raw leverage }

/-- `build_blended_book` up to the book. -/
def blend (sqrt : ℚ → ℚ) (carryReturns coreReturns : RawSeries)
    (coreConviction : Option RawSeries) : Except PyError Blend :=
  if config.carryWeight + config.coreWeight = 0 then .error .zeroDivisionError
  else do
    let index ← dateRange (overlap carryReturns coreReturns)
    let carry ← reindexed index carryReturns
    let core ← reindexed index coreReturns
    let conviction ← reindexedOption index coreConviction
    config.blendOn sqrt index carry core conviction

end BlendConfig

/-- One turn of `(1.0 + book).cumprod()`: an entry that is not a number is passed over. -/
def compound (equity ret : Cell) : Cell × Cell :=
  if ret = .nan then (equity, .nan) else (equity.mul ret.succ, equity.mul ret.succ)

/-- `build_blended_book` -/
def buildBlendedBook (sqrt : ℚ → ℚ) (carryReturns coreReturns : RawSeries)
    (config : BlendConfig := {}) (coreConviction : Option RawSeries := none) :
    Except PyError BlendedBookResult := do
  let blend ← config.blend sqrt carryReturns coreReturns coreConviction
  return { dailyReturns := blend.book, equityCurve := walk compound (.finite 1) blend.book }

/-- The series have the same values before a day. -/
def AgreeBefore (day : ℤ) (s s' : RawSeries) : Prop := ∀ t < day, at? s t = at? s' t

/-! ## The index -/

theorem pairwise_dateRange {span : Option ℤ × Option ℤ} {index : List ℤ}
    (h : dateRange span = .ok index) : index.Pairwise (· < ·) := by
  unfold dateRange at h
  split at h
  · cases h
    refine List.pairwise_map.mpr (List.pairwise_lt_range.imp fun hlt => ?_)
    unfold dayLength
    omega
  · cases h

theorem reindexed_ok {index : List ℤ} {s s' : RawSeries} (h : reindexed index s = .ok s') :
    s' = reindex index s := by
  unfold reindexed at h
  split at h
  · exact (Except.ok.inj h).symm
  · cases h

theorem reindexedOption_ok {index : List ℤ} {s s' : Option RawSeries}
    (h : reindexedOption index s = .ok s') : s' = s.map (reindex index) := by
  cases s with
  | none => exact (Except.ok.inj h).symm
  | some s =>
    obtain ⟨_, hreindexed, rfl⟩ := Except.map_eq_ok.mp h
    rw [reindexed_ok hreindexed]
    rfl

namespace BlendConfig

variable {config : BlendConfig} {sqrt : ℚ → ℚ} {target : ℚ} {index : List ℤ} {day : ℤ}
  {carry core carry' core' : RawSeries} {conviction conviction' : Option RawSeries}
  {allocation allocation' raw raw' : List (ℤ × ℚ)} {dynamic : Bool}

/-! ## The rows of the series -/

theorem map_fst_coreAllocation (hindex : ∀ s ∈ conviction, s.map Prod.fst = index) :
    (config.coreAllocation index conviction).map Prod.fst = index := by
  cases conviction with
  | none =>
    rw [coreAllocation, List.map_map]
    exact List.map_id _
  | some s =>
    rw [coreAllocation, List.map_map]
    exact map_fst_walk.trans (hindex s rfl)

theorem map_fst_raw : (config.raw allocation dynamic carry core).map Prod.fst =
    allocation.map Prod.fst := by
  rw [BlendConfig.raw, List.map_map]
  rfl

theorem map_fst_scaling : (config.scaling sqrt target raw).map Prod.fst = raw.map Prod.fst := by
  rw [scaling, List.map_map]
  exact map_fst_walk

theorem map_fst_leverage : (config.leverage sqrt target raw).map Prod.fst = raw.map Prod.fst := by
  rw [leverage, List.map_map, ← map_fst_scaling, ← map_fst_shift]
  rfl

theorem map_fst_scaled {leverage : List (ℤ × Cell)} :
    (scaled raw leverage).map Prod.fst = raw.map Prod.fst := by
  rw [scaled, List.map_map]
  rfl

/-! ## No look-ahead -/

theorem agreeBefore_reindex (h : AgreeBefore day carry carry') :
    AgreeBefore day (reindex index carry) (reindex index carry') :=
  fun _ ht => at?_of_before (before_reindex h) ht

/-- A conviction known up to a day settles the allocation of the day. -/
theorem before_coreAllocation (hindex : index.Pairwise (· < ·))
    (h : Option.Rel (AgreeBefore day) conviction conviction') :
    before day (config.coreAllocation index (conviction.map (reindex index))) =
      before day (config.coreAllocation index (conviction'.map (reindex index))) := by
  cases h with
  | none => rfl
  | @some s s' h =>
    have hrows : ∀ s : RawSeries, (reindex index s).Pairwise fun a b => a.1 < b.1 :=
      fun s => pairwise_of_map_fst map_fst_reindex hindex
    simp only [Option.map_some, coreAllocation, before_map, ffill, before_walk (hrows _),
      before_reindex h]

theorem before_raw (hallocation : before day allocation = before day allocation')
    (hcarry : AgreeBefore day carry carry') (hcore : AgreeBefore day core core') :
    before day (config.raw allocation dynamic carry core) =
      before day (config.raw allocation' dynamic carry' core') := by
  rw [BlendConfig.raw, BlendConfig.raw, before_map, before_map, hallocation]
  refine List.map_congr_left fun e he => ?_
  have hlt : e.1 < day := (mem_before.mp he).2
  rw [hcarry e.1 hlt, hcore e.1 hlt]

section

variable (hraw : raw.Pairwise fun a b => a.1 < b.1) (hraw' : raw'.Pairwise fun a b => a.1 < b.1)
  (hsame : before day raw = before day raw')

include hraw hraw' hsame

theorem before_scaling : before day (config.scaling sqrt target raw) =
    before day (config.scaling sqrt target raw') := by
  rw [scaling, scaling, before_map, before_map, rollingRows, before_walk hraw, before_walk hraw',
    hsame]

theorem before_leverage : before day (config.leverage sqrt target raw) =
    before day (config.leverage sqrt target raw') := by
  have hrows : ∀ raw : List (ℤ × ℚ), (raw.Pairwise fun a b => a.1 < b.1) →
      (config.scaling sqrt target raw).Pairwise fun a b => a.1 < b.1 := fun raw hraw =>
    List.pairwise_map.mp (map_fst_scaling ▸ List.pairwise_map.mpr hraw)
  rw [leverage, leverage, before_map, before_map, before_shift (hrows raw hraw),
    before_shift (hrows raw' hraw'), before_scaling hraw hraw' hsame]

/-- The leverage of a day is decided by the days before it. -/
theorem at?_leverage (htimes : raw.map Prod.fst = raw'.map Prod.fst) :
    at? (config.leverage sqrt target raw) day = at? (config.leverage sqrt target raw') day := by
  have hvalue : ∀ raw : List (ℤ × ℚ), (raw.Pairwise fun a b => a.1 < b.1) →
      day ∈ raw.map Prod.fst → at? (config.leverage sqrt target raw) day =
        some (((before day (config.scaling sqrt target raw)).getLast?.bind Prod.snd).getD
          (.finite 1)) := by
    intro raw hraw hday
    rw [leverage, at?_map (fun v : Option Cell => v.getD (.finite 1)), at?_shift, Option.map_some]
    · exact List.pairwise_map.mp (map_fst_scaling ▸ List.pairwise_map.mpr hraw)
    · rwa [map_fst_scaling]
  by_cases hday : day ∈ raw.map Prod.fst
  · rw [hvalue raw hraw hday, hvalue raw' hraw' (htimes ▸ hday),
      before_scaling hraw hraw' hsame]
  · have hnone : ∀ raw : List (ℤ × ℚ), day ∉ raw.map Prod.fst →
        at? (config.leverage sqrt target raw) day = none := by
      intro raw hday
      apply at?_eq_none
      rwa [map_fst_leverage]
    rw [hnone raw hday, hnone raw' (htimes ▸ hday)]

theorem before_scaled : before day (scaled raw (config.leverage sqrt target raw)) =
    before day (scaled raw' (config.leverage sqrt target raw')) := by
  have hleverage : before day (config.leverage sqrt target raw) =
      before day (config.leverage sqrt target raw') := before_leverage hraw hraw' hsame
  rw [scaled, scaled, before_map, before_map, hsame]
  refine List.map_congr_left fun e he => ?_
  rw [at?_of_before hleverage (mem_before.mp he).2]

end

/-! ## The bounds of the leverage -/

/-- A volatility, whatever it is, gives a scaling above zero and up to the cap. -/
theorem clipAbove_div_mem {cap vol : ℚ} (htarget : 0 < target) (hcap : 0 < cap) (hvol : 0 ≤ vol) :
    ∃ l, (Cell.div target vol).clipAbove cap = .finite l ∧ 0 < l ∧ l ≤ cap := by
  unfold Cell.div
  by_cases hzero : vol = 0
  · rw [if_neg (not_not.mpr hzero), if_pos htarget]
    exact ⟨cap, rfl, hcap, le_rfl⟩
  · rw [if_pos hzero]
    exact ⟨_, rfl, lt_min (div_pos htarget (lt_of_le_of_ne hvol (Ne.symm hzero))) hcap,
      min_le_right _ _⟩

theorem sampleStd_nonneg {values : List ℚ} {std : ℚ} (hsqrt : ∀ x, 0 ≤ x → 0 ≤ sqrt x)
    (h : sampleStd sqrt values = some std) : 0 ≤ std := by
  unfold sampleStd at h
  split at h
  · cases h
  · next hlength =>
    cases h
    apply hsqrt
    apply div_nonneg
    · refine List.sum_nonneg fun x hx => ?_
      obtain ⟨y, _, rfl⟩ := List.mem_map.mp hx
      exact sq_nonneg _
    · rw [sub_nonneg]
      exact_mod_cast (not_le.mp hlength).le

theorem mem_scaling (hsqrt : ∀ x, 0 ≤ x → 0 ≤ sqrt x) (htarget : 0 < target)
    (hcap : 0 < config.leverageCap) {t : ℤ} {cell : Cell}
    (h : (t, some cell) ∈ config.scaling sqrt target raw) :
    ∃ l, cell = .finite l ∧ 0 < l ∧ l ≤ config.leverageCap := by
  obtain ⟨⟨i, value⟩, hrow, heq⟩ := List.mem_map.mp h
  obtain ⟨std, rfl, hcell⟩ := Option.bind_eq_some_iff.mp (congrArg Prod.snd heq)
  obtain ⟨values, hvalues⟩ := exists_of_mem_rollingRows hrow
  have hvol : 0 ≤ std * sqrt 365 :=
    mul_nonneg (sampleStd_nonneg hsqrt hvalues) (hsqrt 365 (by norm_num))
  obtain ⟨l, hl, hpos, hle⟩ := clipAbove_div_mem htarget hcap hvol
  rw [hl] at hcell
  exact ⟨l, (Option.some.inj hcell).symm, hpos, hle⟩

/-- Every leverage is above zero and up to the cap. -/
theorem mem_leverage (hsqrt : ∀ x, 0 ≤ x → 0 ≤ sqrt x) (htarget : 0 < target)
    (hcap : 1 ≤ config.leverageCap) {e : ℤ × Cell}
    (he : e ∈ config.leverage sqrt target raw) :
    ∃ l, e.2 = .finite l ∧ 0 < l ∧ l ≤ config.leverageCap := by
  obtain ⟨⟨t, value⟩, hrow, rfl⟩ := List.mem_map.mp he
  cases value with
  | none => exact ⟨1, rfl, zero_lt_one, hcap⟩
  | some cell =>
    obtain ⟨t', ht'⟩ := mem_of_mem_shift hrow
    exact mem_scaling hsqrt htarget (zero_lt_one.trans_le hcap) ht'

/-! ## Two runs -/

/-- What `build_blended_book` works with when it returns: legs and a conviction on its index. -/
theorem blend_ok {blend : Blend} (h : config.blend sqrt carry core conviction = .ok blend) :
    ∃ index, dateRange (overlap carry core) = .ok index ∧
      config.blendOn sqrt index (reindex index carry) (reindex index core)
        (conviction.map (reindex index)) = .ok blend := by
  unfold BlendConfig.blend at h
  split at h
  · cases h
  · obtain ⟨index, hindex, h⟩ := Except.bind_eq_ok.mp h
    obtain ⟨carry', hcarry, h⟩ := Except.bind_eq_ok.mp h
    obtain ⟨core', hcore, h⟩ := Except.bind_eq_ok.mp h
    obtain ⟨conviction', hconviction, h⟩ := Except.bind_eq_ok.mp h
    rw [reindexed_ok hcarry, reindexed_ok hcore, reindexedOption_ok hconviction] at h
    exact ⟨index, hindex, h⟩

/-- With a target the leverage is applied to the raw book. -/
structure Levered (config : BlendConfig) (sqrt : ℚ → ℚ) (target : ℚ) (index : List ℤ)
    (carry core : RawSeries) (conviction : Option RawSeries) (blend : Blend) : Prop where
  coreAllocation : blend.coreAllocation =
    config.coreAllocation index (conviction.map (reindex index))
  raw : blend.raw = config.raw blend.coreAllocation conviction.isSome (reindex index carry)
    (reindex index core)
  leverage : blend.leverage = some (config.leverage sqrt target blend.raw)
  book : blend.book = scaled blend.raw (config.leverage sqrt target blend.raw)

theorem levered_of_ok (htarget : config.targetAnnualVol = some target) {blend : Blend}
    (h : config.blend sqrt carry core conviction = .ok blend) :
    ∃ index, dateRange (overlap carry core) = .ok index ∧
      config.Levered sqrt target index carry core conviction blend := by
  obtain ⟨index, hindex, h⟩ := blend_ok h
  refine ⟨index, hindex, ?_⟩
  unfold blendOn at h
  simp only [htarget] at h
  split at h
  · cases h
  · cases h
    exact ⟨rfl, by rw [Option.isSome_map], rfl, rfl⟩

theorem Levered.map_fst_raw {blend : Blend}
    (h : config.Levered sqrt target index carry core conviction blend) :
    blend.raw.map Prod.fst = index := by
  rw [h.raw, BlendConfig.map_fst_raw, h.coreAllocation]
  refine map_fst_coreAllocation fun s hs => ?_
  obtain ⟨s', _, rfl⟩ := Option.map_eq_some_iff.mp hs
  exact map_fst_reindex

end BlendConfig

open BlendConfig in
/-- On two pairs of legs over the same span that have the same values before a day, with convictions
that have the same values up to and on the day, `build_blended_book` applies the same leverage and
the same core allocation on the day, and the returns and the equity before the day are the same.
Every leverage is above zero and at most the cap. -/
theorem buildBlendedBook_no_lookahead {sqrt : ℚ → ℚ} (hsqrt : ∀ x, 0 ≤ x → 0 ≤ sqrt x)
    {config : BlendConfig} {target : ℚ} (htarget : config.targetAnnualVol = some target)
    (hpos : 0 < target) (hcap : 1 ≤ config.leverageCap) {day : ℤ}
    {carry core carry' core' : RawSeries} {conviction conviction' : Option RawSeries}
    (hspan : overlap carry core = overlap carry' core') (hcarry : AgreeBefore day carry carry')
    (hcore : AgreeBefore day core core')
    (hconviction : Option.Rel (AgreeBefore (day + 1)) conviction conviction')
    {blend blend' : Blend} (h : config.blend sqrt carry core conviction = .ok blend)
    (h' : config.blend sqrt carry' core' conviction' = .ok blend') :
    (∃ leverage leverage', blend.leverage = some leverage ∧ blend'.leverage = some leverage' ∧
      at? leverage day = at? leverage' day ∧
      ∀ e ∈ leverage ++ leverage', ∃ l, e.2 = .finite l ∧ 0 < l ∧ l ≤ config.leverageCap) ∧
    at? blend.coreAllocation day = at? blend'.coreAllocation day ∧
    ∃ result result', buildBlendedBook sqrt carry core config conviction = .ok result ∧
      buildBlendedBook sqrt carry' core' config conviction' = .ok result' ∧
      before day result.dailyReturns = before day result'.dailyReturns ∧
      before day result.equityCurve = before day result'.equityCurve := by
  obtain ⟨index, hindex, hlevered⟩ := levered_of_ok htarget h
  obtain ⟨index', hindex', hlevered'⟩ := levered_of_ok htarget h'
  rw [← hspan, hindex] at hindex'
  cases hindex'
  have hdays := pairwise_dateRange hindex
  have hraw := pairwise_of_map_fst hlevered.map_fst_raw hdays
  have hraw' := pairwise_of_map_fst hlevered'.map_fst_raw hdays
  have hallocation : before (day + 1) blend.coreAllocation =
      before (day + 1) blend'.coreAllocation := by
    rw [hlevered.coreAllocation, hlevered'.coreAllocation]
    exact before_coreAllocation hdays hconviction
  have hdynamic : conviction.isSome = conviction'.isSome := by cases hconviction <;> rfl
  have hsame : before day blend.raw = before day blend'.raw := by
    rw [hlevered.raw, hlevered'.raw, hdynamic]
    exact before_raw (before_of_before hallocation (by omega)) (agreeBefore_reindex hcarry)
      (agreeBefore_reindex hcore)
  have htimes : blend.raw.map Prod.fst = blend'.raw.map Prod.fst :=
    hlevered.map_fst_raw.trans hlevered'.map_fst_raw.symm
  have hbook : before day blend.book = before day blend'.book := by
    rw [hlevered.book, hlevered'.book]
    exact before_scaled hraw hraw' hsame
  have hequity : before day (walk compound (.finite 1) blend.book) =
      before day (walk compound (.finite 1) blend'.book) := by
    have hrows : (blend.book.Pairwise fun a b => a.1 < b.1) ∧
        blend'.book.Pairwise fun a b => a.1 < b.1 := by
      rw [hlevered.book, hlevered'.book]
      exact ⟨pairwise_of_map_fst (map_fst_scaled.trans hlevered.map_fst_raw) hdays,
        pairwise_of_map_fst (map_fst_scaled.trans hlevered'.map_fst_raw) hdays⟩
    rw [before_walk hrows.1, before_walk hrows.2, hbook]
  refine ⟨⟨_, _, hlevered.leverage, hlevered'.leverage, at?_leverage hraw hraw' hsame htimes,
    fun e he => ?_⟩, at?_of_before hallocation (by omega), ?_⟩
  · rcases List.mem_append.mp he with he | he
    · exact mem_leverage hsqrt hpos hcap he
    · exact mem_leverage hsqrt hpos hcap he
  · refine ⟨⟨_, walk compound (.finite 1) blend.book⟩, ⟨_, walk compound (.finite 1) blend'.book⟩,
      ?_, ?_, hbook, hequity⟩
    · rw [buildBlendedBook, h]
      rfl
    · rw [buildBlendedBook, h']
      rfl

/-- A square root to eight decimals. -/
def decimalSqrt (x : ℚ) : ℚ := (Nat.sqrt (x * 10 ^ 16).floor.toNat : ℚ) / 10 ^ 8

/-- A leg with the given returns on the first days of 1970. -/
def dailyLeg (returns : List ℚ) : RawSeries :=
  returns.mapIdx fun k ret => (k * dayLength, some ret)

/-- A window of two days, and a core leg that falls by a half on the fourth day or does not. -/
theorem buildBlendedBook_no_lookahead_fall : ∃ result result',
    buildBlendedBook decimalSqrt (dailyLeg [0, 0, 0, 0]) (dailyLeg [0, 1 / 100, 0, 0])
      { volWindow := 2 } = .ok result ∧
    buildBlendedBook decimalSqrt (dailyLeg [0, 0, 0, 0]) (dailyLeg [0, 1 / 100, 0, -1 / 2])
      { volWindow := 2 } = .ok result' ∧
    before (3 * dayLength) result.dailyReturns = before (3 * dayLength) result'.dailyReturns ∧
    before (3 * dayLength) result.equityCurve = before (3 * dayLength) result'.equityCurve := by
  have hsqrt : ∀ x : ℚ, 0 ≤ x → 0 ≤ decimalSqrt x := fun x _ => by
    unfold decimalSqrt
    positivity
  have hok : ∀ last ∈ [(0 : ℚ), -1 / 2], ∃ blend,
      ({ volWindow := 2 } : BlendConfig).blend decimalSqrt (dailyLeg [0, 0, 0, 0])
        (dailyLeg [0, 1 / 100, 0, last]) none = .ok blend := by
    intro last hlast
    have hreturns : (({ volWindow := 2 } : BlendConfig).blend decimalSqrt (dailyLeg [0, 0, 0, 0])
        (dailyLeg [0, 1 / 100, 0, last]) none).isOk = true := by
      revert last
      decide +kernel
    cases hblend : ({ volWindow := 2 } : BlendConfig).blend decimalSqrt (dailyLeg [0, 0, 0, 0])
        (dailyLeg [0, 1 / 100, 0, last]) none with
    | error e =>
      rw [hblend] at hreturns
      cases hreturns
    | ok blend => exact ⟨blend, rfl⟩
  obtain ⟨blend, hblend⟩ := hok 0 (by simp)
  obtain ⟨blend', hblend'⟩ := hok (-1 / 2) (by simp)
  have hcore : AgreeBefore (3 * dayLength) (dailyLeg [0, 1 / 100, 0, 0])
      (dailyLeg [0, 1 / 100, 0, -1 / 2]) := fun _ ht => at?_of_before (by decide +kernel) ht
  exact (buildBlendedBook_no_lookahead hsqrt rfl (by norm_num) (by norm_num) (by decide +kernel)
    (fun _ _ => rfl) hcore .none hblend hblend').2.2

end TradingPlatform
