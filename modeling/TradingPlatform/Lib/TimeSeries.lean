import Mathlib

/-!
# Time series

A time series is a list of values by increasing time, where a missing value is `none`. Its
operations look back: the mean over a window of time or of rows, the last value of each interval of
a grid that has an entry for the empty intervals too, the filling of a gap with the last value, and
the shift by one row. What each of them gives before a time is decided by what it is given before
that time, and the shift gives at a time what came before it.
-/

namespace TimeSeries

variable {ι α β : Type*} [LinearOrder ι]

/-- The entries before a time. -/
def before (t : ι) (s : List (ι × α)) : List (ι × α) := s.filter (·.1 < t)

/-- The value at a time. -/
def at? (s : List (ι × α)) (t : ι) : Option α := (s.find? (·.1 = t)).map Prod.snd

/-- What `agg` makes of the values in the window of each row. The window is open at its start, and
the time of the row itself is in it wherever it starts. -/
def rolling (start : ι → ι) (agg : List α → Option β) (s : List (ι × Option α)) :
    List (ι × Option β) :=
  s.map fun e => (e.1, agg ((s.filter fun x =>
    (start e.1 < x.1 ∨ x.1 = e.1) ∧ x.1 ≤ e.1).filterMap Prod.snd))

/-- The intervals from the one of the first row to the one of the last, with the empty ones. -/
def intervals (bin : ι → ℤ) (s : List (ι × α)) : List ℤ :=
  match s.head?, s.getLast? with
  | some first, some last =>
    (List.range (bin last.1 - bin first.1 + 1).toNat).map fun k : ℕ => bin first.1 + k
  | _, _ => []

/-- The last value in each interval. -/
def resampleLast (bin : ι → ℤ) (s : List (ι × Option α)) : List (ℤ × Option α) :=
  (intervals bin s).map fun d => (d, ((s.filter (bin ·.1 = d)).filterMap Prod.snd).getLast?)

/-- Each value with the one of the row before. -/
def lagFrom (prev : Option α) : List (ι × α) → List (ι × Option α × α)
  | [] => []
  | (i, v) :: rest => (i, prev, v) :: lagFrom (some v) rest

/-- The values on another index; where there is none, it is missing. -/
def reindex (index : List ι) (s : List (ι × Option α)) : List (ι × Option α) :=
  index.map fun t => (t, (at? s t).join)

/-- What `f` makes of each row and of the state that the rows before it leave. -/
def walk {σ : Type*} (f : σ → α → σ × β) : σ → List (ι × α) → List (ι × β)
  | _, [] => []
  | x, (i, v) :: rest => (i, (f x v).2) :: walk f (f x v).1 rest

/-- Each missing value filled with the last one before it. -/
def ffill : List (ι × Option α) → List (ι × Option α) :=
  walk (fun last v => (v.or last, v.or last)) none

/-- What `agg` makes of the last `n` rows up to each row, as soon as there are so many. -/
def rollingRows (n : ℕ) (agg : List α → Option β) : List (ι × α) → List (ι × Option β) :=
  walk (fun past v => (past ++ [v], if n ≤ past.length + 1 then
    agg ((past ++ [v]).drop (past.length + 1 - n)) else none)) []

/-- The values moved to the next row. -/
def shift (s : List (ι × Option α)) : List (ι × Option α) :=
  (lagFrom none s).map fun e => (e.1, e.2.1.join)

variable {t : ι} {s s' : List (ι × α)}

theorem mem_before {e : ι × α} : e ∈ before t s ↔ e ∈ s ∧ e.1 < t := by
  rw [before, List.mem_filter, decide_eq_true_eq]

theorem before_map {f : ι × α → β} :
    before t (s.map fun e => (e.1, f e)) = (before t s).map fun e => (e.1, f e) := by
  rw [before, List.filter_map]
  rfl

theorem before_eq_nil (h : ∀ e ∈ s, t ≤ e.1) : before t s = [] :=
  List.filter_eq_nil_iff.mpr fun e he => by simpa using h e he

/-- Series that agree before a time agree before an earlier one. -/
theorem before_of_before {u : ι} (h : before t s = before t s') (hu : u ≤ t) :
    before u s = before u s' := by
  have hbefore : ∀ s : List (ι × α), before u s = before u (before t s) := by
    intro s
    rw [before, before, before, List.filter_filter]
    refine List.filter_congr fun e _ => ?_
    rw [← Bool.decide_and]
    exact decide_eq_decide.mpr ⟨fun he => ⟨he, he.trans_le hu⟩, And.left⟩
  rw [hbefore s, hbefore s', h]

theorem at?_map (f : α → β) : at? (s.map fun e => (e.1, f e.2)) t = (at? s t).map f := by
  rw [at?, at?, List.find?_map, Option.map_map, Option.map_map]
  rfl

/-- A value before a time is found among the entries before it. -/
theorem at?_of_before {u : ι} (h : before t s = before t s') (hu : u < t) : at? s u = at? s' u := by
  have hfind : ∀ s : List (ι × α), at? s u = at? (before t s) u := by
    intro s
    rw [at?, at?, before, List.find?_filter]
    congr 2
    funext e
    refine decide_eq_decide.mpr ⟨fun he => ?_, fun he => of_decide_eq_true he.2⟩
    exact ⟨decide_eq_true (he ▸ hu), decide_eq_true he⟩
  rw [hfind s, hfind s', h]

theorem at?_of_mem {v : α} (hs : s.Pairwise fun a b => a.1 < b.1) (hv : (t, v) ∈ s) :
    at? s t = some v := by
  induction s with
  | nil => cases hv
  | cons e rest ih =>
    obtain ⟨hlater, hrest⟩ := List.pairwise_cons.mp hs
    rcases List.mem_cons.mp hv with rfl | hv
    · simp [at?]
    · rw [at?, List.find?_cons_of_neg (by simpa using (hlater _ hv).ne)]
      exact ih hrest hv

theorem pairwise_of_map_fst {index : List ι} (h : s.map Prod.fst = index)
    (hindex : index.Pairwise (· < ·)) : s.Pairwise fun a b => a.1 < b.1 :=
  List.pairwise_map.mp (h ▸ hindex)

theorem at?_eq_none (h : t ∉ s.map Prod.fst) : at? s t = none := by
  rw [at?, Option.map_eq_none_iff, List.find?_eq_none]
  intro e he heq
  exact h (of_decide_eq_true heq ▸ List.mem_map_of_mem he)

/-! ## Windows -/

section Rolling

variable {start : ι → ι} {agg : List α → Option β} {s s' : List (ι × Option α)}

/-- Rows that agree before a time, in whatever order, have the same windows before it. -/
theorem before_rolling (hagg : ∀ l l' : List α, l.Perm l' → agg l = agg l')
    (hs : s.Pairwise fun a b => a.1 ≤ b.1) (hs' : s'.Pairwise fun a b => a.1 ≤ b.1)
    (hperm : (before t s).Perm (before t s')) :
    before t (rolling start agg s) = before t (rolling start agg s') := by
  have hrows : ∀ s : List (ι × Option α), before t (rolling start agg s) =
      ((before t s).map Prod.fst).map fun i =>
        (i, agg (((before t s).filter fun x =>
          (start i < x.1 ∨ x.1 = i) ∧ x.1 ≤ i).filterMap Prod.snd)) := by
    intro s
    rw [rolling, before_map, List.map_map]
    refine List.map_congr_left fun e he => ?_
    rw [Function.comp_apply, before, List.filter_filter]
    congr 3
    refine List.filter_congr fun x _ => ?_
    have hlt : x.1 ≤ e.1 → x.1 < t := fun hx => hx.trans_lt (mem_before.mp he).2
    rw [← Bool.decide_and]
    exact decide_eq_decide.mpr ⟨fun h => ⟨h, hlt h.2⟩, And.left⟩
  have htimes : (before t s).map Prod.fst = (before t s').map Prod.fst :=
    (hperm.map _).eq_of_pairwise' (List.pairwise_map.mpr (hs.filter _))
      (List.pairwise_map.mpr (hs'.filter _))
  rw [hrows s, hrows s', htimes]
  exact List.map_congr_left fun i _ => Prod.ext rfl (hagg _ _ ((hperm.filter _).filterMap _))

theorem map_fst_rolling : (rolling start agg s).map Prod.fst = s.map Prod.fst := by
  rw [rolling, List.map_map]
  rfl

end Rolling

/-! ## Intervals -/

section Intervals

variable {bin : ι → ℤ} {d D : ℤ}

omit [LinearOrder ι] in
theorem pairwise_intervals : (intervals bin s).Pairwise (· < ·) := by
  unfold intervals
  split
  · refine List.pairwise_map.mpr (List.pairwise_lt_range.imp fun hlt => ?_)
    omega
  · exact List.Pairwise.nil

/-- The intervals are those between two rows. -/
theorem mem_intervals (hbin : Monotone bin) (hs : s.Pairwise fun a b => a.1 ≤ b.1) :
    d ∈ intervals bin s ↔ (∃ e ∈ s, bin e.1 ≤ d) ∧ ∃ e ∈ s, d ≤ bin e.1 := by
  rcases List.eq_nil_or_concat' s with rfl | ⟨init, last, hlast⟩
  · simp [intervals]
  · cases s with
    | nil => simp at hlast
    | cons first rest =>
      have hend : (first :: rest).getLast? = some last := by rw [hlast, List.getLast?_concat]
      have hmem : last ∈ first :: rest := List.mem_of_getLast? hend
      have hfirst : ∀ e ∈ first :: rest, bin first.1 ≤ bin e.1 := by
        intro e he
        rcases List.mem_cons.mp he with rfl | he
        · exact le_rfl
        · exact hbin ((List.pairwise_cons.mp hs).1 e he)
      have hupper : ∀ e ∈ first :: rest, bin e.1 ≤ bin last.1 := by
        intro e he
        rw [hlast] at he hs
        rcases List.mem_append.mp he with he | he
        · exact hbin ((List.pairwise_append.mp hs).2.2 e he last (List.mem_singleton_self _))
        · rw [List.mem_singleton.mp he]
      rw [intervals, List.head?_cons, hend]
      constructor
      · intro hd
        obtain ⟨k, hk, rfl⟩ := List.mem_map.mp hd
        rw [List.mem_range] at hk
        exact ⟨⟨first, List.mem_cons_self, by omega⟩, last, hmem, by omega⟩
      · rintro ⟨⟨e, he, hle⟩, e', he', hge⟩
        have hlow := hfirst e he
        have hhigh := hupper e' he'
        refine List.mem_map.mpr ⟨(d - bin first.1).toNat, List.mem_range.mpr ?_, ?_⟩
        · omega
        · omega

omit [LinearOrder ι] in
theorem map_fst_resampleLast {s : List (ι × Option α)} :
    (resampleLast bin s).map Prod.fst = intervals bin s := by
  rw [resampleLast, List.map_map]
  exact List.map_id _

/-- Series that agree before an interval that both reach have the same intervals before it. -/
theorem before_intervals (hbin : Monotone bin) (ht : ∀ i, i < t ↔ bin i < D)
    (hs : s.Pairwise fun a b => a.1 ≤ b.1) (hs' : s'.Pairwise fun a b => a.1 ≤ b.1)
    (hsame : before t s = before t s') (hD : ∃ e ∈ s, bin e.1 = D)
    (hD' : ∃ e ∈ s', bin e.1 = D) :
    (intervals bin s).filter (· < D) = (intervals bin s').filter (· < D) := by
  have hmem : ∀ s : List (ι × α), s.Pairwise (fun a b => a.1 ≤ b.1) → (∃ e ∈ s, bin e.1 = D) →
      ∀ d, d ∈ (intervals bin s).filter (· < D) ↔ (∃ e ∈ before t s, bin e.1 ≤ d) ∧ d < D := by
    intro s hs hD d
    rw [List.mem_filter, mem_intervals hbin hs, decide_eq_true_eq]
    refine and_congr_left fun hd => ?_
    constructor
    · rintro ⟨⟨e, he, hle⟩, -⟩
      exact ⟨e, mem_before.mpr ⟨he, (ht _).mpr (hle.trans_lt hd)⟩, hle⟩
    · rintro ⟨e, he, hle⟩
      obtain ⟨last, hlast, rfl⟩ := hD
      exact ⟨⟨e, (mem_before.mp he).1, hle⟩, last, hlast, hd.le⟩
  refine (pairwise_intervals.filter _).eq_of_mem_iff (pairwise_intervals.filter _) fun d => ?_
  rw [hmem s hs hD, hmem s' hs' hD', hsame]

/-- What the intervals before a time hold is decided by the rows before it. -/
theorem before_resampleLast {s s' : List (ι × Option α)} (hbin : Monotone bin)
    (ht : ∀ i, i < t ↔ bin i < D) (hs : s.Pairwise fun a b => a.1 ≤ b.1)
    (hs' : s'.Pairwise fun a b => a.1 ≤ b.1) (hsame : before t s = before t s')
    (hD : ∃ e ∈ s, bin e.1 = D) (hD' : ∃ e ∈ s', bin e.1 = D) :
    before D (resampleLast bin s) = before D (resampleLast bin s') := by
  have hrows : ∀ s : List (ι × Option α), before D (resampleLast bin s) =
      ((intervals bin s).filter (· < D)).map fun d =>
        (d, (((before t s).filter (bin ·.1 = d)).filterMap Prod.snd).getLast?) := by
    intro s
    rw [resampleLast, before, List.filter_map]
    refine List.map_congr_left fun d hd => ?_
    have hlt : d < D := by simpa using (List.mem_filter.mp hd).2
    rw [before, List.filter_filter]
    congr 3
    refine List.filter_congr fun e _ => ?_
    rw [← Bool.decide_and]
    exact decide_eq_decide.mpr ⟨fun h => ⟨h, (ht _).mpr (h ▸ hlt)⟩, And.left⟩
  rw [hrows s, hrows s', before_intervals hbin ht hs hs' hsame hD hD', hsame]

end Intervals

/-! ## The row before -/

section Lag

variable {prev : Option α} {v : α}

omit [LinearOrder ι] in
theorem map_fst_lagFrom : (lagFrom prev s).map Prod.fst = s.map Prod.fst := by
  induction s generalizing prev with
  | nil => rfl
  | cons e rest ih => rw [lagFrom, List.map_cons, ih, List.map_cons]

theorem before_lagFrom (hs : s.Pairwise fun a b => a.1 < b.1) :
    before t (lagFrom prev s) = lagFrom prev (before t s) := by
  induction s generalizing prev with
  | nil => rfl
  | cons e rest ih =>
    obtain ⟨hlater, hrest⟩ := List.pairwise_cons.mp hs
    by_cases he : e.1 < t
    · have hkeep : before t (e :: rest) = e :: before t rest :=
        List.filter_cons_of_pos (decide_eq_true he)
      rw [hkeep, lagFrom, lagFrom, ← ih hrest]
      exact List.filter_cons_of_pos (decide_eq_true he)
    · have hnone : ∀ x ∈ e :: rest, t ≤ x.1 := by
        intro x hx
        rcases List.mem_cons.mp hx with rfl | hx
        · exact not_lt.mp he
        · exact (not_lt.mp he).trans (hlater x hx).le
      rw [before_eq_nil hnone]
      refine before_eq_nil fun x hx => ?_
      have hx := List.mem_map_of_mem (f := Prod.fst) hx
      rw [map_fst_lagFrom] at hx
      obtain ⟨y, hy, heq⟩ := List.mem_map.mp hx
      exact heq ▸ hnone y hy

/-- At a row stands the value of the last row before it. -/
theorem at?_lagFrom (hs : s.Pairwise fun a b => a.1 < b.1) (hv : (t, v) ∈ s) :
    at? (lagFrom prev s) t = some (((before t s).getLast?.map Prod.snd).or prev, v) := by
  induction s generalizing prev with
  | nil => cases hv
  | cons e rest ih =>
    obtain ⟨hlater, hrest⟩ := List.pairwise_cons.mp hs
    rcases List.mem_cons.mp hv with rfl | hv
    · have hnone : before t ((t, v) :: rest) = [] := by
        refine before_eq_nil fun x hx => ?_
        rcases List.mem_cons.mp hx with rfl | hx
        · exact le_rfl
        · exact (hlater x hx).le
      rw [hnone]
      simp [at?, lagFrom]
    · have hlt : e.1 < t := hlater _ hv
      have hkeep : before t (e :: rest) = e :: before t rest :=
        List.filter_cons_of_pos (decide_eq_true hlt)
      have hskip : at? (lagFrom prev (e :: rest)) t = at? (lagFrom (some e.2) rest) t := by
        rw [at?, lagFrom, List.find?_cons_of_neg (by simpa using hlt.ne)]
        rfl
      rw [hskip, ih hrest hv, hkeep, List.getLast?_cons]
      cases (before t rest).getLast? with
      | none => rfl
      | some last => rfl

/-- The shift gives at a row what stands in the last row before it. -/
theorem at?_shift {s : List (ι × Option α)} (hs : s.Pairwise fun a b => a.1 < b.1)
    (ht : t ∈ s.map Prod.fst) :
    at? (shift s) t = some ((before t s).getLast?.bind Prod.snd) := by
  obtain ⟨e, he, rfl⟩ := List.mem_map.mp ht
  have hvalues : at? (shift s) e.1 = (at? (lagFrom none s) e.1).map fun p => p.1.join :=
    at?_map fun p : Option (Option α) × Option α => p.1.join
  rw [hvalues, at?_lagFrom hs he, Option.map_some]
  cases (before e.1 s).getLast? with
  | none => rfl
  | some last => rfl

variable {s s' : List (ι × Option α)}

omit [LinearOrder ι] in
theorem map_fst_shift : (shift s).map Prod.fst = s.map Prod.fst := by
  rw [shift, List.map_map]
  exact map_fst_lagFrom

theorem before_shift (hs : s.Pairwise fun a b => a.1 < b.1) :
    before t (shift s) = shift (before t s) := by
  rw [shift, before_map, before_lagFrom hs]
  rfl

omit [LinearOrder ι] in
/-- What is not in the series is not shifted either. -/
theorem mem_of_mem_shift {i : ι} (h : (i, some v) ∈ shift s) : ∃ j, (j, some v) ∈ s := by
  have hlag : ∀ (prev : Option (Option α)) (s : List (ι × Option α)) (e : ι × _ × _),
      e ∈ lagFrom prev s → e.2.1 = some (some v) →
      prev = some (some v) ∨ ∃ j, (j, some v) ∈ s := by
    intro prev s
    induction s generalizing prev with
    | nil => exact fun e he => absurd he List.not_mem_nil
    | cons row rest ih =>
      intro e he hv
      rcases List.mem_cons.mp he with rfl | he
      · exact .inl hv
      · rcases ih (some row.2) e he hv with hrow | ⟨j, hj⟩
        · exact .inr ⟨row.1, by rw [← Option.some.inj hrow]; exact List.mem_cons_self⟩
        · exact .inr ⟨j, List.mem_cons_of_mem _ hj⟩
  obtain ⟨e, he, heq⟩ := List.mem_map.mp h
  have hv : e.2.1 = some (some v) := Option.join_eq_some_iff.mp (congrArg Prod.snd heq)
  rcases hlag none s e he hv with hnone | hmem
  · cases hnone
  · exact hmem

end Lag

/-! ## Walks -/

section Walk

variable {σ : Type*} {f : σ → α → σ × β} {x : σ}

omit [LinearOrder ι] in
theorem map_fst_walk : (walk f x s).map Prod.fst = s.map Prod.fst := by
  induction s generalizing x with
  | nil => rfl
  | cons e rest ih => rw [walk, List.map_cons, ih, List.map_cons]

omit [LinearOrder ι] in
theorem exists_of_mem_walk {e : ι × β} (h : e ∈ walk f x s) : ∃ y v, e.2 = (f y v).2 := by
  induction s generalizing x with
  | nil => cases h
  | cons row rest ih =>
    rcases List.mem_cons.mp h with rfl | h
    · exact ⟨x, row.2, rfl⟩
    · exact ih h

/-- The rows before a time are walked as if there were no others. -/
theorem before_walk (hs : s.Pairwise fun a b => a.1 < b.1) :
    before t (walk f x s) = walk f x (before t s) := by
  induction s generalizing x with
  | nil => rfl
  | cons e rest ih =>
    obtain ⟨hlater, hrest⟩ := List.pairwise_cons.mp hs
    by_cases he : e.1 < t
    · have hkeep : before t (e :: rest) = e :: before t rest :=
        List.filter_cons_of_pos (decide_eq_true he)
      rw [hkeep, walk, walk, ← ih hrest]
      exact List.filter_cons_of_pos (decide_eq_true he)
    · have hnone : ∀ i ∈ (e :: rest).map Prod.fst, t ≤ i := by
        intro i hi
        obtain ⟨x, hx, rfl⟩ := List.mem_map.mp hi
        rcases List.mem_cons.mp hx with rfl | hx
        · exact not_lt.mp he
        · exact (not_lt.mp he).trans (hlater x hx).le
      rw [before_eq_nil fun y hy => hnone _ (List.mem_map_of_mem hy)]
      exact before_eq_nil fun y hy => hnone _ (map_fst_walk ▸ List.mem_map_of_mem hy)

end Walk

omit [LinearOrder ι] in
/-- A value over the last rows is one of some list of values. -/
theorem exists_of_mem_rollingRows {n : ℕ} {agg : List α → Option β} {i : ι} {v : β}
    (h : (i, some v) ∈ rollingRows n agg s) : ∃ l, agg l = some v := by
  obtain ⟨past, last, hv⟩ := exists_of_mem_walk h
  dsimp only at hv
  split at hv
  · exact ⟨_, hv.symm⟩
  · cases hv

theorem before_reindex {index : List ι} {s s' : List (ι × Option α)}
    (h : ∀ i < t, at? s i = at? s' i) :
    before t (reindex index s) = before t (reindex index s') := by
  rw [reindex, reindex, before, before, List.filter_map, List.filter_map]
  refine List.map_congr_left fun i hi => ?_
  rw [h i (by simpa using (List.mem_filter.mp hi).2)]

theorem map_fst_reindex {index : List ι} {s : List (ι × Option α)} :
    (reindex index s).map Prod.fst = index := by
  rw [reindex, List.map_map]
  exact List.map_id _

end TimeSeries
