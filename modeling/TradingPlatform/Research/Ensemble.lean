import TradingPlatform.Lib.Dict
import TradingPlatform.Research.Direction

/-!
# Ensembles of direction candidates

An ensemble lets its members vote on every bar. A side is taken if enough of them agree on it and
fewer are on the other side; a bar without a side is held.
-/

namespace TradingPlatform

open Online

/-! ## The vote -/

/-- `BaseLabel.other` is "HOLD". -/
def vote (minAgreeing : ℤ) (labels : List BaseLabel) : BaseLabel :=
  let upCount := labels.count .up
  let downCount := labels.count .down
  if minAgreeing ≤ upCount ∧ downCount < upCount then .up
  else if minAgreeing ≤ downCount ∧ upCount < downCount then .down
  else .other

/-- The rows of a frame of `n` rows by its columns. -/
def rowsOf {α : Type} (n : ℕ) (columns : List (List α)) : List (List α) :=
  (List.range n).map fun i => columns.filterMap (·[i]?)

/-- The distinct names, each where it comes first. -/
def distinctNames : List String → List String
  | [] => []
  | name :: rest => name :: (distinctNames rest).filter (· ≠ name)

/-- `repr` of a list of plain names. -/
def reprNames (names : List String) : String :=
  "[" ++ ", ".intercalate (names.map fun name => "'" ++ name ++ "'") ++ "]"

/-- The candidates to choose from: the default ones in place of none. -/
def candidatesOr (candidates : Dict String DirectionSignal) : List (String × DirectionSignal) :=
  if candidates.entries = [] then defaultCandidates else candidates.entries

/-- `candidates[name](df)` -/
def memberColumn (candidates : List (String × DirectionSignal)) (bars : List Bar) (name : String) :
    Computed (List BaseLabel) :=
  match candidates.lookup name with
  | some signal => signal bars
  | none => .error (.raised (.keyError name))

/-- The columns of the votes of a frame. -/
def ensembleVotes (candidates : List (String × DirectionSignal)) (memberNames : List String)
    (bars : List Bar) : Computed (List (List BaseLabel)) :=
  (distinctNames memberNames).mapM (memberColumn candidates bars)

/-- `make_ensemble_signal` -/
def makeEnsembleSignal (memberNames : List String) (minAgreeing : ℤ)
    (candidates : Dict String DirectionSignal) : Except PyError DirectionSignal :=
  let candidates := candidatesOr candidates
  let unknown := (distinctNames memberNames).filter (· ∉ candidates.map Prod.fst)
  if unknown ≠ [] then
    .error (.valueError
      ("Unknown direction candidate(s): " ++ reprNames (unknown.mergeSort (· ≤ ·))))
  else if memberNames.length < 2 then
    .error (.valueError "An ensemble needs at least 2 member signals")
  else if ¬ (1 ≤ minAgreeing ∧ minAgreeing ≤ memberNames.length) then
    .error (.valueError "min_agreeing must be between 1 and len(member_names)")
  else .ok fun bars => do
    let votes ← ensembleVotes candidates memberNames bars
    return (rowsOf bars.length votes).map (vote minAgreeing)

/-! ## The grid -/

/-- `itertools.combinations` -/
def combinations {α : Type} : ℕ → List α → List (List α)
  | 0, _ => [[]]
  | _ + 1, [] => []
  | size + 1, x :: rest =>
    (combinations size rest).map (x :: ·) ++ combinations (size + 1) rest

/-- The name up to its first blank. -/
def shortName (name : String) : String := (name.splitOn " ").headD ""

/-- The label of a combination that votes unanimously. -/
def unanimousLabel (combo : List String) (size : ℕ) : String :=
  "+".intercalate (combo.map shortName) ++
    " (unanimous " ++ toString size ++ "/" ++ toString size ++ ")"

/-- `default_ensemble_grid` -/
def defaultEnsembleGrid (candidates : Dict String DirectionSignal) (sizes : List ℕ) :
    Dict String (List String × ℕ) :=
  let names := (candidatesOr candidates).map Prod.fst
  let combos := sizes.flatMap fun size => (combinations size names).map fun combo => (combo, size)
  combos.foldl (fun grid entry => grid.set (unanimousLabel entry.1 entry.2) entry) Dict.empty

/-! ## Combinations -/

section

variable {α : Type} {size : ℕ} {l combo : List α}

theorem mem_combinations : combo ∈ combinations size l ↔ combo.Sublist l ∧ combo.length = size := by
  induction l generalizing size combo with
  | nil =>
    cases size with
    | zero => simp [combinations]
    | succ size =>
      refine iff_of_false List.not_mem_nil fun h => ?_
      have hlength := h.1.length_le
      rw [h.2] at hlength
      exact Nat.not_succ_le_zero size hlength
  | cons x rest ih =>
    cases size with
    | zero =>
      rw [combinations, List.mem_singleton, List.length_eq_zero_iff]
      exact ⟨fun h => ⟨h ▸ List.nil_sublist _, h⟩, fun h => h.2⟩
    | succ size =>
      rw [combinations, List.mem_append, List.mem_map, ih]
      constructor
      · rintro (⟨combo, hcombo, rfl⟩ | ⟨hsub, hlength⟩)
        · obtain ⟨hsub, hlength⟩ := ih.mp hcombo
          exact ⟨hsub.cons_cons x, congrArg (· + 1) hlength⟩
        · exact ⟨hsub.cons x, hlength⟩
      · rintro ⟨hsub, hlength⟩
        cases hsub with
        | cons _ hsub => exact .inr ⟨hsub, hlength⟩
        | cons_cons _ hsub =>
          exact .inl ⟨_, ih.mpr ⟨hsub, Nat.succ_injective hlength⟩, rfl⟩

theorem distinctNames_eq {names : List String} (h : names.Nodup) : distinctNames names = names := by
  induction names with
  | nil => rfl
  | cons name rest ih =>
    obtain ⟨hnew, hrest⟩ := List.nodup_cons.mp h
    rw [distinctNames, ih hrest, List.filter_eq_self.mpr]
    exact fun other hother => decide_eq_true fun heq => hnew (heq ▸ hother)

end

/-! ## The votes of a bar -/

section

variable {n m m' i : ℕ} {side : BaseLabel} {labels : List BaseLabel}

theorem vote_eq_side {minAgreeing : ℤ} (hside : side ≠ .other)
    (h : vote minAgreeing labels = side) : minAgreeing ≤ labels.count side ∧
      ∀ side' ≠ side, side' ≠ .other → labels.count side' < labels.count side := by
  unfold vote at h
  dsimp only at h
  split_ifs at h with hup hdown
  · subst h
    refine ⟨hup.1, fun side' hne hlabel => ?_⟩
    cases side' with
    | up => exact absurd rfl hne
    | down => exact hup.2
    | other => exact absurd rfl hlabel
  · subst h
    refine ⟨hdown.1, fun side' hne hlabel => ?_⟩
    cases side' with
    | up => exact hdown.2
    | down => exact absurd rfl hne
    | other => exact absurd rfl hlabel
  · exact absurd h.symm hside

/-- A side that all labels are on is taken, and no other one. -/
theorem vote_unanimous (hside : side ≠ .other) (hlabels : labels ≠ []) :
    vote labels.length labels = side ↔ ∀ label ∈ labels, label = side := by
  have hpos : 0 < labels.length := List.length_pos_iff.mpr hlabels
  constructor
  · intro h label hlabel
    have hcount : labels.count side = labels.length :=
      le_antisymm List.count_le_length (by exact_mod_cast (vote_eq_side hside h).1)
    exact (List.count_eq_length.mp hcount label hlabel).symm
  · intro h
    have hcount : labels.count side = labels.length :=
      List.count_eq_length.mpr fun label hlabel => (h label hlabel).symm
    have hnone (side' : BaseLabel) (hne : side' ≠ side) : labels.count side' = 0 :=
      List.count_eq_zero.mpr fun hmem => hne (h side' hmem)
    unfold vote
    cases side with
    | up => rw [hcount, hnone .down nofun, if_pos ⟨le_rfl, hpos⟩]
    | down =>
      rw [hcount, hnone .up nofun, if_neg fun h => absurd h.2 (Nat.not_lt_zero _),
        if_pos ⟨le_rfl, hpos⟩]
    | other => exact absurd rfl hside

theorem getElem?_rowsOf {α : Type} {columns : List (List α)} (hi : i < n) :
    (rowsOf n columns)[i]? = some (columns.filterMap (·[i]?)) := by
  rw [rowsOf, List.getElem?_map, List.getElem?_range hi]
  rfl

@[simp] theorem length_rowsOf {α : Type} {columns : List (List α)} :
    (rowsOf n columns).length = n := by
  rw [rowsOf, List.length_map, List.length_range]

/-- Columns that agree on their first rows are the columns of frames that do. -/
theorem agree_rowsOf {α : Type} {columns columns' : List (List α)} (hlength : min n m = min n m')
    (h : List.Forall₂ (Agree n m m') columns columns') :
    Agree n m m' (rowsOf m columns) (rowsOf m' columns') where
  length := length_rowsOf
  length' := length_rowsOf
  take := by
    rw [rowsOf, rowsOf, ← List.map_take, ← List.map_take, List.take_range, List.take_range, hlength]
    refine List.map_congr_left fun i hi => ?_
    have hi : i < n := (List.mem_range.mp hi).trans_le (min_le_left ..)
    induction h with
    | nil => rfl
    | cons hcolumn _ ih => rw [List.filterMap_cons, List.filterMap_cons, hcolumn.getElem? hi, ih]

end

/-! ## No ensemble looks ahead -/

section

variable {candidates : Dict String DirectionSignal} {memberNames : List String} {minAgreeing : ℤ}
  {signal : DirectionSignal}

theorem mem_of_lookup {entries : List (String × DirectionSignal)} {name : String}
    (h : entries.lookup name = some signal) : (name, signal) ∈ entries := by
  induction entries with
  | nil => cases h
  | cons entry rest ih =>
    obtain ⟨name', signal'⟩ := entry
    rw [List.lookup_cons] at h
    split at h
    · next heq =>
      cases h
      rw [eq_of_beq heq]
      exact List.mem_cons_self
    · exact List.mem_cons_of_mem _ (ih h)

theorem both_ensembleVotes {entries : List (String × DirectionSignal)}
    (hadapted : ∀ entry ∈ entries, Adapted entry.2) {xs ys : List Bar} {n : ℕ}
    (h : xs.take n = ys.take n) : Both (List.Forall₂ (Agree n xs.length ys.length))
      (ensembleVotes entries memberNames xs) (ensembleVotes entries memberNames ys) := by
  refine .mapM fun name _ => ?_
  unfold memberColumn
  cases hsignal : entries.lookup name with
  | none => exact .error
  | some signal => exact hadapted _ (mem_of_lookup hsignal) xs ys n h

theorem ensemble_eq (h : makeEnsembleSignal memberNames minAgreeing candidates = .ok signal) :
    signal = fun bars => do
      let votes ← ensembleVotes (candidatesOr candidates) memberNames bars
      return (rowsOf bars.length votes).map (vote minAgreeing) := by
  unfold makeEnsembleSignal at h
  dsimp only at h
  split_ifs at h
  cases h
  rfl

theorem ensemble_adapted (hadapted : ∀ entry ∈ candidatesOr candidates, Adapted entry.2)
    (h : makeEnsembleSignal memberNames minAgreeing candidates = .ok signal) : Adapted signal := by
  intro xs ys n htake
  have hlength : min n xs.length = min n ys.length := by
    rw [← List.length_take, htake, List.length_take]
  rw [ensemble_eq h]
  refine .bind (both_ensembleVotes hadapted htake) fun votes votes' hvotes => ?_
  exact .ok ((agree_rowsOf hlength hvotes).map _)

theorem candidatesOr_adapted (hadapted : ∀ entry ∈ candidates.entries, Adapted entry.2) :
    ∀ entry ∈ candidatesOr candidates, Adapted entry.2 := by
  intro entry hentry
  unfold candidatesOr at hentry
  split_ifs at hentry
  · exact defaultCandidates_adapted hentry
  · exact hadapted entry hentry

end

/-! ## The entries of the grid -/

section

variable {candidates : Dict String DirectionSignal} {signal : DirectionSignal} {side : BaseLabel}

theorem get?_foldl_set {κ ν β : Type} [DecidableEq κ] {key : β → κ} {value : β → ν} {k : κ} {v : ν}
    {es : List β} {d : Dict κ ν}
    (h : (es.foldl (fun d e => d.set (key e) (value e)) d).get? k = some v) :
    d.get? k = some v ∨ ∃ e ∈ es, key e = k ∧ value e = v := by
  induction es generalizing d with
  | nil => exact .inl h
  | cons e es ih =>
    rw [List.foldl_cons] at h
    obtain hset | ⟨e', he', hentry⟩ := ih h
    · rw [Dict.get?_set] at hset
      split at hset
      · next hkey => exact .inr ⟨e, List.mem_cons_self, hkey, Option.some_inj.mp hset⟩
      · exact .inl hset
    · exact .inr ⟨e', List.mem_cons_of_mem e he', hentry⟩

theorem nodup_candidatesOr (candidates : Dict String DirectionSignal) :
    ((candidatesOr candidates).map Prod.fst).Nodup := by
  unfold candidatesOr
  split
  · change ["ema_compare_12_26 (current production)", "ema_compare_50_200 (slow)",
      "supertrend_direction_10_3.0", "adx_directional_raw_14", "adx_directional_gated_14_20",
      "market_structure_bias_5", "volume_order_flow_20"].Nodup
    decide
  · exact candidates.nodup

/-- An entry of the grid combines candidates, unanimously. -/
theorem grid_entry {sizes : List ℕ} {label : String} {combo : List String} {size : ℕ}
    (h : (defaultEnsembleGrid candidates sizes).get? label = some (combo, size)) :
    size ∈ sizes ∧ combo.Sublist ((candidatesOr candidates).map Prod.fst) ∧
      combo.length = size := by
  obtain hempty | ⟨entry, hentry, -, rfl⟩ := get?_foldl_set h
  · cases hempty
  · obtain ⟨size', hsize, hcombo⟩ := List.mem_flatMap.mp hentry
    obtain ⟨combo', hcombo, heq⟩ := List.mem_map.mp hcombo
    cases heq
    exact ⟨hsize, mem_combinations.mp hcombo⟩

/-- Distinct candidates make an ensemble. -/
theorem exists_ensemble {combo : List String}
    (hsub : combo.Sublist ((candidatesOr candidates).map Prod.fst)) (hsize : 2 ≤ combo.length) :
    ∃ signal, makeEnsembleSignal combo combo.length candidates = .ok signal := by
  have hknown : (distinctNames combo).filter
      (· ∉ (candidatesOr candidates).map Prod.fst) = [] := by
    rw [distinctNames_eq ((nodup_candidatesOr candidates).sublist hsub)]
    exact List.filter_eq_nil_iff.mpr fun name hname =>
      by simpa using List.mem_map.mp (hsub.subset hname)
  have hagreeing : (1 : ℤ) ≤ combo.length ∧ (combo.length : ℤ) ≤ combo.length := by omega
  rw [makeEnsembleSignal, if_neg (not_not.mpr hknown), if_neg (not_lt.mpr hsize),
    if_neg (not_not.mpr hagreeing)]
  exact ⟨_, rfl⟩

theorem length_memberColumn {entries : List (String × DirectionSignal)} {bars : List Bar}
    {name : String} {column : List BaseLabel} (hadapted : ∀ entry ∈ entries, Adapted entry.2)
    (h : memberColumn entries bars name = .ok column) : column.length = bars.length := by
  unfold memberColumn at h
  cases hsignal : entries.lookup name with
  | none =>
    rw [hsignal] at h
    cases h
  | some signal =>
    rw [hsignal] at h
    exact (hadapted _ (mem_of_lookup hsignal)).length_eq h

/-- What a member says of a bar. -/
def MemberVotes (candidates : Dict String DirectionSignal) (bars : List Bar) (i : ℕ)
    (side : BaseLabel) (name : String) : Prop :=
  ∃ column, memberColumn (candidatesOr candidates) bars name = .ok column ∧ column[i]? = some side

/-- The row of a bar has what each member says of it. -/
theorem row_votes {names : List String} {votes : List (List BaseLabel)} {bars : List Bar} {i : ℕ}
    (hadapted : ∀ entry ∈ candidatesOr candidates, Adapted entry.2) (hi : i < bars.length)
    (h : List.Forall₂ (fun name column =>
      memberColumn (candidatesOr candidates) bars name = .ok column) names votes) :
    (votes.filterMap (·[i]?)).length = names.length ∧
      ((∀ label ∈ votes.filterMap (·[i]?), label = side) ↔
        ∀ name ∈ names, MemberVotes candidates bars i side name) := by
  induction h with
  | nil => exact ⟨rfl, by simp⟩
  | @cons name column names votes hcolumn _ ih =>
    have hlt : i < column.length := by rwa [length_memberColumn hadapted hcolumn]
    have hvoted : MemberVotes candidates bars i side name ↔ column[i] = side := by
      refine ⟨?_, fun h => ⟨column, hcolumn, by rw [List.getElem?_eq_getElem hlt, h]⟩⟩
      rintro ⟨column', hcolumn', hside⟩
      rw [hcolumn] at hcolumn'
      cases hcolumn'
      exact Option.some_inj.mp ((List.getElem?_eq_getElem hlt).symm.trans hside)
    rw [List.filterMap_cons, List.getElem?_eq_getElem hlt, List.length_cons, List.length_cons,
      List.forall_mem_cons, List.forall_mem_cons, hvoted]
    exact ⟨congrArg (· + 1) ih.1, and_congr_right fun _ => ih.2⟩

end

/-- Every entry of the grid makes an ensemble of distinct candidates, which takes a side at a bar if
and only if all of them say it. -/
theorem defaultEnsembleGrid_unanimous (candidates : Dict String DirectionSignal) (sizes : List ℕ)
    (hadapted : ∀ entry ∈ candidates.entries, Adapted entry.2) (hsizes : ∀ size ∈ sizes, 2 ≤ size)
    {label : String} {combo : List String} {size : ℕ}
    (hentry : (defaultEnsembleGrid candidates sizes).get? label = some (combo, size)) :
    combo.Nodup ∧ combo.length = size ∧
    ∃ signal, makeEnsembleSignal combo size candidates = .ok signal ∧
      ∀ bars labels, signal bars = .ok labels → labels.length = bars.length ∧
        ∀ i < bars.length, ∀ side ≠ .other, labels[i]? = some side ↔
          ∀ name ∈ combo, MemberVotes candidates bars i side name := by
  obtain ⟨hsize, hsub, rfl⟩ := grid_entry hentry
  have hadapted := candidatesOr_adapted hadapted
  have hnodup := (nodup_candidatesOr candidates).sublist hsub
  obtain ⟨signal, hsignal⟩ := exists_ensemble hsub (hsizes _ hsize)
  refine ⟨hnodup, rfl, signal, hsignal, fun bars labels hlabels => ?_⟩
  have hlength := (ensemble_adapted hadapted hsignal).length_eq hlabels
  refine ⟨hlength, fun i hi side hside => ?_⟩
  rw [ensemble_eq hsignal] at hlabels
  obtain ⟨votes, hvotes, hlabels⟩ := Except.bind_eq_ok.mp hlabels
  cases hlabels
  rw [ensembleVotes, distinctNames_eq hnodup, Except.mapM_eq_ok] at hvotes
  obtain ⟨hrow, hvoted⟩ := @row_votes candidates side combo votes bars i hadapted hi hvotes
  have hne : votes.filterMap (·[i]?) ≠ [] := by
    rw [← List.length_pos_iff, hrow]
    exact (hsizes _ hsize).trans' Nat.zero_lt_two
  rw [List.getElem?_map, getElem?_rowsOf hi, Option.map_some, Option.some_inj, ← hvoted,
    ← vote_unanimous hside hne, hrow]

theorem defaultEnsembleGrid_unanimous_default :
    let combo := ["market_structure_bias_5", "volume_order_flow_20"]
    combo.Nodup ∧ combo.length = 2 ∧
    ∃ signal, makeEnsembleSignal combo (2 : ℕ) Dict.empty = .ok signal ∧
      ∀ bars labels, signal bars = .ok labels → labels.length = bars.length ∧
        ∀ i < bars.length, ∀ side ≠ .other, labels[i]? = some side ↔
          ∀ name ∈ combo, MemberVotes Dict.empty bars i side name :=
  defaultEnsembleGrid_unanimous Dict.empty [2] nofun (by decide)
    (Dict.get?_set.trans (if_pos rfl))

/-- Whatever its parameters, no candidate looks ahead, and no ensemble of candidates does that do
not: what is said of a bar is decided by the bars up to it. -/
theorem direction_adapted (fast slow period pivotBars : ℤ)
    (multiplier minAdx minCmf minVolumeRatio : ℚ) (candidates : Dict String DirectionSignal)
    (memberNames : List String) (minAgreeing : ℤ) :
    Adapted (emaCompare fast slow) ∧ Adapted (supertrendDirection period multiplier) ∧
    Adapted (adxDirectionalRaw period) ∧ Adapted (adxDirectionalGated period minAdx) ∧
    Adapted (fun bars => marketStructureBias bars pivotBars) ∧
    Adapted (volumeOrderFlowDirection period minCmf minVolumeRatio) ∧
    ((∀ entry ∈ candidates.entries, Adapted entry.2) → ∀ signal,
      makeEnsembleSignal memberNames minAgreeing candidates = .ok signal → Adapted signal) :=
  ⟨emaCompare_adapted fast slow, supertrendDirection_adapted period multiplier,
    adxDirectionalRaw_adapted period, adxDirectionalGated_adapted period minAdx,
    marketStructureBias_adapted pivotBars,
    volumeOrderFlowDirection_adapted period minCmf minVolumeRatio,
    fun hadapted _ h => ensemble_adapted (candidatesOr_adapted hadapted) h⟩

end TradingPlatform
