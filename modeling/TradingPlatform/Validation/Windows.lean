import TradingPlatform.Validation.Periods

/-!
# Walk-forward windows

The windows of a walk-forward run have one size, the span divided by their number and rounded to the
microsecond. They follow one another without a gap, but the last one ends where the sizes add up to,
which is the end of the span only where the number divides it. With an anchor the training of a
window reaches back to the start, and its test is still that of the rolling window: the tests of two
windows lie the training of a window apart.
-/

namespace TradingPlatform

/-- `window_size` of a walk-forward run. -/
def windowSize (start endTime : ℤ) (windows : ℕ) : ℤ :=
  roundHalfEven (((endTime - start : ℤ) : ℚ) / windows)

/-- The training of a window lies before its test. -/
def WalkForwardWindow.Split (w : WalkForwardWindow) : Prop :=
  w.trainStart < w.trainEnd ∧ w.trainEnd = w.testStart ∧ w.testStart < w.testEnd

/-- The windows follow one another from the start. -/
structure Rolling (start : ℤ) (windows : List WalkForwardWindow) : Prop where
  head : ∃ first ∈ windows.head?, first.trainStart = start
  adjacent : windows.IsChain fun w next => next.trainStart = w.testEnd
  split : ∀ w ∈ windows, w.Split

/-- Every window trains from the start, and its test comes `gap` after the one before. -/
structure Anchored (start gap : ℤ) (windows : List WalkForwardWindow) : Prop where
  anchor : ∀ w ∈ windows, w.trainStart = start
  apart : windows.IsChain fun w next => next.testStart = w.testEnd + gap
  split : ∀ w ∈ windows, w.Split

/-- The last window ends there. -/
def EndsAt (endTime : ℤ) (windows : List WalkForwardWindow) : Prop :=
  ∃ last ∈ windows.getLast?, last.testEnd = endTime

section

variable {start endTime : ℤ} {windows : ℕ} {trainRatio : ℚ} {trainStart : ℤ → ℤ}

/-- A window of `buildWindows`. -/
def windowAt (trainStart : ℤ → ℤ) (start size : ℤ) (trainRatio : ℚ) (i : ℕ) :
    WalkForwardWindow where
  index := i
  trainStart := trainStart (start + size * i)
  trainEnd := start + size * i + shareOf size trainRatio
  testStart := start + size * i + shareOf size trainRatio
  testEnd := start + size * (i + 1)

theorem buildWindows_eq (hwindows : 0 < windows) (hratio : 0 < trainRatio ∧ trainRatio < 1)
    (hspan : start < endTime) : buildWindows trainStart start endTime windows trainRatio =
      .ok ((List.range windows).map
        (windowAt trainStart start (windowSize start endTime windows) trainRatio)) := by
  unfold buildWindows
  rw [if_neg (by omega), if_neg (not_not.mpr hratio), if_neg (by omega)]
  refine congrArg Except.ok (List.map_congr_left fun i _ => ?_)
  have hsize (size : ℤ) : start + size * ((i : ℤ) + 1) - (start + size * i) = size := by ring
  simp only [hsize]
  rfl

theorem isChain_range_map {R : WalkForwardWindow → WalkForwardWindow → Prop}
    {f : ℕ → WalkForwardWindow} (h : ∀ i, R (f i) (f (i + 1))) (n : ℕ) :
    ((List.range n).map f).IsChain R := by
  rw [List.isChain_map, List.isChain_range]
  exact fun i _ => h i

/-- What the parts of a window are, where the span has a day for each. -/
theorem windowSize_mem (hwindows : 0 < windows)
    (hspan : windows * 86400000000 ≤ endTime - start) :
    86400000000 ≤ windowSize start endTime windows := by
  refine le_roundHalfEven ((le_div_iff₀ (Nat.cast_pos.mpr hwindows)).mpr ?_)
  rw [mul_comm]
  exact_mod_cast hspan

theorem shareOf_mem_of_ratio {size : ℤ} (hsize : 10 ≤ size)
    (hratio : 1 / 10 ≤ trainRatio ∧ trainRatio ≤ 9 / 10) :
    0 < shareOf size trainRatio ∧ shareOf size trainRatio < size := by
  have hsize' : (10 : ℚ) ≤ size := by exact_mod_cast hsize
  constructor
  · refine Int.lt_iff_add_one_le.mpr (le_roundHalfEven ?_)
    push_cast
    nlinarith [hratio.1]
  · refine Int.lt_iff_add_one_le.mpr (Int.add_le_of_le_sub_right (roundHalfEven_le ?_))
    push_cast
    nlinarith [hratio.2]

theorem windowAt_split {size : ℤ} {i : ℕ}
    (hstart : trainStart (start + size * i) ≤ start + size * i) (hsize : 10 ≤ size)
    (hratio : 1 / 10 ≤ trainRatio ∧ trainRatio ≤ 9 / 10) :
    (windowAt trainStart start size trainRatio i).Split := by
  obtain ⟨hpos, hlt⟩ := shareOf_mem_of_ratio hsize hratio
  refine ⟨?_, rfl, ?_⟩
  · exact lt_of_le_of_lt hstart (lt_add_of_pos_right _ hpos)
  · change start + size * i + shareOf size trainRatio < start + size * (i + 1)
    rw [mul_add, mul_one, ← add_assoc]
    exact add_lt_add_right hlt _

theorem endsAt_windows (hwindows : 0 < windows) (size : ℤ) :
    EndsAt (start + size * windows)
      ((List.range windows).map (windowAt trainStart start size trainRatio)) := by
  obtain ⟨n, rfl⟩ := Nat.exists_eq_succ_of_ne_zero hwindows.ne'
  refine ⟨windowAt trainStart start size trainRatio n, ?_, ?_⟩
  · rw [List.getLast?_map, List.getLast?_range, if_neg n.succ_ne_zero]
    rfl
  · rw [Nat.succ_eq_add_one, Nat.cast_add, Nat.cast_one]
    rfl

theorem EndsAt.unique {a b : ℤ} {ws : List WalkForwardWindow} (ha : EndsAt a ws)
    (hb : EndsAt b ws) : a = b := by
  obtain ⟨w, hw, rfl⟩ := ha
  obtain ⟨w', hw', rfl⟩ := hb
  rw [Option.mem_def.mp hw] at hw'
  cases hw'
  rfl

/-- Where the sizes of the windows add up to, for each of them at most half a microsecond off. -/
theorem abs_windows_sub_le (hwindows : 0 < windows) :
    2 * |start + windowSize start endTime windows * windows - endTime| ≤ windows := by
  have hpos : (0 : ℚ) < windows := Nat.cast_pos.mpr hwindows
  have hround : |(windowSize start endTime windows : ℚ) - ((endTime - start : ℤ) : ℚ) / windows| ≤
      1 / 2 := abs_roundHalfEven_sub_le _
  have hoff : ((start + windowSize start endTime windows * windows - endTime : ℤ) : ℚ) =
      windows * (windowSize start endTime windows - ((endTime - start : ℤ) : ℚ) / windows) := by
    field_simp
    push_cast
    ring
  have hle : ((2 * |start + windowSize start endTime windows * windows - endTime| : ℤ) : ℚ) ≤
      windows := by
    rw [Int.cast_mul, Int.cast_abs, hoff, abs_mul, abs_of_pos hpos]
    have := mul_le_mul_of_nonneg_left hround hpos.le
    push_cast at this ⊢
    linarith
  exact_mod_cast hle

theorem windows_end_iff (hwindows : 0 < windows) :
    start + windowSize start endTime windows * windows = endTime ↔
      (windows : ℤ) ∣ endTime - start := by
  constructor
  · intro h
    exact ⟨windowSize start endTime windows, by linarith⟩
  · rintro ⟨size, hsize⟩
    have hne : (windows : ℚ) ≠ 0 := Nat.cast_ne_zero.mpr hwindows.ne'
    rw [windowSize, hsize, Int.cast_mul, Int.cast_natCast, mul_div_cancel_left₀ _ hne,
      roundHalfEven_intCast]
    linarith

end

/-- The rolling windows follow one another from the start, with the training of each before its
test. The anchored ones train from the start, and the test of each is that of the rolling one, so
that the training of a window lies between two tests. Both end at most half a microsecond for each
window off the end, and at the end where the number of windows divides the span. -/
theorem walkForwardWindows_tile (start endTime : ℤ) (windows : ℕ) (trainRatio : ℚ)
    (hwindows : 0 < windows) (hspan : windows * 86400000000 ≤ endTime - start)
    (hratio : 1 / 10 ≤ trainRatio ∧ trainRatio ≤ 9 / 10) :
    ∃ rolling anchored lastEnd,
      buildWalkForwardWindows start endTime windows trainRatio = .ok rolling ∧
      buildAnchoredWalkForwardWindows start endTime windows trainRatio = .ok anchored ∧
      Rolling start rolling ∧
      Anchored start (shareOf (windowSize start endTime windows) trainRatio) anchored ∧
      EndsAt lastEnd rolling ∧ EndsAt lastEnd anchored ∧
      2 * |lastEnd - endTime| ≤ windows ∧
      ((windows : ℤ) ∣ endTime - start → lastEnd = endTime) := by
  have hratio' : 0 < trainRatio ∧ trainRatio < 1 := ⟨by linarith [hratio.1], by linarith [hratio.2]⟩
  have hsize := windowSize_mem hwindows hspan
  have hpos : start < endTime := by
    have : (1 : ℤ) ≤ windows := by exact_mod_cast hwindows
    omega
  refine ⟨_, _, start + windowSize start endTime windows * windows,
    buildWindows_eq hwindows hratio' hpos, buildWindows_eq hwindows hratio' hpos, ⟨?_, ?_, ?_⟩,
    ⟨?_, ?_, ?_⟩, endsAt_windows hwindows _, endsAt_windows hwindows _, abs_windows_sub_le hwindows,
    (windows_end_iff hwindows).mpr⟩
  · obtain ⟨n, rfl⟩ := Nat.exists_eq_succ_of_ne_zero hwindows.ne'
    refine ⟨_, by rw [List.head?_map, List.head?_range, if_neg n.succ_ne_zero]; rfl, ?_⟩
    change start + _ * ((0 : ℕ) : ℤ) = start
    simp
  · exact isChain_range_map (fun i => by simp [windowAt]) _
  · intro w hw
    obtain ⟨i, _, rfl⟩ := List.mem_map.mp hw
    exact windowAt_split le_rfl (by omega) hratio
  · intro w hw
    obtain ⟨i, _, rfl⟩ := List.mem_map.mp hw
    rfl
  · exact isChain_range_map (fun i => by simp [windowAt]) _
  · intro w hw
    obtain ⟨i, _, rfl⟩ := List.mem_map.mp hw
    refine windowAt_split ?_ (by omega) hratio
    exact le_add_of_nonneg_right (mul_nonneg (by omega) (Int.natCast_nonneg i))

theorem walkForwardWindows_tile_two : ∃ rolling anchored lastEnd,
    buildWalkForwardWindows 0 172800000000 2 (7 / 10) = .ok rolling ∧
      buildAnchoredWalkForwardWindows 0 172800000000 2 (7 / 10) = .ok anchored ∧
      Rolling 0 rolling ∧
      Anchored 0 (shareOf (windowSize 0 172800000000 2) (7 / 10)) anchored ∧
      EndsAt lastEnd rolling ∧ EndsAt lastEnd anchored ∧
      2 * |lastEnd - 172800000000| ≤ ((2 : ℕ) : ℤ) ∧
      (((2 : ℕ) : ℤ) ∣ 172800000000 - 0 → lastEnd = 172800000000) :=
  walkForwardWindows_tile 0 172800000000 2 (7 / 10) (by decide) (by decide) (by norm_num)

/-- Two windows over two days and a microsecond leave the microsecond out; and of two anchored
windows over two days the second is not tested where the first one's test ends. -/
theorem not_walkForwardWindows_tile :
    (¬ ∀ (start endTime : ℤ) (windows : ℕ) (trainRatio : ℚ), 0 < windows →
      windows * 86400000000 ≤ endTime - start → 1 / 10 ≤ trainRatio ∧ trainRatio ≤ 9 / 10 →
      ∃ rolling, buildWalkForwardWindows start endTime windows trainRatio = .ok rolling ∧
        Rolling start rolling ∧ EndsAt endTime rolling) ∧
    ¬ ∀ (start endTime : ℤ) (windows : ℕ) (trainRatio : ℚ), 0 < windows →
      windows * 86400000000 ≤ endTime - start → 1 / 10 ≤ trainRatio ∧ trainRatio ≤ 9 / 10 →
      ∃ anchored, buildAnchoredWalkForwardWindows start endTime windows trainRatio = .ok anchored ∧
        (anchored.IsChain fun w next => next.testStart = w.testEnd) ∧ EndsAt endTime anchored ∧
        ∀ w ∈ anchored, w.trainStart = start ∧ w.trainEnd = w.testStart := by
  constructor
  · intro h
    obtain ⟨rolling, hrolling, _, hend⟩ := h 0 172800000001 2 (7 / 10) (by decide) (by decide)
      (by norm_num)
    have hbuilt := hrolling.symm.trans (buildWindows_eq (by decide) (by norm_num) (by decide))
    cases hbuilt
    exact absurd (hend.unique (endsAt_windows (by decide) _)) (by decide +kernel)
  · intro h
    obtain ⟨anchored, hanchored, hapart, _⟩ := h 0 172800000000 2 (7 / 10) (by decide) (by decide)
      (by norm_num)
    have hbuilt := hanchored.symm.trans (buildWindows_eq (by decide) (by norm_num) (by decide))
    cases hbuilt
    exact absurd hapart (by decide +kernel)

end TradingPlatform
