import Mathlib

/-!
# Rounding half to even

The rounding of a number to the nearest integer, ties to the even one, and to a number of decimal
digits, and the text of the rounded number.
-/

section
variable {α : Type*} [Field α] [LinearOrder α] [IsStrictOrderedRing α] [FloorRing α]

/-- The nearest integer, ties to even. -/
def roundHalfEven (x : α) : ℤ :=
  let d := x - ⌊x⌋
  if d < 1 / 2 then ⌊x⌋
  else if 1 / 2 < d then ⌊x⌋ + 1
  else if ⌊x⌋ % 2 = 0 then ⌊x⌋ else ⌊x⌋ + 1

omit [IsStrictOrderedRing α] in
/-- An integer that is not above a number is not above the rounded number. -/
theorem le_roundHalfEven {n : ℤ} {x : α} (h : (n : α) ≤ x) : n ≤ roundHalfEven x := by
  have hn : n ≤ ⌊x⌋ := Int.le_floor.mpr h
  unfold roundHalfEven
  dsimp only
  split_ifs <;> omega

/-- An integer that is not below a number is not below the rounded number. -/
theorem roundHalfEven_le {n : ℤ} {x : α} (h : x ≤ n) : roundHalfEven x ≤ n := by
  have hn : ⌊x⌋ ≤ n := Int.cast_le.mp ((Int.floor_le x).trans h)
  rcases hn.eq_or_lt with hfloor | hlt
  · -- the number is the integer itself
    have hx : x - ⌊x⌋ < 1 / 2 := by
      rw [hfloor]
      linarith [half_pos (zero_lt_one (α := α))]
    simp only [roundHalfEven, if_pos hx]
    exact hn
  · unfold roundHalfEven
    dsimp only
    split_ifs <;> omega

/-- The rounded number is not above an integer exactly when the number is not beyond the point
halfway to the next one, where the even integer decides. -/
theorem roundHalfEven_le_iff {n : ℤ} {x : α} :
    roundHalfEven x ≤ n ↔ x < n + 1 / 2 ∨ x = n + 1 / 2 ∧ n % 2 = 0 := by
  have hfloor : (⌊x⌋ : α) ≤ x := Int.floor_le x
  have hlt : x < ⌊x⌋ + 1 := Int.lt_floor_add_one x
  rcases lt_trichotomy ⌊x⌋ n with hbelow | heq | habove
  · -- the next integer is not above the bound
    have hnext : (⌊x⌋ : α) + 1 ≤ n := by exact_mod_cast hbelow
    refine iff_of_true ?_ (.inl (by linarith))
    unfold roundHalfEven
    dsimp only
    split_ifs <;> omega
  · subst heq
    unfold roundHalfEven
    dsimp only
    split_ifs with hlow hhigh heven
    · exact iff_of_true le_rfl (.inl (by linarith))
    · refine iff_of_false (by omega) ?_
      rintro (h | ⟨h, _⟩) <;> linarith
    · exact iff_of_true le_rfl (.inr ⟨by linarith, heven⟩)
    · refine iff_of_false (by omega) ?_
      rintro (h | ⟨_, h⟩)
      · linarith
      · exact heven h
  · have hnext : (n : α) + 1 ≤ ⌊x⌋ := by exact_mod_cast habove
    refine iff_of_false ?_ ?_
    · unfold roundHalfEven
      dsimp only
      split_ifs <;> omega
    · rintro (h | ⟨h, _⟩) <;> linarith

theorem roundHalfEven_lt_iff {n : ℤ} {x : α} :
    roundHalfEven x < n ↔ x < n - 1 / 2 ∨ x = n - 1 / 2 ∧ n % 2 = 1 := by
  have hhalf : ((n - 1 : ℤ) : α) + 1 / 2 = n - 1 / 2 := by push_cast; linarith
  have hparity : (n - 1) % 2 = 0 ↔ n % 2 = 1 := by omega
  rw [← Int.le_sub_one_iff, roundHalfEven_le_iff, hhalf, hparity]

/-- Rounding keeps the order. -/
theorem roundHalfEven_mono {x y : α} (h : x ≤ y) : roundHalfEven x ≤ roundHalfEven y := by
  rcases roundHalfEven_le_iff.mp (le_refl (roundHalfEven y)) with hy | ⟨hy, heven⟩
  · exact roundHalfEven_le_iff.mpr (.inl (h.trans_lt hy))
  · rcases h.eq_or_lt with rfl | hlt
    · exact le_rfl
    · exact roundHalfEven_le_iff.mpr (.inl (hlt.trans_eq hy))

/-- Rounding is symmetric about zero. -/
theorem roundHalfEven_neg (x : α) : roundHalfEven (-x) = -roundHalfEven x := by
  refine eq_of_forall_ge_iff fun n => ?_
  -- the bound of the rounded number from below is the failing bound by the integer beneath
  have hbelow : -roundHalfEven x ≤ n ↔ ¬ roundHalfEven x ≤ -n - 1 := by omega
  have hparity : (-n - 1) % 2 = 0 ↔ ¬ n % 2 = 0 := by omega
  rw [hbelow, roundHalfEven_le_iff, roundHalfEven_le_iff, hparity]
  push_cast
  rcases lt_trichotomy (-x) (n + 1 / 2) with h | h | h
  · refine iff_of_true (.inl h) ?_
    rintro (h' | ⟨h', -⟩) <;> linarith
  · have hx : x = -n - 1 + 1 / 2 := by linarith
    rw [or_iff_right h.not_lt, or_iff_right hx.not_lt, and_iff_right h, and_iff_right hx, not_not]
  · refine iff_of_false ?_ (not_not.mpr (.inl (by linarith)))
    rintro (h' | ⟨h', -⟩) <;> linarith

/-- Rounding moves a number by at most one half. -/
theorem abs_roundHalfEven_sub_le (x : α) : |(roundHalfEven x : α) - x| ≤ 1 / 2 := by
  have hfloor : (⌊x⌋ : α) ≤ x := Int.floor_le x
  have hlt : x < ⌊x⌋ + 1 := Int.lt_floor_add_one x
  unfold roundHalfEven
  dsimp only
  rw [abs_le]
  split_ifs <;> push_cast <;> constructor <;> linarith

@[simp] theorem roundHalfEven_intCast (n : ℤ) : roundHalfEven (n : α) = n :=
  le_antisymm (roundHalfEven_le le_rfl) (le_roundHalfEven le_rfl)

/-- Round to `digits` decimal digits. -/
def roundDigits (x : α) (digits : ℕ) : α := roundHalfEven (x * 10 ^ digits) / 10 ^ digits

end

/-- The text of a number rounded to `digits` decimal digits. -/
def fixedText (digits : ℕ) (x : ℚ) : String :=
  let n := (roundHalfEven (x * 10 ^ digits)).natAbs
  let fraction := String.ofList ((Nat.toDigits 10 (n % 10 ^ digits)).leftpad digits '0')
  (if x < 0 then "-" else "") ++ toString (n / 10 ^ digits) ++
    (if digits = 0 then "" else "." ++ fraction)

example : fixedText 2 (-5 / 4) = "-1.25" := by decide +kernel
