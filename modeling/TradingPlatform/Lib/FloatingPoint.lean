import Mathlib
import TradingPlatform.Lib.Rounding

/-!
# Floating-point arithmetic

The values of a floating-point type, its operations over any rounding that keeps the order, and the
rounding of a binary format to nearest, ties to even. The operations keep the order too: what grows
with an argument before it is rounded grows with it after.

The two zeros are one value: they compare equal, and a division by zero is left to the caller.
-/

/-- A number, an infinity, or the value of an operation that has no result. -/
inductive FloatValue
  | finite (x : ℚ)
  | infinite (negative : Bool)
  | nan
  deriving DecidableEq, Repr

namespace FloatValue

variable {a b c : FloatValue} {x y : ℚ}

/-- `a < b`. No comparison with `nan` holds. -/
def below : FloatValue → FloatValue → Bool
  | .finite x, .finite y => x < y
  | .infinite s, .finite _ => s
  | .finite _, .infinite s => !s
  | .infinite s, .infinite t => s && !t
  | .nan, _ | _, .nan => false

/-- `a <= b` -/
def upTo : FloatValue → FloatValue → Bool
  | .finite x, .finite y => x ≤ y
  | .infinite s, .finite _ => s
  | .finite _, .infinite s => !s
  | .infinite s, .infinite t => s || !t
  | .nan, _ | _, .nan => false

instance : LT FloatValue := ⟨fun a b => a.below b = true⟩

instance : LE FloatValue := ⟨fun a b => a.upTo b = true⟩

instance (a b : FloatValue) : Decidable (a < b) := inferInstanceAs (Decidable (a.below b = true))

instance (a b : FloatValue) : Decidable (a ≤ b) := inferInstanceAs (Decidable (a.upTo b = true))

instance : Zero FloatValue := ⟨.finite 0⟩

theorem finite_zero : finite 0 = 0 := rfl

@[simp] theorem zero_lt_finite : 0 < finite x ↔ 0 < x := decide_eq_true_iff

@[simp] theorem finite_le_zero : finite x ≤ 0 ↔ x ≤ 0 := decide_eq_true_iff

@[simp] theorem finite_le_finite : finite x ≤ finite y ↔ x ≤ y := decide_eq_true_iff

@[simp] theorem finite_lt_finite : finite x < finite y ↔ x < y := decide_eq_true_iff

@[simp] theorem infinite_lt_finite {s : Bool} : infinite s < finite x ↔ s = true := .rfl

@[simp] theorem finite_lt_infinite {s : Bool} : finite x < infinite s ↔ s = false :=
  Bool.not_eq_true' s ▸ .rfl

@[simp] theorem infinite_le_finite {s : Bool} : infinite s ≤ finite x ↔ s = true := .rfl

@[simp] theorem finite_le_infinite {s : Bool} : finite x ≤ infinite s ↔ s = false :=
  Bool.not_eq_true' s ▸ .rfl

@[simp] theorem not_nan_lt : ¬ nan < a := Bool.false_ne_true

@[simp] theorem not_lt_nan : ¬ a < nan := by
  cases a <;> exact Bool.false_ne_true

@[simp] theorem not_nan_le : ¬ nan ≤ a := Bool.false_ne_true

@[simp] theorem not_le_nan : ¬ a ≤ nan := by
  cases a <;> exact Bool.false_ne_true

@[simp] theorem infinite_lt_infinite {s t : Bool} :
    infinite s < infinite t ↔ s = true ∧ t = false := by
  cases s <;> cases t <;> decide

@[simp] theorem infinite_le_infinite {s t : Bool} :
    infinite s ≤ infinite t ↔ s = true ∨ t = false := by
  cases s <;> cases t <;> simp [LE.le, upTo]

protected theorem le_of_lt (h : a < b) : a ≤ b := by
  rcases a with x | s | _ <;> rcases b with y | t | _ <;> simp_all
  exact h.le

protected theorem lt_of_lt_of_le (hab : a < b) (hbc : b ≤ c) : a < c := by
  rcases a with x | s | _ <;> rcases b with y | t | _ <;> rcases c with z | u | _ <;> simp_all
  exact hab.trans_le hbc

protected theorem le_trans (hab : a ≤ b) (hbc : b ≤ c) : a ≤ c := by
  rcases a with x | s | _ <;> rcases b with y | t | _ <;> rcases c with z | u | _ <;> simp_all
  · exact hab.trans hbc
  · exact hab.imp_right fun ht => hbc.resolve_left (by simp [ht])

theorem le_infinite (h : a ≠ .nan) : a ≤ .infinite false := by
  cases a <;> simp_all

theorem infinite_le (h : a ≠ .nan) : .infinite true ≤ a := by
  cases a <;> simp_all

theorem ne_nan_of_le (h : a ≤ b) : a ≠ .nan ∧ b ≠ .nan := by
  constructor <;> rintro rfl
  · exact not_nan_le h
  · exact not_le_nan h

/-- `min(a, b)`: the second value where it is smaller. -/
protected def min (a b : FloatValue) : FloatValue := if b < a then b else a

/-- `max(a, b)`: the second value where it is greater. -/
protected def max (a b : FloatValue) : FloatValue := if a < b then b else a

protected def abs : FloatValue → FloatValue
  | .finite x => .finite |x|
  | .infinite _ => .infinite false
  | .nan => .nan

protected def neg : FloatValue → FloatValue
  | .finite x => .finite (-x)
  | .infinite s => .infinite !s
  | .nan => .nan

@[simp] theorem min_finite : (finite x).min (finite y) = finite (min x y) := by
  rcases lt_or_ge y x with h | h
  · rw [FloatValue.min, if_pos (finite_lt_finite.mpr h), min_eq_right h.le]
  · rw [FloatValue.min, if_neg (finite_lt_finite.not.mpr (not_lt.mpr h)), min_eq_left h]

@[simp] theorem max_finite : (finite x).max (finite y) = finite (max x y) := by
  rcases lt_or_ge x y with h | h
  · rw [FloatValue.max, if_pos (finite_lt_finite.mpr h), max_eq_right h.le]
  · rw [FloatValue.max, if_neg (finite_lt_finite.not.mpr (not_lt.mpr h)), max_eq_left h]

theorem pos_of_min_pos (h : 0 < a.min b) : 0 < a := by
  unfold FloatValue.min at h
  split_ifs at h with hlt
  · exact FloatValue.lt_of_lt_of_le h (FloatValue.le_of_lt hlt)
  · exact h

end FloatValue

/-! ## Arithmetic over a rounding -/

/-- A rounding of the exact results that keeps the order and zero. -/
structure Arithmetic where
  round : ℚ → FloatValue
  round_mono : ∀ {x y : ℚ}, x ≤ y → round x ≤ round y
  round_zero : round 0 = 0

namespace Arithmetic

open FloatValue

variable (A : Arithmetic)

def add : FloatValue → FloatValue → FloatValue
  | .finite x, .finite y => A.round (x + y)
  | .nan, _ | _, .nan => .nan
  | .infinite s, .infinite t => if s = t then .infinite s else .nan
  | .infinite s, .finite _ | .finite _, .infinite s => .infinite s

def sub (a b : FloatValue) : FloatValue := A.add a b.neg

def mul : FloatValue → FloatValue → FloatValue
  | .finite x, .finite y => A.round (x * y)
  | .nan, _ | _, .nan => .nan
  | .infinite s, .infinite t => .infinite (s != t)
  | .infinite s, .finite x | .finite x, .infinite s =>
    if x = 0 then .nan else .infinite (s != decide (x < 0))

/-- The quotient by a divisor other than zero. -/
def div : FloatValue → FloatValue → FloatValue
  | .finite x, .finite y => A.round (x / y)
  | .nan, _ | _, .nan | .infinite _, .infinite _ => .nan
  | .infinite s, .finite y => .infinite (s != decide (y < 0))
  | .finite _, .infinite _ => 0

/-- `round(a, digits)`: the nearest decimal, ties to even, in the format. Infinities and `nan` stay. -/
def roundTo (digits : ℕ) : FloatValue → FloatValue
  | .finite x => A.round (roundDigits x digits)
  | a => a

/-- Results are not rounded. -/
def exact : Arithmetic where
  round := .finite
  round_mono := finite_le_finite.mpr
  round_zero := rfl

variable {A} {a b k : FloatValue} {x y c : ℚ}

@[simp] theorem exact_add : exact.add (.finite x) (.finite y) = .finite (x + y) := rfl

@[simp] theorem exact_sub : exact.sub (.finite x) (.finite y) = .finite (x - y) :=
  congrArg FloatValue.finite (sub_eq_add_neg x y).symm

@[simp] theorem exact_mul : exact.mul (.finite x) (.finite y) = .finite (x * y) := rfl

@[simp] theorem exact_div : exact.div (.finite x) (.finite y) = .finite (x / y) := rfl

@[simp] theorem exact_roundTo {digits : ℕ} :
    exact.roundTo digits (.finite x) = .finite (roundDigits x digits) := rfl

theorem round_ne_nan : A.round x ≠ .nan := by
  intro h
  have hself := A.round_mono (le_refl x)
  rw [h] at hself
  exact not_le_nan hself

theorem pos_of_round_pos (h : 0 < A.round x) : 0 < x := by
  by_contra hle
  have hzero : A.round x ≤ 0 := A.round_zero ▸ A.round_mono (not_lt.mp hle)
  exact lt_irrefl 0 (finite_lt_finite.mp (FloatValue.lt_of_lt_of_le h hzero))

theorem round_nonneg (h : 0 ≤ x) : 0 ≤ A.round x := A.round_zero ▸ A.round_mono h

theorem add_finite_ne_nan (ha : a ≠ .nan) : A.add (.finite x) a ≠ .nan := by
  cases a with
  | finite y => exact round_ne_nan
  | infinite s => exact FloatValue.noConfusion
  | nan => exact ha

theorem add_infinite_of_nonneg (ha : 0 ≤ a) : A.add (.infinite false) a = .infinite false := by
  rcases a with x | s | _
  · rfl
  · cases finite_le_infinite.mp ha
    rfl
  · exact absurd ha not_le_nan

theorem add_infinite_eq {s : Bool} :
    A.add (.infinite s) a = .infinite s ∨ A.add (.infinite s) a = .nan := by
  rcases a with x | t | _
  · exact .inl rfl
  · exact ite_eq_or_eq ..
  · exact .inr rfl

/-- A sum grows with its second argument as long as it has a result. -/
theorem add_le_add_left (hab : a ≤ b) (ha : A.add k a ≠ .nan) (hb : A.add k b ≠ .nan) :
    A.add k a ≤ A.add k b := by
  cases k with
  | nan => exact absurd rfl ha
  | finite z =>
    rcases a with x | s | _ <;> rcases b with y | t | _ <;> simp_all [add]
    · exact A.round_mono (by linarith)
    · exact le_infinite ha
    · exact infinite_le hb
  | infinite u =>
    rcases a with x | s | _ <;> rcases b with y | t | _ <;> simp_all [add]

@[simp] theorem mul_infinite {s : Bool} (hc : 0 < c) :
    A.mul (.infinite s) (.finite c) = .infinite s := by
  simp [mul, hc.ne', hc.not_gt]

@[simp] theorem div_infinite {s : Bool} (hc : 0 < c) :
    A.div (.infinite s) (.finite c) = .infinite s := by
  simp [div, hc.not_gt]

theorem mul_le_mul_right (hc : 0 < c) (hab : a ≤ b) :
    A.mul a (.finite c) ≤ A.mul b (.finite c) := by
  rcases a with x | s | _ <;> rcases b with y | t | _ <;> simp_all [mul_infinite]
  · exact A.round_mono (mul_le_mul_of_nonneg_right hab hc.le)
  · exact le_infinite round_ne_nan
  · exact infinite_le round_ne_nan

theorem div_le_div_right (hc : 0 < c) (hab : a ≤ b) :
    A.div a (.finite c) ≤ A.div b (.finite c) := by
  rcases a with x | s | _ <;> rcases b with y | t | _ <;> simp_all
  · exact A.round_mono (div_le_div_of_nonneg_right hab hc.le)
  · exact le_infinite round_ne_nan
  · exact infinite_le round_ne_nan

theorem zero_mul : A.mul 0 (.finite c) = 0 :=
  (congrArg A.round (MulZeroClass.zero_mul c)).trans A.round_zero

theorem pos_of_mul_pos (hc : 0 ≤ c) (h : 0 < A.mul a (.finite c)) : 0 < a := by
  cases a with
  | finite x => exact zero_lt_finite.mpr (pos_of_mul_pos_left (pos_of_round_pos h) hc)
  | infinite s =>
    rcases hc.eq_or_lt with rfl | hc
    · exact absurd h not_lt_nan
    · rwa [mul_infinite hc] at h
  | nan => exact absurd h not_lt_nan

theorem pos_of_div_pos (hb : ¬ b ≤ 0) (h : 0 < A.div a b) : 0 < a := by
  cases a with
  | finite x => cases b with
    | finite c =>
      have hc : 0 < c := not_le.mp (finite_le_zero.not.mp hb)
      exact zero_lt_finite.mpr ((div_pos_iff_of_pos_right hc).mp (pos_of_round_pos h))
    | infinite s => exact absurd (zero_lt_finite.mp h) (lt_irrefl 0)
    | nan => exact absurd h not_lt_nan
  | infinite s => cases b with
    | finite c => rwa [div_infinite (not_le.mp (finite_le_zero.not.mp hb))] at h
    | infinite t => exact absurd h not_lt_nan
    | nan => exact absurd h not_lt_nan
  | nan => exact absurd h not_lt_nan

end Arithmetic

/-! ## Binary formats -/

/-- A binary format: numbers of `precision` binary digits that are multiples of `2 ^ minExponent`
and less than `2 ^ maxExponent` from zero. -/
structure BinaryFormat where
  precision : ℕ
  minExponent : ℤ
  maxExponent : ℤ
  precision_pos : 0 < precision

namespace BinaryFormat

variable (F : BinaryFormat)

/-- The exponent of the last digit of the numbers of the format about `x`. -/
def lastExponent (x : ℚ) : ℤ := max (Int.log 2 |x| + 1 - F.precision) F.minExponent

/-- The nearest number, ties to even, with no bound on its exponent from above. -/
def nearest (x : ℚ) : ℚ := roundHalfEven (x / 2 ^ F.lastExponent x) * 2 ^ F.lastExponent x

def round (x : ℚ) : FloatValue :=
  if 2 ^ F.maxExponent ≤ F.nearest x then .infinite false
  else if F.nearest x ≤ -2 ^ F.maxExponent then .infinite true
  else .finite (F.nearest x)

variable {F} {x y : ℚ} {k : ℤ}

theorem nearest_neg : F.nearest (-x) = -F.nearest x := by
  simp only [nearest, lastExponent, abs_neg, neg_div, roundHalfEven_neg, Int.cast_neg, neg_mul]

theorem nearest_nonneg (h : 0 ≤ x) : 0 ≤ F.nearest x := by
  have hrounded : 0 ≤ roundHalfEven (x / 2 ^ F.lastExponent x) :=
    le_roundHalfEven (by rw [Int.cast_zero]; positivity)
  exact mul_nonneg (by exact_mod_cast hrounded) (by positivity)

/-- A power of two whose exponent is not below that of the last digit, in units of the last
digit. -/
theorem zpow_eq_units (h : F.lastExponent x ≤ k) :
    (2 : ℚ) ^ k = ((2 ^ (k - F.lastExponent x).toNat : ℤ) : ℚ) * 2 ^ F.lastExponent x := by
  push_cast
  rw [← zpow_natCast, ← zpow_add₀ (by norm_num), Int.toNat_of_nonneg (by omega)]
  congr 1
  omega

/-- Rounding does not cross a power of two of the format. -/
theorem nearest_le_zpow (hk : F.lastExponent x ≤ k) (h : x ≤ 2 ^ k) : F.nearest x ≤ 2 ^ k := by
  rw [zpow_eq_units hk] at h ⊢
  have hrounded := roundHalfEven_le ((div_le_iff₀ (by positivity)).mpr h)
  exact mul_le_mul_of_nonneg_right (by exact_mod_cast hrounded) (by positivity)

theorem zpow_le_nearest (hk : F.lastExponent x ≤ k) (h : 2 ^ k ≤ x) : 2 ^ k ≤ F.nearest x := by
  rw [zpow_eq_units hk] at h ⊢
  have hrounded := le_roundHalfEven ((le_div_iff₀ (by positivity)).mpr h)
  exact mul_le_mul_of_nonneg_right (by exact_mod_cast hrounded) (by positivity)

/-- Of two positive numbers the last digit of the smaller one is not at a greater place. Where it is
at a smaller one, a power of two lies between the numbers. -/
theorem nearest_mono_of_pos (hx : 0 < x) (h : x ≤ y) : F.nearest x ≤ F.nearest y := by
  have hy : 0 < y := hx.trans_le h
  have hlog : Int.log 2 x ≤ Int.log 2 y := Int.log_mono_right hx h
  have hle : F.lastExponent x ≤ F.lastExponent y := by
    simp only [lastExponent, abs_of_pos hx, abs_of_pos hy]
    omega
  rcases hle.eq_or_lt with heq | hlt
  · unfold nearest
    rw [heq]
    have hrounded : roundHalfEven (x / 2 ^ F.lastExponent y) ≤
        roundHalfEven (y / 2 ^ F.lastExponent y) :=
      roundHalfEven_mono (div_le_div_of_nonneg_right h (by positivity))
    exact mul_le_mul_of_nonneg_right (by exact_mod_cast hrounded) (by positivity)
  · have hprecision := F.precision_pos
    have hlast : F.lastExponent y ≤ Int.log 2 y := by
      simp only [lastExponent, abs_of_pos hx, abs_of_pos hy] at hlt ⊢
      omega
    have hlogs : Int.log 2 x + 1 ≤ Int.log 2 y := by
      simp only [lastExponent, abs_of_pos hx, abs_of_pos hy] at hlt
      omega
    have hbelow : x ≤ 2 ^ Int.log 2 y :=
      calc x ≤ 2 ^ (Int.log 2 x + 1) := (Int.lt_zpow_succ_log_self (by norm_num) x).le
        _ ≤ 2 ^ Int.log 2 y := zpow_le_zpow_right₀ (by norm_num) hlogs
    calc F.nearest x ≤ 2 ^ Int.log 2 y := nearest_le_zpow (hle.trans hlast) hbelow
      _ ≤ F.nearest y := zpow_le_nearest hlast (Int.zpow_log_le_self (by norm_num) hy)

theorem nearest_mono (h : x ≤ y) : F.nearest x ≤ F.nearest y := by
  rcases lt_or_ge 0 x with hx | hx
  · exact nearest_mono_of_pos hx h
  · have hnearest : F.nearest x ≤ 0 := by
      rw [← neg_neg x, nearest_neg]
      exact neg_nonpos.mpr (nearest_nonneg (neg_nonneg.mpr hx))
    rcases lt_or_ge y 0 with hy | hy
    · -- the mirrored numbers are positive
      rw [← neg_neg x, ← neg_neg y, nearest_neg, nearest_neg (x := -y)]
      exact neg_le_neg (nearest_mono_of_pos (neg_pos.mpr hy) (neg_le_neg h))
    · exact hnearest.trans (nearest_nonneg hy)

theorem round_mono (h : x ≤ y) : F.round x ≤ F.round y := by
  have hnearest := F.nearest_mono h
  unfold round
  split_ifs <;> simp_all <;> linarith

theorem round_zero : F.round 0 = 0 := by
  have hnearest : F.nearest 0 = 0 := by
    rw [nearest, zero_div, ← Int.cast_zero, roundHalfEven_intCast, Int.cast_zero, zero_mul]
  have hpos : (0 : ℚ) < 2 ^ F.maxExponent := by positivity
  rw [round, hnearest, if_neg (not_le.mpr hpos), if_neg (by linarith)]
  rfl

variable (F) in
/-- The arithmetic of the format. -/
def arithmetic : Arithmetic where
  round := F.round
  round_mono := round_mono
  round_zero := round_zero

/-- The double-precision format. -/
def double : BinaryFormat where
  precision := 53
  minExponent := -1074
  maxExponent := 1024
  precision_pos := by norm_num

end BinaryFormat

/-- The arithmetic of double-precision numbers. -/
def binary64 : Arithmetic := BinaryFormat.double.arithmetic

example : binary64.mul (binary64.div (.finite 55) (.finite 100)) (.finite 100) =
    .finite (55 + 1 / 2 ^ 47) := by decide +kernel
