import Mathlib

/-!
# The civil calendar and its texts

An instant is a number of microseconds since 1 January 1970. The day it falls on has a civil date,
found in the 400-year cycle of the calendar counted from 1 March of the year 0. A date is determined
by its year, month and day, an instant by its text in the format of ISO 8601, and a second by the
text that strings its numbers together.
-/

namespace Calendar

/-! ## Decimal numbers of a fixed width -/

/-- The last `width` decimal digits of a number. -/
def digits : ℕ → ℕ → List Char
  | 0, _ => []
  | width + 1, n => digits width (n / 10) ++ [Nat.digitChar (n % 10)]

theorem digitChar_injective {m n : ℕ} (hm : m < 10) (hn : n < 10)
    (h : Nat.digitChar m = Nat.digitChar n) : m = n := by
  revert h
  interval_cases m <;> interval_cases n <;> decide

theorem isDigit_digitChar {n : ℕ} (hn : n < 10) : (Nat.digitChar n).isDigit = true := by
  interval_cases n <;> decide

@[simp] theorem length_digits (width n : ℕ) : (digits width n).length = width := by
  induction width generalizing n with
  | zero => rfl
  | succ width ih => rw [digits, List.length_append, ih, List.length_singleton]

theorem isDigit_of_mem_digits {width n : ℕ} {c : Char} (h : c ∈ digits width n) :
    c.isDigit = true := by
  induction width generalizing n with
  | zero => exact absurd h List.not_mem_nil
  | succ width ih =>
    rcases List.mem_append.mp h with h | h
    · exact ih h
    · rw [List.mem_singleton.mp h]
      exact isDigit_digitChar (Nat.mod_lt n (by decide))

theorem digits_injective {width m n : ℕ} (hm : m < 10 ^ width) (hn : n < 10 ^ width)
    (h : digits width m = digits width n) : m = n := by
  induction width generalizing m n with
  | zero => omega
  | succ width ih =>
    obtain ⟨hfront, hlast⟩ := List.append_inj' h rfl
    have hdiv := ih (by omega) (by omega) hfront
    have hmod := digitChar_injective (Nat.mod_lt m (by decide)) (Nat.mod_lt n (by decide))
      (List.cons.inj hlast).1
    omega

/-! ## Years -/

/-- The digits of a number, filled up with zeros to at least four. -/
def padFour (n : ℕ) : List Char := List.replicate (4 - (Nat.toDigits 10 n).length) '0' ++
  Nat.toDigits 10 n

theorem isDigit_of_mem_padFour {n : ℕ} {c : Char} (h : c ∈ padFour n) : c.isDigit = true := by
  rcases List.mem_append.mp h with h | h
  · rw [List.eq_of_mem_replicate h]
    rfl
  · exact Nat.isDigit_of_mem_toDigits (by decide) (by decide) h

theorem ofDigitChars_replicate_zero (k : ℕ) (l : List Char) :
    Nat.ofDigitChars 10 (List.replicate k '0' ++ l) 0 = Nat.ofDigitChars 10 l 0 := by
  induction k with
  | zero => rfl
  | succ k ih => exact ih

theorem padFour_injective {m n : ℕ} (h : padFour m = padFour n) : m = n := by
  have hvalue : ∀ n, Nat.ofDigitChars 10 (padFour n) 0 = n := fun n =>
    (ofDigitChars_replicate_zero _ _).trans Nat.ofDigitChars_ten_toDigits
  rw [← hvalue m, ← hvalue n, h]

/-- A year of at least four digits, with a sign before the year 0. -/
def yearText (year : ℤ) : List Char :=
  if 0 ≤ year then padFour year.toNat else '-' :: padFour year.natAbs

theorem padFour_ne_minus {n : ℕ} {l : List Char} : padFour n ≠ '-' :: l := by
  intro h
  have hminus : '-' ∈ padFour n := h ▸ List.mem_cons_self
  exact absurd (isDigit_of_mem_padFour hminus) (by decide)

theorem yearText_injective {y z : ℤ} (h : yearText y = yearText z) : y = z := by
  unfold yearText at h
  split at h <;> split at h
  · have := padFour_injective h
    omega
  · exact absurd h padFour_ne_minus
  · exact absurd h.symm padFour_ne_minus
  · have := padFour_injective (List.cons.inj h).2
    omega

theorem mem_yearText {year : ℤ} {c : Char} (h : c ∈ yearText year) :
    c.isDigit = true ∨ c = '-' := by
  unfold yearText at h
  split at h
  · exact .inl (isDigit_of_mem_padFour h)
  · exact (List.mem_cons.mp h).symm.imp isDigit_of_mem_padFour id

/-! ## Civil dates -/

structure CivilDate where
  year : ℤ
  month : ℕ
  day : ℕ
  deriving DecidableEq, Repr

/-- The place of a day in the 400-year cycle from 1 March of the year 0: the cycle, the century, the
four-year period and the year, and the day of a year that ends with February. -/
structure CycleDay where
  cycle : ℤ
  century : ℤ
  period : ℤ
  year : ℤ
  day : ℤ
  century_mem : 0 ≤ century ∧ century ≤ 3
  period_mem : 0 ≤ period ∧ period ≤ 24
  year_mem : 0 ≤ year ∧ year ≤ 3
  day_mem : 0 ≤ day ∧ day ≤ 365

/-- The place of a day, counted from 1 January 1970. -/
def cycleDay (days : ℤ) : CycleDay :=
  let z := days + 719468
  let ofCycle := z % 146097
  let century := min (ofCycle / 36524) 3
  let ofCentury := ofCycle - century * 36524
  let ofPeriod := ofCentury % 1461
  let year := min (ofPeriod / 365) 3
  { cycle := z / 146097
    century
    period := ofCentury / 1461
    year
    day := ofPeriod - year * 365
    century_mem := by omega
    period_mem := by omega
    year_mem := by omega
    day_mem := by omega }

/-- The number of a day from its place. -/
def CycleDay.number (p : CycleDay) : ℤ :=
  p.cycle * 146097 + p.century * 36524 + p.period * 1461 + p.year * 365 + p.day - 719468

theorem number_cycleDay (days : ℤ) : (cycleDay days).number = days := by
  simp only [CycleDay.number, cycleDay]
  omega

/-- The date at a place of the cycle. Months are counted from March in runs of five that take 153
days. -/
def CycleDay.date (p : CycleDay) : CivilDate :=
  let fromMarch := (5 * p.day + 2) / 153
  { year := p.cycle * 400 + p.century * 100 + p.period * 4 + p.year +
      (if fromMarch < 10 then 0 else 1)
    month := (if fromMarch < 10 then fromMarch + 3 else fromMarch - 9).toNat
    day := (p.day - (153 * fromMarch + 2) / 5 + 1).toNat }

/-- The date of a day, counted from 1 January 1970. -/
def civilDate (days : ℤ) : CivilDate := (cycleDay days).date

/-- The same date is the same place of the cycle. -/
theorem CycleDay.number_eq_of_date {p q : CycleDay} (h : p.date = q.date) :
    p.number = q.number := by
  obtain ⟨pcycle, pcentury, pperiod, pyear, pday, hpc, hpp, hpy, hpd⟩ := p
  obtain ⟨qcycle, qcentury, qperiod, qyear, qday, hqc, hqp, hqy, hqd⟩ := q
  simp only [CycleDay.date, CivilDate.mk.injEq] at h
  obtain ⟨hyear, hmonth, hday⟩ := h
  have hmarch : (5 * pday + 2) / 153 = (5 * qday + 2) / 153 := by omega
  have hsame : pday = qday := by omega
  simp only [CycleDay.number]
  subst hsame
  omega

theorem civilDate_injective {d e : ℤ} (h : civilDate d = civilDate e) : d = e := by
  rw [← number_cycleDay d, ← number_cycleDay e]
  exact CycleDay.number_eq_of_date h

theorem civilDate_lt (days : ℤ) : (civilDate days).month < 100 ∧ (civilDate days).day < 100 := by
  have hmem := (cycleDay days).day_mem
  simp only [civilDate, CycleDay.date]
  omega

/-- Leap days and the turns of a century fall where they belong. -/
example : [-719468, -25509, -1, 0, 11016, 11017, 19417, 20454].map civilDate =
    [⟨0, 3, 1⟩, ⟨1900, 2, 28⟩, ⟨1969, 12, 31⟩, ⟨1970, 1, 1⟩, ⟨2000, 2, 29⟩, ⟨2000, 3, 1⟩,
      ⟨2023, 3, 1⟩, ⟨2026, 1, 1⟩] := by
  decide +kernel

/-! ## Instants -/

/-- The day of an instant. -/
def dayOf (t : ℤ) : ℤ := t / 86400000000

/-- The second of an instant within its day. -/
def secondOfDay (t : ℤ) : ℕ := (t % 86400000000 / 1000000).toNat

/-- The microsecond of an instant within its second. -/
def microsecond (t : ℤ) : ℕ := (t % 1000000).toNat

theorem eq_of_parts {s t : ℤ} (hday : dayOf s = dayOf t) (hsecond : secondOfDay s = secondOfDay t)
    (hmicro : microsecond s = microsecond t) : s = t := by
  unfold dayOf secondOfDay microsecond at *
  omega

theorem same_second_iff {s t : ℤ} :
    s / 1000000 = t / 1000000 ↔ dayOf s = dayOf t ∧ secondOfDay s = secondOfDay t := by
  unfold dayOf secondOfDay
  omega

theorem secondOfDay_lt (t : ℤ) : secondOfDay t < 86400 := by unfold secondOfDay; omega

theorem microsecond_lt (t : ℤ) : microsecond t < 1000000 := by unfold microsecond; omega

/-! ## Texts -/

/-- Month, day, hour, minute and second in two digits each, with separators between them. -/
def fields (separators : List (List Char)) (t : ℤ) : List Char :=
  let d := civilDate (dayOf t)
  let second := secondOfDay t
  ((separators.zip [d.month, d.day, second / 3600, second / 60 % 60, second % 60]).map fun x =>
    x.1 ++ digits 2 x.2).flatten

/-- The year and the fields of an instant. -/
def secondText (separators : List (List Char)) (t : ℤ) : List Char :=
  yearText (civilDate (dayOf t)).year ++ fields separators t

section

variable {a b c d e : List Char} {s t : ℤ}

theorem length_fields : (fields [a, b, c, d, e] t).length =
    a.length + b.length + c.length + d.length + e.length + 10 := by
  simp [fields]
  omega

theorem fields_injective (h : fields [a, b, c, d, e] s = fields [a, b, c, d, e] t) :
    (civilDate (dayOf s)).month = (civilDate (dayOf t)).month ∧
      (civilDate (dayOf s)).day = (civilDate (dayOf t)).day ∧
      secondOfDay s = secondOfDay t := by
  simp only [fields, List.zip_cons_cons, List.map_cons, List.flatten_cons, List.zip_nil_right,
    List.map_nil, List.flatten_nil, List.append_nil, List.append_assoc] at h
  obtain ⟨_, h⟩ := List.append_inj h rfl
  obtain ⟨hmonth, h⟩ := List.append_inj h (by simp)
  obtain ⟨_, h⟩ := List.append_inj h rfl
  obtain ⟨hday, h⟩ := List.append_inj h (by simp)
  obtain ⟨_, h⟩ := List.append_inj h rfl
  obtain ⟨hhour, h⟩ := List.append_inj h (by simp)
  obtain ⟨_, h⟩ := List.append_inj h rfl
  obtain ⟨hminute, h⟩ := List.append_inj h (by simp)
  obtain ⟨_, hsecond⟩ := List.append_inj h rfl
  have hs := secondOfDay_lt s
  have ht := secondOfDay_lt t
  have hhour := digits_injective (by omega) (by omega) hhour
  have hminute := digits_injective (by omega) (by omega) hminute
  have hsecond := digits_injective (by omega) (by omega) hsecond
  exact ⟨digits_injective (civilDate_lt _).1 (civilDate_lt _).1 hmonth,
    digits_injective (civilDate_lt _).2 (civilDate_lt _).2 hday, by omega⟩

/-- The text of an instant up to its second says which second it is. -/
theorem secondText_injective
    (h : secondText [a, b, c, d, e] s = secondText [a, b, c, d, e] t) :
    dayOf s = dayOf t ∧ secondOfDay s = secondOfDay t := by
  obtain ⟨hyear, hfields⟩ := List.append_inj' h (by rw [length_fields, length_fields])
  obtain ⟨hmonth, hday, hsecond⟩ := fields_injective hfields
  refine ⟨civilDate_injective ?_, hsecond⟩
  cases hs : civilDate (dayOf s)
  cases ht : civilDate (dayOf t)
  simp only [hs, ht] at hyear hmonth hday
  rw [yearText_injective hyear, hmonth, hday]

theorem mem_fields {x : Char} {separators : List (List Char)} (h : x ∈ fields separators t) :
    x.isDigit = true ∨ ∃ sep ∈ separators, x ∈ sep := by
  obtain ⟨text, htext, hx⟩ := List.mem_flatten.mp h
  obtain ⟨p, hp, rfl⟩ := List.mem_map.mp htext
  rcases List.mem_append.mp hx with hx | hx
  · exact .inr ⟨p.1, (List.of_mem_zip hp).1, hx⟩
  · exact .inl (isDigit_of_mem_digits hx)

theorem mem_secondText {x : Char} {separators : List (List Char)}
    (h : x ∈ secondText separators t) :
    x.isDigit = true ∨ x = '-' ∨ ∃ sep ∈ separators, x ∈ sep := by
  rcases List.mem_append.mp h with h | h
  · exact (mem_yearText h).imp_right .inl
  · exact (mem_fields h).imp_right .inr

end

/-- The fraction of the second, left out when there is none. -/
def fraction (t : ℤ) : List Char :=
  if microsecond t = 0 then [] else '.' :: digits 6 (microsecond t)

/-- The date and the time of day in the format of ISO 8601. -/
abbrev isoSecond (t : ℤ) : List Char := secondText [['-'], ['-'], ['T'], [':'], [':']] t

/-- The text of an instant in UTC in the format of ISO 8601. -/
def isoformat (t : ℤ) : String :=
  String.ofList (isoSecond t ++ fraction t ++ ['+', '0', '0', ':', '0', '0'])

/-- The numbers of an instant up to its second, without separators. -/
def stamp (t : ℤ) : String := String.ofList (secondText [[], [], [], [], []] t)

example : [0, 1767225600000000, 1767225659000001].map isoformat =
    ["1970-01-01T00:00:00+00:00", "2026-01-01T00:00:00+00:00",
      "2026-01-01T00:00:59.000001+00:00"] := by
  decide +kernel

example : stamp 1767225659000001 = "20260101000059" := by decide +kernel

theorem stamp_eq_iff {s t : ℤ} : stamp s = stamp t ↔ s / 1000000 = t / 1000000 := by
  rw [same_second_iff]
  constructor
  · intro h
    exact secondText_injective (String.ofList_injective h)
  · rintro ⟨hday, hsecond⟩
    simp only [stamp, secondText, fields, hday, hsecond]

theorem mem_isoSecond {t : ℤ} {x : Char} (h : x ∈ isoSecond t) :
    x.isDigit = true ∨ x ∈ ['-', 'T', ':'] := by
  rcases mem_secondText h with hdigit | rfl | ⟨sep, hsep, hx⟩
  · exact .inl hdigit
  · exact .inr (by decide)
  · refine .inr ?_
    fin_cases hsep <;> simp_all

theorem dot_notMem_isoSecond {t : ℤ} : '.' ∉ isoSecond t := by
  intro h
  have hmem := mem_isoSecond h
  revert hmem
  decide

/-- Different instants have different texts. -/
theorem isoformat_injective {s t : ℤ} (h : isoformat s = isoformat t) : s = t := by
  have htexts : isoSecond s ++ fraction s = isoSecond t ++ fraction t :=
    List.append_cancel_right (String.ofList_injective h)
  unfold fraction at htexts
  split at htexts <;> split at htexts
  · next hs ht =>
    rw [List.append_nil, List.append_nil] at htexts
    obtain ⟨hday, hsecond⟩ := secondText_injective htexts
    exact eq_of_parts hday hsecond (hs.trans ht.symm)
  · rw [List.append_nil] at htexts
    have hdot : '.' ∈ isoSecond s := htexts ▸ List.mem_append_right _ List.mem_cons_self
    exact absurd hdot dot_notMem_isoSecond
  · rw [List.append_nil] at htexts
    have hdot : '.' ∈ isoSecond t := htexts ▸ List.mem_append_right _ List.mem_cons_self
    exact absurd hdot dot_notMem_isoSecond
  · obtain ⟨hsecond, hfraction⟩ := List.append_inj' htexts (by simp)
    obtain ⟨hday, hsecond⟩ := secondText_injective hsecond
    have hmicro : microsecond s = microsecond t :=
      digits_injective (microsecond_lt s) (microsecond_lt t) (List.cons.inj hfraction).2
    exact eq_of_parts hday hsecond hmicro

/-- No text of an instant has an underscore. -/
theorem underscore_notMem_isoformat (t : ℤ) : '_' ∉ (isoformat t).toList := by
  intro h
  rw [isoformat, String.toList_ofList, List.append_assoc] at h
  rcases List.mem_append.mp h with h | h
  · have hmem := mem_isoSecond h
    revert hmem
    decide
  rcases List.mem_append.mp h with h | h
  · unfold fraction at h
    split at h
    · exact absurd h List.not_mem_nil
    · have hdigit := isDigit_of_mem_digits (List.mem_of_ne_of_mem (by decide) h)
      revert hdigit
      decide
  · revert h
    decide

theorem mem_stamp {t : ℤ} {x : Char} (h : x ∈ (stamp t).toList) : x.isDigit = true ∨ x = '-' := by
  rw [stamp, String.toList_ofList] at h
  rcases mem_secondText h with hdigit | hminus | ⟨sep, hsep, hx⟩
  · exact .inl hdigit
  · exact .inr hminus
  · simp only [List.mem_cons, List.not_mem_nil, or_false, or_self] at hsep
    exact absurd (hsep ▸ hx) List.not_mem_nil

theorem underscore_notMem_stamp (t : ℤ) : '_' ∉ (stamp t).toList := by
  intro h
  have hmem := mem_stamp h
  revert hmem
  decide

/-- The numbers of an instant are not the text of any instant, which has a colon. -/
theorem stamp_ne_isoformat (s t : ℤ) : stamp s ≠ isoformat t := by
  intro h
  have hcolon : ':' ∈ (isoformat t).toList := by
    rw [isoformat, String.toList_ofList]
    exact List.mem_append_right _ (by decide)
  have hmem := mem_stamp (h ▸ hcolon)
  revert hmem
  decide

end Calendar
