import Mathlib.Algebra.Order.Ring.Int
import Mathlib.Order.SuccPred.IntervalSucc

/-!
# The proleptic Gregorian calendar

Days are counted from 1970-01-01, months from January of the year 0: month `k` is
the month `k % 12 + 1` of the year `k / 12`. Both divisions of the days are given
by their first days and by a closed formula for the one a day lies in.

Results:
* `yearOf_spec`: the year of a day, by the first days of the years.
* `monthOf_spec`: the month of a day, by the first days of the months.
* `monthStart_lt_iff`, `monthOf_mono`: months follow each other.
* `instant_ofInstant`: an instant and its date and time.
-/

namespace CivilTime

/-! ## Years -/

/-- A leap year has a 29th of February. -/
def leap (y : ℤ) : Bool := y % 4 = 0 && (y % 100 ≠ 0 || y % 400 = 0)

/-- The first day of a year. -/
def yearStart (y : ℤ) : ℤ := 365 * y + (y + 3) / 4 - (y + 99) / 100 + (y + 399) / 400 - 719528

/-- The year of a day: an estimate from the mean length, moved by at most one. -/
def yearOf (d : ℤ) : ℤ :=
  let e := (d + 719528) * 400 / 146097
  if d < yearStart e then e - 1 else if yearStart (e + 1) ≤ d then e + 1 else e

theorem yearStart_succ (y : ℤ) :
    yearStart (y + 1) = yearStart y + (if leap y then 366 else 365) := by
  have hleap : leap y = true ↔ y % 4 = 0 ∧ (y % 100 ≠ 0 ∨ y % 400 = 0) := by simp [leap]
  unfold yearStart
  split_ifs with h
  · rw [hleap] at h
    omega
  · rw [hleap] at h
    omega

/-- The estimate is at most one year off. -/
theorem estimate_spec (d : ℤ) :
    yearStart ((d + 719528) * 400 / 146097 - 1) ≤ d ∧
      d < yearStart ((d + 719528) * 400 / 146097 + 1 + 1) := by
  unfold yearStart
  omega

theorem yearOf_spec (d : ℤ) : yearStart (yearOf d) ≤ d ∧ d < yearStart (yearOf d + 1) := by
  obtain ⟨hlow, hhigh⟩ := estimate_spec d
  unfold yearOf
  dsimp only
  split_ifs with hbefore hafter
  · exact ⟨hlow, by rwa [sub_add_cancel]⟩
  · exact ⟨hafter, hhigh⟩
  · exact ⟨not_lt.mp hbefore, not_le.mp hafter⟩

/-! ## Months -/

/-- The days of a year before its month `m + 1`. -/
def daysBefore (leap : Bool) (m : ℤ) : ℤ :=
  (367 * m + 5) / 12 - (if m ≤ 1 then 0 else if leap then 1 else 2)

/-- The month a day of a year lies in, from 0. -/
def monthInYear (leap : Bool) (dayOfYear : ℤ) : ℤ :=
  (12 * (dayOfYear + if dayOfYear < daysBefore leap 2 then 0 else if leap then 1 else 2) + 6) / 367

/-- The first day of a month. -/
def monthStart (k : ℤ) : ℤ := yearStart (k / 12) + daysBefore (leap (k / 12)) (k % 12)

/-- The month of a day. -/
def monthOf (d : ℤ) : ℤ :=
  12 * yearOf d + monthInYear (leap (yearOf d)) (d - yearStart (yearOf d))

/-- The day of its month, from 1. -/
def dayInMonth (d : ℤ) : ℤ := d - monthStart (monthOf d) + 1

theorem monthInYear_spec {leap : Bool} {d : ℤ} (hpos : 0 ≤ d)
    (hlt : d < if leap then 366 else 365) :
    0 ≤ monthInYear leap d ∧ monthInYear leap d < 12 ∧
      daysBefore leap (monthInYear leap d) ≤ d ∧ d < daysBefore leap (monthInYear leap d + 1) := by
  unfold monthInYear daysBefore
  cases leap with
  | true =>
    simp only [if_true] at hlt ⊢
    split_ifs <;> omega
  | false =>
    simp only [Bool.false_eq_true, if_false] at hlt ⊢
    split_ifs <;> omega

theorem daysBefore_succ (leap : Bool) {m : ℤ} (hpos : 0 ≤ m) (hlt : m < 12) :
    daysBefore leap m < daysBefore leap (m + 1) := by
  unfold daysBefore
  cases leap with
  | true =>
    simp only [if_true]
    split_ifs <;> omega
  | false =>
    simp only [Bool.false_eq_true, if_false]
    split_ifs <;> omega

/-- December is followed by the next January. -/
theorem monthStart_succ (k : ℤ) :
    monthStart (k + 1) = yearStart (k / 12) + daysBefore (leap (k / 12)) (k % 12 + 1) := by
  unfold monthStart
  by_cases hdec : k % 12 = 11
  · have hyear : (k + 1) / 12 = k / 12 + 1 := by omega
    have hmonth : (k + 1) % 12 = 0 := by omega
    rw [hyear, hmonth, hdec, yearStart_succ]
    cases leap (k / 12 + 1) <;> cases leap (k / 12) <;> simp [daysBefore]
  · have hyear : (k + 1) / 12 = k / 12 := by omega
    have hmonth : (k + 1) % 12 = k % 12 + 1 := by omega
    rw [hyear, hmonth]

theorem monthStart_lt_succ (k : ℤ) : monthStart k < monthStart (k + 1) := by
  rw [monthStart_succ]
  have hnext := daysBefore_succ (leap (k / 12)) (Int.emod_nonneg k (by decide))
    (Int.emod_lt_of_pos k (by decide))
  unfold monthStart
  omega

/-- Months follow each other. -/
theorem monthStart_lt_iff {k l : ℤ} : monthStart k < monthStart l ↔ k < l :=
  (strictMono_int_of_lt_succ monthStart_lt_succ).lt_iff_lt

/-- The month of a day lies in its year, at the month of the day's place there. -/
theorem monthOf_parts (d : ℤ) :
    monthOf d / 12 = yearOf d ∧
      monthOf d % 12 = monthInYear (leap (yearOf d)) (d - yearStart (yearOf d)) := by
  obtain ⟨hlow, hhigh⟩ := yearOf_spec d
  rw [yearStart_succ] at hhigh
  obtain ⟨hpos, hlt, -, -⟩ :=
    @monthInYear_spec (leap (yearOf d)) (d - yearStart (yearOf d)) (by omega) (by omega)
  unfold monthOf
  omega

theorem monthOf_spec (d : ℤ) : monthStart (monthOf d) ≤ d ∧ d < monthStart (monthOf d + 1) := by
  obtain ⟨hlow, hhigh⟩ := yearOf_spec d
  rw [yearStart_succ] at hhigh
  obtain ⟨-, -, hstart, hstop⟩ :=
    @monthInYear_spec (leap (yearOf d)) (d - yearStart (yearOf d)) (by omega) (by omega)
  obtain ⟨hyear, hmonth⟩ := monthOf_parts d
  rw [monthStart_succ]
  unfold monthStart
  rw [hyear, hmonth]
  omega

/-- Later days do not lie in earlier months. -/
theorem monthOf_mono {d e : ℤ} (hde : d ≤ e) : monthOf d ≤ monthOf e := by
  obtain ⟨hstart, -⟩ := monthOf_spec d
  obtain ⟨-, hstop⟩ := monthOf_spec e
  have hlt := monthStart_lt_iff.mp (lt_of_le_of_lt (hstart.trans hde) hstop)
  omega

/-! ## Instants

Instants are microseconds since 1970-01-01 in UTC. -/

def microsPerDay : ℤ := 86400000000

/-- The day of an instant. -/
def dayOf (t : ℤ) : ℤ := t / microsPerDay

theorem dayOf_mono {t u : ℤ} (h : t ≤ u) : dayOf t ≤ dayOf u :=
  Int.ediv_le_ediv (by decide) h

/-- A `datetime` in UTC. -/
structure Datetime where
  year : ℤ
  month : ℤ
  day : ℤ
  hour : ℤ
  minute : ℤ
  second : ℤ
  microsecond : ℤ

def Datetime.ofInstant (t : ℤ) : Datetime where
  year := yearOf (dayOf t)
  month := monthOf (dayOf t) % 12 + 1
  day := dayInMonth (dayOf t)
  hour := t % microsPerDay / 3600000000
  minute := t % microsPerDay / 60000000 % 60
  second := t % microsPerDay / 1000000 % 60
  microsecond := t % 1000000

/-- The instant of its fields. -/
def Datetime.instant (x : Datetime) : ℤ :=
  (monthStart (12 * x.year + (x.month - 1)) + x.day - 1) * microsPerDay +
    (x.hour * 3600000000 + x.minute * 60000000 + x.second * 1000000 + x.microsecond)

@[simp] theorem instant_ofInstant (t : ℤ) : (Datetime.ofInstant t).instant = t := by
  have hmonth : 12 * yearOf (dayOf t) + (monthOf (dayOf t) % 12 + 1 - 1) = monthOf (dayOf t) := by
    rw [← (monthOf_parts (dayOf t)).1]
    omega
  have hday : monthStart (monthOf (dayOf t)) + dayInMonth (dayOf t) - 1 = dayOf t := by
    unfold dayInMonth
    omega
  unfold Datetime.instant Datetime.ofInstant
  simp only
  rw [hmonth, hday]
  unfold dayOf microsPerDay
  omega

/-- A number in at least `width` digits. -/
def pad (width : ℕ) (n : ℤ) : String :=
  let digits := toString n
  "".pushn '0' (width - digits.length) ++ digits

/-- `yyyy-mm-dd`. -/
def isoDate (d : ℤ) : String :=
  pad 4 (yearOf d) ++ "-" ++ pad 2 (monthOf d % 12 + 1) ++ "-" ++ pad 2 (dayInMonth d)

/-- The time of day of an instant, with the microseconds where there are any. -/
def isoTime (t : ℤ) : String :=
  let second := t % microsPerDay / 1000000
  let micro := t % 1000000
  pad 2 (second / 3600) ++ ":" ++ pad 2 (second / 60 % 60) ++ ":" ++ pad 2 (second % 60) ++
    if micro = 0 then "" else "." ++ pad 6 micro

/-- `datetime.isoformat` of an instant in UTC. -/
def isoformat (t : ℤ) : String := isoDate (dayOf t) ++ "T" ++ isoTime t ++ "+00:00"

end CivilTime
