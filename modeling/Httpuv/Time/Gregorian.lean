import Mathlib.Tactic

/-! The proleptic Gregorian calendar. A date is the day before or behind another; the
number of a day is derived from that. -/
namespace Gregorian

/-- There is a year zero. -/
def IsLeap (year : Int) : Prop := year % 4 = 0 ∧ (year % 100 ≠ 0 ∨ year % 400 = 0)

instance (year : Int) : Decidable (IsLeap year) := inferInstanceAs (Decidable (_ ∧ _))

/-- Months are counted from one. -/
def monthLength (year : Int) (month : Nat) : Nat :=
  if month = 2 then if IsLeap year then 29 else 28
  else if month = 4 ∨ month = 6 ∨ month = 9 ∨ month = 11 then 30
  else 31

def yearLength (year : Int) : Nat := if IsLeap year then 366 else 365

theorem monthLength_pos (year : Int) (month : Nat) : 1 ≤ monthLength year month := by
  unfold monthLength
  split_ifs <;> omega

theorem monthLength_le (year : Int) (month : Nat) : monthLength year month ≤ 31 := by
  unfold monthLength
  split_ifs <;> omega

@[ext]
structure Date where
  year : Int
  month : Nat
  day : Nat
  month_pos : 1 ≤ month
  month_le : month ≤ 12
  day_pos : 1 ≤ day
  day_le : day ≤ monthLength year month
  deriving DecidableEq, Repr

namespace Date

/-- The first of January 1970. -/
def epoch : Date where
  year := 1970
  month := 1
  day := 1
  month_pos := by decide
  month_le := by decide
  day_pos := by decide
  day_le := by decide

/-- The day behind it. -/
def next (date : Date) : Date :=
  if hDay : date.day < monthLength date.year date.month then
    { date with day := date.day + 1, day_pos := by omega, day_le := hDay }
  else if hMonth : date.month < 12 then
    { year := date.year, month := date.month + 1, day := 1, month_pos := by omega,
      month_le := hMonth, day_pos := by decide, day_le := monthLength_pos _ _ }
  else
    { year := date.year + 1, month := 1, day := 1, month_pos := by decide,
      month_le := by decide, day_pos := by decide, day_le := monthLength_pos _ _ }

/-- The day before it. -/
def prev (date : Date) : Date :=
  if hDay : 1 < date.day then
    { date with day := date.day - 1, day_pos := by omega, day_le := by have := date.day_le; omega }
  else if hMonth : 1 < date.month then
    { year := date.year, month := date.month - 1, day := monthLength date.year (date.month - 1),
      month_pos := by omega, month_le := by have := date.month_le; omega,
      day_pos := monthLength_pos _ _, day_le := Nat.le_refl _ }
  else
    { year := date.year - 1, month := 12, day := monthLength (date.year - 1) 12,
      month_pos := by decide, month_le := by decide, day_pos := monthLength_pos _ _,
      day_le := Nat.le_refl _ }

end Date

/-- The date this number of days behind the first of January 1970. -/
def civil : Int → Date
  | .ofNat n => Date.next^[n] .epoch
  | .negSucc n => Date.prev^[n + 1] .epoch

/-- The days between the first of January of the year one and that of this year. -/
def yearStart (year : Int) : Int :=
  365 * (year - 1) + (year - 1) / 4 - (year - 1) / 100 + (year - 1) / 400

/-- The days of the year before a month. -/
def monthStart (year : Int) : Nat → Nat
  | 0 | 1 => 0
  | month + 2 => monthStart year (month + 1) + monthLength year (month + 1)

/-- The number of a day of a month that may be longer than it is. -/
def dayNumber (year : Int) (month day : Nat) : Int :=
  yearStart year + monthStart year month + day - 1 - yearStart 1970

/-- The number of days from the first of January 1970. -/
def Date.ordinal (date : Date) : Int := dayNumber date.year date.month date.day

theorem yearStart_succ (year : Int) : yearStart (year + 1) = yearStart year + yearLength year := by
  unfold yearStart yearLength
  split_ifs with hLeap <;> unfold IsLeap at hLeap <;> omega

theorem yearStart_mono {year later : Int} (h : year ≤ later) : yearStart year ≤ yearStart later := by
  unfold yearStart
  omega

theorem monthStart_succ (year : Int) {month : Nat} (h : 1 ≤ month) :
    monthStart year (month + 1) = monthStart year month + monthLength year month := by
  obtain ⟨before, rfl⟩ := Nat.exists_eq_add_of_le' h
  rfl

theorem monthStart_mono (year : Int) {month later : Nat} (hPos : 1 ≤ month) (h : month ≤ later) :
    monthStart year month ≤ monthStart year later := by
  induction later, h using Nat.le_induction with
  | base => exact Nat.le_refl _
  | succ later hLater ih =>
      rw [monthStart_succ year (Nat.le_trans hPos hLater)]
      exact Nat.le_add_right_of_le ih

/-- The months make up the year. -/
theorem monthStart_thirteen (year : Int) : monthStart year 13 = yearLength year := by
  by_cases hLeap : IsLeap year <;> simp [monthStart, monthLength, yearLength, hLeap]

section Ordinal

variable (date : Date)

theorem Date.ordinal_next : date.next.ordinal = date.ordinal + 1 := by
  have hDayLe := date.day_le
  have hMonthLe := date.month_le
  unfold next
  split_ifs with hDay hMonth
  · simp only [ordinal, dayNumber]
    omega
  · have hStart := monthStart_succ date.year date.month_pos
    simp only [ordinal, dayNumber]
    omega
  · have hStart := monthStart_succ date.year date.month_pos
    have hYear := yearStart_succ date.year
    have hAll := monthStart_thirteen date.year
    have hEnd : date.month + 1 = 13 := by omega
    have hFirst : monthStart (date.year + 1) 1 = 0 := rfl
    rw [hEnd, hAll] at hStart
    simp only [ordinal, dayNumber, hFirst]
    omega

theorem Date.ordinal_prev : date.prev.ordinal = date.ordinal - 1 := by
  have hDayPos := date.day_pos
  have hMonthPos := date.month_pos
  unfold prev
  split_ifs with hDay hMonth
  · simp only [ordinal, dayNumber]
    omega
  · have hStart := monthStart_succ date.year (show 1 ≤ date.month - 1 by omega)
    rw [Nat.sub_add_cancel hMonthPos] at hStart
    simp only [ordinal, dayNumber]
    omega
  · have hStart : monthStart (date.year - 1) 13 = _ :=
      monthStart_succ (date.year - 1) (show 1 ≤ 12 by decide)
    have hYear := yearStart_succ (date.year - 1)
    rw [Int.sub_add_cancel] at hYear
    have hAll := monthStart_thirteen (date.year - 1)
    have hOne : date.month = 1 := by omega
    have hFirst : monthStart date.year 1 = 0 := rfl
    simp only [ordinal, dayNumber, hOne, hFirst]
    omega

/-- A date lies in its year. -/
theorem Date.year_bounds :
    yearStart date.year ≤ date.ordinal + yearStart 1970 ∧
      date.ordinal + yearStart 1970 < yearStart (date.year + 1) := by
  have hDayPos := date.day_pos
  have hDayLe := date.day_le
  have hYear := yearStart_succ date.year
  have hAll := monthStart_thirteen date.year
  have hStart := monthStart_succ date.year date.month_pos
  have hMono : monthStart date.year (date.month + 1) ≤ monthStart date.year 13 :=
    monthStart_mono date.year (Nat.le_add_left 1 date.month) (Nat.succ_le_succ date.month_le)
  simp only [ordinal, dayNumber]
  omega

end Ordinal

/-- Days are numbered one by one. -/
theorem Date.ordinal_injective : Function.Injective Date.ordinal := by
  intro date other h
  have hYear : date.year = other.year := by
    have hDate := date.year_bounds
    have hOther := other.year_bounds
    rw [h] at hDate
    rcases lt_trichotomy date.year other.year with hLess | hSame | hMore
    · have hMono := yearStart_mono (Int.add_one_le_iff.2 hLess)
      omega
    · exact hSame
    · have hMono := yearStart_mono (Int.add_one_le_iff.2 hMore)
      omega
  have hDays : (monthStart date.year date.month : Int) + date.day =
      monthStart date.year other.month + other.day := by
    simp only [ordinal, dayNumber, ← hYear] at h
    omega
  have hDayPos := date.day_pos
  have hDayLe := date.day_le
  have hOtherPos := other.day_pos
  have hOtherLe := other.day_le
  rw [← hYear] at hOtherLe
  have hMonth : date.month = other.month := by
    rcases lt_trichotomy date.month other.month with hLess | hSame | hMore
    · have hMono := monthStart_mono date.year (Nat.le_add_left 1 date.month) hLess
      rw [monthStart_succ date.year date.month_pos] at hMono
      omega
    · exact hSame
    · have hMono := monthStart_mono date.year (Nat.le_add_left 1 other.month) hMore
      rw [monthStart_succ date.year other.month_pos] at hMono
      omega
  rw [hMonth] at hDays
  exact Date.ext hYear hMonth (by omega)

theorem ordinal_civil (n : Int) : (civil n).ordinal = n := by
  have hEpoch : Date.epoch.ordinal = 0 := rfl
  have hNext : ∀ count : Nat, (Date.next^[count] .epoch).ordinal = count := by
    intro count
    induction count with
    | zero => exact hEpoch
    | succ count ih =>
        rw [Function.iterate_succ_apply', Date.ordinal_next, ih]
        rfl
  have hPrev : ∀ count : Nat, (Date.prev^[count] .epoch).ordinal = -count := by
    intro count
    induction count with
    | zero => exact hEpoch
    | succ count ih =>
        rw [Function.iterate_succ_apply', Date.ordinal_prev, ih]
        omega
  cases n with
  | ofNat count => exact hNext count
  | negSucc count => exact hPrev (count + 1)

/-- A date is the one with its number. -/
theorem civil_ordinal (date : Date) : civil date.ordinal = date :=
  Date.ordinal_injective (ordinal_civil _)

/-- Sunday is the first day of the week; the first of January 1970 was a Thursday. -/
def weekday (n : Int) : Nat := ((n + 4) % 7).toNat

theorem weekday_lt (n : Int) : weekday n < 7 := by
  unfold weekday
  omega

/-- The dates of the years with four digits from the year one on. -/
theorem year_civil {n : Int} (hFrom : -719162 ≤ n) (hTo : n ≤ 2932896) :
    1 ≤ (civil n).year ∧ (civil n).year ≤ 9999 := by
  have hBounds := (civil n).year_bounds
  rw [ordinal_civil] at hBounds
  simp only [yearStart] at hBounds
  omega

end Gregorian
