import ChartCompiler.Time.Calendar
import Mathlib.Logic.Function.Basic
import Mathlib.Tactic.IntervalCases

/-!
# Dates and days

Days and dates are counted off against each other: the date of a day has the number of that day
(`toDays_ofDays`), the day of a date has that date (`ofDays_toDays`), and later dates have greater
numbers (`toDays_lt_iff`).  Years are counted from March, so that the leap day is the last day of
its year and the months before it have the same lengths in all years.  A day is followed from its
cycle to its year (`year_of_cycle`) and from there to its month (`ofMarch`), and a date is taken
back to its year and its day of that year (`ofMarch_march`).
-/

set_option autoImplicit false

namespace ChartCompiler.Date

/-! ## The day of a date -/

/-- The number of days from 1970-01-01 to the first of March of a year. -/
def marchFirst (year : Int) : Int :=
  365 * year + year / 4 - year / 100 + year / 400 - 719468

theorem marchFirst_mono {first second : Int} (order : first ≤ second) :
    marchFirst first ≤ marchFirst second := by
  simp only [marchFirst]
  omega

theorem marchFirst_add_cycles (year cycles : Int) :
    marchFirst (year + cycles * 400) = marchFirst year + cycles * 146097 := by
  simp only [marchFirst]
  omega

/-- The year of a day of the cycle, and the day of that year. -/
theorem year_of_cycle {day year : Int} (ofCycle : 0 ≤ day ∧ day < 146097)
    (written : (day - day / 1460 + day / 36524 - day / 146096) / 365 = year) :
    0 ≤ year ∧ year < 400 ∧ 0 ≤ day - (365 * year + year / 4 - year / 100) ∧
      day < 365 * (year + 1) + (year + 1) / 4 - (year + 1) / 100 + (year + 1) / 400 := by
  -- Leap days are counted by the day of the cycle and by its year; the counts hardly differ.
  have fewer : year / 4 ≤ day / 1460 := by omega
  have hardly : day / 1460 ≤ year / 4 + 1 := by omega
  have centuries : day / 36524 = 0 ∨ day / 36524 = 1 ∨ day / 36524 = 2 ∨ day / 36524 = 3 ∨
      day / 36524 = 4 := by omega
  have whole : year / 100 = day / 36524 - day / 146096 := by omega
  have inCycle : year < 400 := by omega
  refine ⟨by omega, inCycle, by omega, ?_⟩
  by_cases turn : (year + 1) % 100 = 0
  · have next : (year + 1) / 100 = year / 100 + 1 := by omega
    omega
  · have same : (year + 1) / 100 = year / 100 := by omega
    have early : (year + 1) / 400 = 0 := by omega
    omega

/-- The date of a day in a year that is counted from March. -/
def ofMarch (year dayOfYear : Int) : Date :=
  let month := (5 * dayOfYear + 2) / 153
  let calendarMonth := if month < 10 then month + 3 else month - 9
  { year := if calendarMonth ≤ 2 then year + 1 else year
    month := calendarMonth.toNat
    day := (dayOfYear - (153 * month + 2) / 5 + 1).toNat }

section March

variable {year dayOfYear : Int} (ofYear : 0 ≤ dayOfYear ∧ dayOfYear ≤ 365)

include ofYear

theorem month_ofMarch :
    1 ≤ (ofMarch year dayOfYear).month ∧ (ofMarch year dayOfYear).month ≤ 12 := by
  simp only [ofMarch]
  omega

theorem toDays_ofMarch : (ofMarch year dayOfYear).toDays = marchFirst year + dayOfYear := by
  simp only [ofMarch, marchFirst]
  generalize written : (5 * dayOfYear + 2) / 153 = month
  have inYear : 0 ≤ month ∧ month ≤ 11 := by omega
  -- The day of the month is at least one, so nothing is cut off.
  have inMonth : (153 * month + 2) / 5 ≤ dayOfYear := by omega
  have day : ((dayOfYear - (153 * month + 2) / 5 + 1).toNat : Int) =
      dayOfYear - (153 * month + 2) / 5 + 1 := Int.toNat_of_nonneg (by omega)
  by_cases early : month < 10
  · have calendarMonth : ((month + 3).toNat : Int) = month + 3 := Int.toNat_of_nonneg (by omega)
    have late : ¬ (month + 3).toNat ≤ 2 := by omega
    have late' : ¬ month + 3 ≤ 2 := by omega
    simp only [toDays, early, late, late', if_true, if_false, day, calendarMonth]
    omega
  · have calendarMonth : ((month - 9).toNat : Int) = month - 9 := Int.toNat_of_nonneg (by omega)
    have next : (month - 9).toNat ≤ 2 := by omega
    have next' : month - 9 ≤ 2 := by omega
    simp only [toDays, early, next, next', if_true, if_false, day, calendarMonth]
    omega

end March

/-- A day falls into a year that is counted from March, and before the next one. -/
theorem ofDays_eq_ofMarch (days : Int) : ∃ year dayOfYear, ofDays days = ofMarch year dayOfYear ∧
    0 ≤ dayOfYear ∧ marchFirst year + dayOfYear = days ∧ days < marchFirst (year + 1) := by
  have ofCycle : 0 ≤ (days + 719468) % 146097 ∧ (days + 719468) % 146097 < 146097 := by omega
  obtain ⟨first, last, start, finish⟩ := year_of_cycle ofCycle rfl
  refine ⟨_, _, rfl, start, ?_⟩
  generalize ((days + 719468) % 146097 - _ + _ - _) / 365 = year at first last start finish ⊢
  -- All cycles are alike.
  have here := marchFirst_add_cycles year ((days + 719468) / 146097)
  have next := marchFirst_add_cycles (year + 1) ((days + 719468) / 146097)
  rw [Int.add_right_comm] at next
  rw [here, next]
  simp only [marchFirst]
  omega

/-- A year that is counted from March has at most 366 days. -/
theorem marchFirst_succ_le (year : Int) : marchFirst (year + 1) ≤ marchFirst year + 366 := by
  simp only [marchFirst]
  omega

/-- The months of the calendar are counted from one to twelve. -/
theorem month_ofDays (days : Int) : 1 ≤ (ofDays days).month ∧ (ofDays days).month ≤ 12 := by
  obtain ⟨year, dayOfYear, same, start, counted, finish⟩ := ofDays_eq_ofMarch days
  have short := marchFirst_succ_le year
  rw [same]
  exact month_ofMarch ⟨start, by omega⟩

/-- **A day is the day of its date.** -/
theorem toDays_ofDays (days : Int) : (ofDays days).toDays = days := by
  obtain ⟨year, dayOfYear, same, start, counted, finish⟩ := ofDays_eq_ofMarch days
  have short := marchFirst_succ_le year
  rw [same, toDays_ofMarch ⟨start, by omega⟩, counted]

theorem ofDays_injective : Function.Injective ofDays :=
  Function.LeftInverse.injective toDays_ofDays

/-! ## The date of a day -/

/-- The year of a date, counted from March. -/
def marchYear (date : Date) : Int :=
  if date.month ≤ 2 then date.year - 1 else date.year

/-- The number of months from March to the month of a date. -/
def marchMonth (date : Date) : Int :=
  if date.month ≤ 2 then date.month + 9 else date.month - 3

/-- The number of days from the first of March to a date. -/
def marchDay (date : Date) : Int :=
  (153 * date.marchMonth + 2) / 5 + date.day - 1

theorem toDays_eq_marchFirst_add (date : Date) :
    date.toDays = marchFirst date.marchYear + date.marchDay := by
  simp only [toDays, marchFirst, marchYear, marchDay, marchMonth]
  split <;> omega

theorem daysInMonth_le (year : Int) (month : Nat) : daysInMonth year month ≤ 31 := by
  unfold daysInMonth
  split
  · split <;> decide
  · split <;> decide

section Valid

variable {date first second : Date}

/-- A date falls into a year that is counted from March. -/
theorem marchDay_bounds (valid : date.IsValid) :
    0 ≤ date.marchDay ∧ date.toDays < marchFirst (date.marchYear + 1) := by
  rw [toDays_eq_marchFirst_add]
  obtain ⟨-, -, low, high, start, finish⟩ := valid
  have short := Nat.le_trans finish (daysInMonth_le _ _)
  simp only [daysInMonth, isLeap, decide_eq_true_eq] at finish
  simp only [marchFirst, marchYear, marchDay, marchMonth]
  by_cases february : date.month = 2
  · simp only [february, if_true] at finish ⊢
    split at finish <;> omega
  · split <;> omega

/-- Dates reach no farther than a hundred million days. -/
theorem toDays_bounds (valid : date.IsValid) :
    -100000000 < date.toDays ∧ date.toDays < 100000000 := by
  obtain ⟨first, last⟩ := marchDay_bounds valid
  obtain ⟨low, high, -⟩ := valid
  have year : date.year - 1 ≤ date.marchYear ∧ date.marchYear ≤ date.year := by
    rw [marchYear]
    split <;> omega
  refine ⟨?_, ?_⟩
  · rw [toDays_eq_marchFirst_add, marchFirst]
    omega
  · rw [marchFirst] at last
    omega

theorem months_march (valid : date.IsValid) :
    12 * date.marchYear + date.marchMonth = 12 * date.year + date.month - 3 ∧
      0 ≤ date.marchMonth ∧ date.marchMonth ≤ 11 := by
  obtain ⟨-, -, low, high, -, -⟩ := valid
  simp only [marchYear, marchMonth]
  split <;> omega

/-- No month reaches into the next one. -/
theorem day_le_of_isValid (valid : date.IsValid) :
    (153 * date.marchMonth + 2) / 5 + date.day ≤ (153 * (date.marchMonth + 1) + 2) / 5 := by
  obtain ⟨year, month, day⟩ := date
  obtain ⟨-, -, low, high, start, finish⟩ := valid
  have lengths : (153 * marchMonth ⟨year, month, day⟩ + 2) / 5 + (daysInMonth year month : Int) ≤
      (153 * (marchMonth ⟨year, month, day⟩ + 1) + 2) / 5 := by
    simp only [marchMonth, daysInMonth]
    simp only at low high
    cases isLeap year <;> interval_cases month <;> simp
  simp only at finish ⊢
  omega

theorem ofMarch_march (valid : date.IsValid) : ofMarch date.marchYear date.marchDay = date := by
  have lengths := day_le_of_isValid valid
  obtain ⟨months, low, high⟩ := months_march valid
  obtain ⟨-, -, first, last, start, finish⟩ := valid
  have short := Nat.le_trans finish (daysInMonth_le _ _)
  have month : (5 * date.marchDay + 2) / 153 = date.marchMonth := by
    simp only [marchDay]
    omega
  simp only [ofMarch, month]
  obtain ⟨year, calendarMonth, day⟩ := date
  simp only [marchDay, marchMonth, marchYear] at *
  congr 1
  · split <;> omega
  · split <;> omega
  · omega

/-- **A date is the date of its day.** -/
theorem ofDays_toDays (valid : date.IsValid) : ofDays date.toDays = date := by
  obtain ⟨year, dayOfYear, same, start, counted, finish⟩ := ofDays_eq_ofMarch date.toDays
  obtain ⟨start', finish'⟩ := marchDay_bounds valid
  have counted' := toDays_eq_marchFirst_add date
  -- A day that falls into two years falls into the later one, so the years are one.
  have notBefore : ¬ year + 1 ≤ date.marchYear := fun order => by
    have years := marchFirst_mono order
    omega
  have notAfter : ¬ date.marchYear + 1 ≤ year := fun order => by
    have years := marchFirst_mono order
    omega
  obtain rfl : date.marchYear = year := by omega
  obtain rfl : date.marchDay = dayOfYear := by omega
  rw [same, ofMarch_march valid]

theorem eq_iff_fields : first = second ↔
    first.year = second.year ∧ first.month = second.month ∧ first.day = second.day := by
  cases first
  cases second
  rw [mk.injEq]

/-- Whether a date comes before another one: by year, then by month, then by day. -/
def IsBefore (first second : Date) : Prop :=
  first.year < second.year ∨ first.year = second.year ∧
    (first.month < second.month ∨ first.month = second.month ∧ first.day < second.day)

theorem toDays_lt_of_isBefore (valid : first.IsValid) (valid' : second.IsValid)
    (before : first.IsBefore second) : first.toDays < second.toDays := by
  obtain ⟨months, low, high⟩ := months_march valid
  obtain ⟨months', low', high'⟩ := months_march valid'
  -- Counted from March, the months follow each other in the same order.
  have order : 12 * first.marchYear + first.marchMonth < 12 * second.marchYear + second.marchMonth ∨
      12 * first.marchYear + first.marchMonth = 12 * second.marchYear + second.marchMonth ∧
        first.day < second.day := by
    obtain ⟨-, -, early, late, -, -⟩ := valid
    obtain ⟨-, -, early', late', -, -⟩ := valid'
    rw [months, months']
    rw [IsBefore] at before
    omega
  obtain ⟨start, -⟩ := marchDay_bounds valid'
  have counted := toDays_eq_marchFirst_add second
  by_cases earlier : first.marchYear < second.marchYear
  · have years := marchFirst_mono (Int.add_one_le_of_lt earlier)
    have finish := (marchDay_bounds valid).2
    omega
  · have same : first.marchYear = second.marchYear := by omega
    rw [counted, toDays_eq_marchFirst_add first, same]
    have inMonth := day_le_of_isValid valid
    have positive := valid'.2.2.2.2.1
    simp only [marchDay]
    omega

/-- **Later dates have greater numbers of days.** -/
theorem toDays_lt_iff (valid : first.IsValid) (valid' : second.IsValid) :
    first.toDays < second.toDays ↔ first.IsBefore second := by
  refine ⟨fun less => ?_, toDays_lt_of_isBefore valid valid'⟩
  by_contra notBefore
  have cases : second.IsBefore first ∨ first = second := by
    simp only [IsBefore, eq_iff_fields] at notBefore ⊢
    omega
  rcases cases with after | rfl
  · exact Int.lt_asymm less (toDays_lt_of_isBefore valid' valid after)
  · exact Int.lt_irrefl _ less

end Valid

end ChartCompiler.Date
