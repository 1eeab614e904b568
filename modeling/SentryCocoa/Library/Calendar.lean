import Mathlib.Data.Int.DivMod
import Mathlib.Data.Int.Init

/-! The Gregorian calendar, and the number of a day counted from the first of January 1970. The
year is counted from March on, so that the day that only leap years have is its last one. -/
namespace SentryCocoa.Library.Calendar

structure Date where
  year : Int
  month : Int
  day : Int
  deriving DecidableEq

def IsLeapYear (year : Int) : Prop := year % 4 = 0 ∧ (year % 100 ≠ 0 ∨ year % 400 = 0)

instance : DecidablePred IsLeapYear := fun _ => inferInstanceAs (Decidable (_ ∧ _))

def daysInMonth (year month : Int) : Int :=
  if month = 2 then if IsLeapYear year then 29 else 28
  else if month = 4 ∨ month = 6 ∨ month = 9 ∨ month = 11 then 30
  else 31

structure Date.Valid (date : Date) : Prop where
  month : 1 ≤ date.month ∧ date.month ≤ 12
  day : 1 ≤ date.day ∧ date.day ≤ daysInMonth date.year date.month

def Date.tomorrow (date : Date) : Date :=
  if date.day < daysInMonth date.year date.month then { date with day := date.day + 1 }
  else if date.month < 12 then ⟨date.year, date.month + 1, 1⟩
  else ⟨date.year + 1, 1, 1⟩

/-- The days of the years before the year that begins in March, from that of the year zero. -/
def daysBeforeYear (year : Int) : Int := 365 * year + year / 4 - year / 100 + year / 400

/-- The days of a year before the month, which is counted from March on. -/
def daysBeforeMonth (month : Int) : Int := (153 * month + 2) / 5

def Date.dayNumber (date : Date) : Int :=
  (if date.month ≤ 2 then daysBeforeYear (date.year - 1) + daysBeforeMonth (date.month + 9)
    else daysBeforeYear date.year + daysBeforeMonth (date.month - 3)) + date.day - 1 - 719468

theorem dayNumber_epoch : (Date.mk 1970 1 1).dayNumber = 0 := by decide

theorem dayNumber_tomorrow {date : Date} (h : date.Valid) :
    date.tomorrow.dayNumber = date.dayNumber + 1 := by
  obtain ⟨year, month, day⟩ := date
  obtain ⟨hmonth, hday⟩ := h
  unfold Date.tomorrow
  split
  · unfold Date.dayNumber
    dsimp only
    split <;> omega
  · unfold Date.dayNumber daysBeforeYear daysBeforeMonth
    unfold daysInMonth IsLeapYear at *
    dsimp only at *
    have hmonths : month = 1 ∨ month = 2 ∨ month = 3 ∨ month = 4 ∨ month = 5 ∨ month = 6 ∨
        month = 7 ∨ month = 8 ∨ month = 9 ∨ month = 10 ∨ month = 11 ∨ month = 12 := by omega
    rcases hmonths with rfl | rfl | rfl | rfl | rfl | rfl | rfl | rfl | rfl | rfl | rfl | rfl <;>
      simp at * <;> omega

theorem daysBeforeYear_succ_le (year : Int) :
    daysBeforeYear year + 365 ≤ daysBeforeYear (year + 1) := by
  unfold daysBeforeYear
  omega

theorem daysBeforeYear_mono {year year' : Int} (h : year ≤ year') :
    daysBeforeYear year + 365 * (year' - year) ≤ daysBeforeYear year' := by
  induction year', h using Int.leInduction with
  | base => simp
  | succ year' h ih =>
    have := daysBeforeYear_succ_le year'
    omega

theorem dayNumber_lt_of_year_lt {date date' : Date} (hdate : date.Valid) (hdate' : date'.Valid)
    (h : date.year < date'.year) : date.dayNumber < date'.dayNumber := by
  have hbetween := daysBeforeYear_mono (show date.year ≤ date'.year - 1 by omega)
  have hyear := daysBeforeYear_succ_le (date.year - 1)
  have hyear' := daysBeforeYear_succ_le (date'.year - 1)
  obtain ⟨hmonth, hday⟩ := hdate
  obtain ⟨hmonth', hday'⟩ := hdate'
  rw [Int.sub_add_cancel] at hyear hyear'
  unfold Date.dayNumber daysBeforeMonth
  unfold daysInMonth at hday hday'
  split at hday <;> split <;> split <;> omega

/-! The date of a day. -/

/-- The year that begins in March, and the days of it that have passed. -/
def yearAndDay (number : Int) : Int × Int :=
  let cycle := (number + 719468) / 146097
  let dayOfCycle := (number + 719468) % 146097
  let century := min (dayOfCycle / 36524) 3
  let dayOfCentury := dayOfCycle - 36524 * century
  let leap := dayOfCentury / 1461
  let dayOfLeap := dayOfCentury % 1461
  let year := min (dayOfLeap / 365) 3
  (400 * cycle + 100 * century + 4 * leap + year, dayOfLeap - 365 * year)

def dateOfDay (number : Int) : Date :=
  let year := (yearAndDay number).1
  let dayOfYear := (yearAndDay number).2
  let month := (5 * dayOfYear + 2) / 153
  ⟨if month < 10 then year else year + 1, if month < 10 then month + 3 else month - 9,
    dayOfYear - daysBeforeMonth month + 1⟩

theorem daysBeforeYear_cycles (cycle : Int) {century leap year : Int}
    (hcentury : 0 ≤ century ∧ century ≤ 3) (hleap : 0 ≤ leap ∧ leap ≤ 24)
    (hyear : 0 ≤ year ∧ year ≤ 3) :
    daysBeforeYear (400 * cycle + 100 * century + 4 * leap + year) =
      146097 * cycle + 36524 * century + 1461 * leap + 365 * year := by
  unfold daysBeforeYear
  omega

theorem yearAndDay_spec (number : Int) :
    daysBeforeYear (yearAndDay number).1 + (yearAndDay number).2 - 719468 = number ∧
      (0 ≤ (yearAndDay number).2 ∧ (yearAndDay number).2 ≤ 365) ∧
      ((yearAndDay number).2 = 365 → IsLeapYear ((yearAndDay number).1 + 1)) := by
  unfold yearAndDay
  dsimp only
  generalize hcycle : (number + 719468) / 146097 = cycle
  generalize hday : (number + 719468) % 146097 = dayOfCycle
  generalize hcentury : min (dayOfCycle / 36524) 3 = century
  generalize hleap : (dayOfCycle - 36524 * century) / 1461 = leap
  generalize hdayOfLeap : (dayOfCycle - 36524 * century) % 1461 = dayOfLeap
  generalize hyear : min (dayOfLeap / 365) 3 = year
  have hcenturies : 0 ≤ century ∧ century ≤ 3 ∧ 0 ≤ dayOfCycle - 36524 * century ∧
      dayOfCycle - 36524 * century ≤ 36524 := by omega
  have hleaps : 0 ≤ leap ∧ leap ≤ 24 := by omega
  have hyears : 0 ≤ year ∧ year ≤ 3 ∧ 0 ≤ dayOfLeap - 365 * year ∧
      dayOfLeap - 365 * year ≤ 365 := by omega
  rw [daysBeforeYear_cycles cycle ⟨hcenturies.1, hcenturies.2.1⟩ hleaps ⟨hyears.1, hyears.2.1⟩]
  refine ⟨by omega, ⟨hyears.2.2.1, hyears.2.2.2⟩, fun hlast => ?_⟩
  -- The last day of a leap year ends four years, and those of a century only after four of them.
  have hfour : year = 3 ∧ (leap = 24 → century = 3) := by omega
  unfold IsLeapYear
  omega

theorem valid_dateOfDay (number : Int) : (dateOfDay number).Valid := by
  obtain ⟨-, hday, hleap⟩ := yearAndDay_spec number
  unfold dateOfDay
  generalize yearAndDay number = found at *
  obtain ⟨year, day⟩ := found
  dsimp only at *
  constructor
  · dsimp only
    split <;> omega
  · unfold daysInMonth daysBeforeMonth
    dsimp only
    generalize hmonth : (5 * day + 2) / 153 = month
    have hmonths : month = 0 ∨ month = 1 ∨ month = 2 ∨ month = 3 ∨ month = 4 ∨ month = 5 ∨
        month = 6 ∨ month = 7 ∨ month = 8 ∨ month = 9 ∨ month = 10 ∨ month = 11 := by omega
    rcases hmonths with rfl | rfl | rfl | rfl | rfl | rfl | rfl | rfl | rfl | rfl | rfl | rfl
    case inr.inr.inr.inr.inr.inr.inr.inr.inr.inr.inr =>
      -- February has one day more when the day may be the last of a leap year.
      by_cases hlast : day = 365
      · simp [hleap hlast, hlast]
      · simp
        split <;> omega
    all_goals
      simp
      omega

theorem dayNumber_dateOfDay (number : Int) : (dateOfDay number).dayNumber = number := by
  obtain ⟨hnumber, hday, -⟩ := yearAndDay_spec number
  unfold dateOfDay Date.dayNumber
  generalize yearAndDay number = found at *
  obtain ⟨year, day⟩ := found
  dsimp only at *
  by_cases hwinter : (5 * day + 2) / 153 < 10
  · have hmonth : ¬(5 * day + 2) / 153 + 3 ≤ 2 := by omega
    simp only [hwinter, hmonth, if_true, if_false, Int.add_sub_cancel]
    omega
  · have hmonth : (5 * day + 2) / 153 - 9 ≤ 2 := by omega
    simp only [hwinter, hmonth, if_true, if_false, Int.add_sub_cancel, Int.sub_add_cancel]
    omega

end SentryCocoa.Library.Calendar
