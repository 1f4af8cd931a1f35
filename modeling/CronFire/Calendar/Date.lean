/-!
# The calendar

Dates of the Gregorian calendar, carried back before its introduction, in the years 1 to 9999.
A date is three numbers; `Date.IsReal` holds when there is such a day.  Days are numbered from
1 January of year 1, which was a Monday.
-/
namespace CronFire

def lastYear : Int := 9999

/-- A year with a 29 February. -/
def isLeapYear (year : Int) : Bool :=
  year % 4 == 0 && (year % 100 != 0 || year % 400 == 0)

def monthLength (year month : Int) : Int :=
  if month = 2 then (if isLeapYear year then 29 else 28)
  else if month = 4 ∨ month = 6 ∨ month = 9 ∨ month = 11 then 30
  else 31

def daysBeforeMonth (year month : Int) : Int :=
  (367 * month - 362) / 12 + (if month ≤ 2 then 0 else if isLeapYear year then -1 else -2)

def daysBeforeYear (year : Int) : Int :=
  let y := year - 1
  365 * y + y / 4 - y / 100 + y / 400

/-- A year, a month and a day of the month. -/
structure Date where
  year : Int
  month : Int
  day : Int
  deriving DecidableEq, Repr

namespace Date

/-- There is such a day in the years of the calendar. -/
def IsReal (d : Date) : Prop :=
  1 ≤ d.year ∧ d.year ≤ lastYear ∧ 1 ≤ d.month ∧ d.month ≤ 12 ∧ 1 ≤ d.day ∧
    d.day ≤ monthLength d.year d.month

instance (d : Date) : Decidable d.IsReal := by unfold IsReal; infer_instance

/-- The number of the day in its year, from 1. -/
def dayOfYear (d : Date) : Int := daysBeforeMonth d.year d.month + d.day

/-- The number of the day, from 1 on 1 January of year 1. -/
def ordinal (d : Date) : Int := daysBeforeYear d.year + d.dayOfYear

/-- The day of the week, Sunday as 0. -/
def weekday (d : Date) : Int := d.ordinal % 7

/-- The day after, which may lie beyond the last year. -/
def tomorrow (d : Date) : Date :=
  if d.day < monthLength d.year d.month then { d with day := d.day + 1 }
  else if d.month < 12 then ⟨d.year, d.month + 1, 1⟩
  else ⟨d.year + 1, 1, 1⟩

/-- The day after, unless the calendar ends. -/
def tomorrow? (d : Date) : Option Date :=
  if lastYear < d.tomorrow.year then none else some d.tomorrow

/-- `d` is the same day as `e` or an earlier one, compared by year, month and day. -/
def notAfter (d e : Date) : Bool :=
  d.year < e.year ||
    (d.year == e.year && (d.month < e.month || (d.month == e.month && d.day ≤ e.day)))

end Date

def Date.last : Date := ⟨lastYear, 12, 31⟩

example : (⟨1, 1, 1⟩ : Date).weekday = 1 := by decide
example : (⟨2024, 2, 29⟩ : Date).weekday = 4 := by decide
example : Date.last.weekday = 5 := by decide
example : Date.last.ordinal = 3652059 := by decide
example : (⟨2024, 12, 31⟩ : Date).dayOfYear = 366 := by decide

end CronFire
