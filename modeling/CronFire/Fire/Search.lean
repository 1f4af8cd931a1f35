import CronFire.Calendar.Moment
import CronFire.Schedule.Basic
/-!
# The next fire time

A schedule fires at the whole seconds whose six fields all allow them.  `nextFire` finds the
first such second after a start and before an end.

The time of day and the date are searched apart.  The earliest allowed time of day from a
floor on either exists on the floor's own day or leaves the day to the next one, which then
begins with the earliest allowed time.  The earliest allowed date from a floor on is the
floor's month or the first later month that has an allowed day.  A month whose first allowed
day it does not have, such as 30 February, is passed over, unless that day is not before the
end's date: then the search is over.  A date found on a wrong day of the week sends the search
to the day after it.

* `Matches`: the times a schedule fires at.
* `nextFire`: the first of them between two moments.
-/
namespace CronFire

namespace Schedule

/-- The time of day is allowed by the three time fields. -/
def AllowsTime (s : Schedule) (t : TimeOfDay) : Prop :=
  t.second ∈ s.second.allowed ∧ t.minute ∈ s.minute.allowed ∧ t.hour ∈ s.hour.allowed

/-- The date is allowed by the day of month and the month. -/
def AllowsDate (s : Schedule) (d : Date) : Prop :=
  d.day ∈ s.dayOfMonth.allowed ∧ d.month ∈ s.month.allowed

/-- The schedule fires on this date at this time of day. -/
def Matches (s : Schedule) (d : Date) (t : TimeOfDay) : Prop :=
  s.AllowsTime t ∧ s.AllowsDate d ∧ d.weekday ∈ s.dayOfWeek.allowed

instance (s : Schedule) (t : TimeOfDay) : Decidable (s.AllowsTime t) := by
  unfold AllowsTime; infer_instance

instance (s : Schedule) (d : Date) : Decidable (s.AllowsDate d) := by
  unfold AllowsDate; infer_instance

instance (s : Schedule) (d : Date) (t : TimeOfDay) : Decidable (s.Matches d t) := by
  unfold Matches; infer_instance

def firstInHour? (s : Schedule) (hour : Int) : Option TimeOfDay := do
  let minute ← s.minute.allowed.first?
  let second ← s.second.allowed.first?
  some ⟨hour, minute, second⟩

def firstTime? (s : Schedule) : Option TimeOfDay := do
  let hour ← s.hour.allowed.first?
  s.firstInHour? hour

def timeInHour? (s : Schedule) (floor : TimeOfDay) : Option TimeOfDay := do
  let minute ← s.minute.allowed.next? floor.minute
  if minute = floor.minute then
    match s.second.allowed.next? floor.second with
    | some second => some ⟨floor.hour, minute, second⟩
    | none =>
      let minute ← s.minute.allowed.next? (floor.minute + 1)
      let second ← s.second.allowed.first?
      some ⟨floor.hour, minute, second⟩
  else
    let second ← s.second.allowed.first?
    some ⟨floor.hour, minute, second⟩

def timeFrom? (s : Schedule) (floor : TimeOfDay) : Option TimeOfDay := do
  let hour ← s.hour.allowed.next? floor.hour
  if hour = floor.hour then
    match s.timeInHour? floor with
    | some time => some time
    | none =>
      let hour ← s.hour.allowed.next? (floor.hour + 1)
      s.firstInHour? hour
  else s.firstInHour? hour

/-- The earliest allowed date in a month whose day is at least `day`, then in the months that
follow, `months` of them.  A day that its month does not have ends the search if it is not
before `limit`. -/
def dateInMonths? (s : Schedule) (limit : Date) :
    (months : Nat) → (year month day : Int) → Option Date
  | 0, _, _, _ => none
  | months + 1, year, month, day =>
    let onward (_ : Unit) : Option Date :=
      let first := s.dayOfMonth.allowed.first?.getD 1
      if month < 12 then s.dateInMonths? limit months year (month + 1) first
      else s.dateInMonths? limit months (year + 1) 1 first
    if month ∈ s.month.allowed then
      match s.dayOfMonth.allowed.next? day with
      | none => onward ()
      | some day =>
        if day ≤ monthLength year month then some ⟨year, month, day⟩
        else if limit.notAfter ⟨year, month, day⟩ then none
        else onward ()
    else onward ()

/-- The number of months from a month to the end of the calendar, that month included. -/
def monthsLeft (year month : Int) : Nat := (12 * (lastYear - year) + (13 - month)).toNat

def dateFrom? (s : Schedule) (limit : Date) (floor : Date) : Option Date :=
  s.dateInMonths? limit (monthsLeft floor.year floor.month) floor.year floor.month floor.day

/-- The earliest allowed date and time of day from a floor on, whatever the day of the week. -/
def resolve? (s : Schedule) (limit : Date) (date : Date) (time : TimeOfDay) :
    Option (Date × TimeOfDay) :=
  match s.timeFrom? time with
  | some onDate => do
    let found ← s.dateFrom? limit date
    if found = date then some (found, onDate)
    else
      let first ← s.firstTime?
      some (found, first)
  | none => do
    let found ← s.dateFrom? limit { date with day := date.day + 1 }
    let first ← s.firstTime?
    some (found, first)

/-- The first match from a floor on that is before `stop`, on the clock of `start`; `days`
bounds the number of dates that are tried. -/
def searchFrom (s : Schedule) (start stop : Moment) :
    (days : Nat) → Date → TimeOfDay → Except MixedOffsets (Option Moment)
  | 0, _, _ => .ok none
  | days + 1, date, time =>
    match s.resolve? stop.date date time with
    | none => .ok none
    | some (date, time) =>
      let candidate : Moment := ⟨date, time, 0, start.offset⟩
      match candidate.compareWith stop with
      | .error mixed => .error mixed
      | .ok .lt =>
        if candidate.weekday ∈ s.dayOfWeek.allowed then .ok (some candidate)
        else
          match date.tomorrow? with
          | none => .ok none
          | some next => s.searchFrom start stop days next .midnight
      | .ok _ => .ok none

/-- The second after a moment; it may be the 60th of its minute. -/
def floorAfter (start : Moment) : TimeOfDay :=
  { start.time with second := start.time.second + 1 }

/-- The first match after `start` and before `stop`, on the clock of `start`.  There may be
none, and `start` and `stop` may have no order. -/
def nextFire (s : Schedule) (start stop : Moment) : Except MixedOffsets (Option Moment) :=
  s.searchFrom start stop (Date.last.ordinal - start.date.ordinal + 1).toNat start.date
    (floorAfter start)

end Schedule

/-- The end of a search without one: the last moment of the calendar on the start's clock. -/
def Moment.defaultEnd (start : Moment) : Moment := .last start.offset

def searchStart (start? : Option Moment) (now : Moment) : Moment := start?.getD now

def searchEnd (stop? : Option Moment) (start : Moment) : Moment := stop?.getD start.defaultEnd

end CronFire
