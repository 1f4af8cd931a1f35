import CronFire.Calendar.Date
import CronFire.Text.Numeral
/-!
# Moments

A moment is a date and a time of day, to the microsecond, with or without an offset from
universal time.  An offset is a number of whole seconds and does not change in the course of a
search.  Two moments with offsets compare as instants, two without compare as they stand, and a
mixed pair has no order.

* `compareWith`: the order of two moments, or the refusal of a mixed pair.
-/
namespace CronFire

/-- A time of day.  As the start of a search the second may be 60. -/
structure TimeOfDay where
  hour : Int
  minute : Int
  second : Int
  deriving DecidableEq, Repr

namespace TimeOfDay

def IsReal (t : TimeOfDay) : Prop :=
  0 ≤ t.hour ∧ t.hour ≤ 23 ∧ 0 ≤ t.minute ∧ t.minute ≤ 59 ∧ 0 ≤ t.second ∧ t.second ≤ 59

instance (t : TimeOfDay) : Decidable t.IsReal := by unfold IsReal; infer_instance

def midnight : TimeOfDay := ⟨0, 0, 0⟩

def seconds (t : TimeOfDay) : Int := 3600 * t.hour + 60 * t.minute + t.second

end TimeOfDay

/-- A date and a time of day, with the offset of its clock in seconds if it has one. -/
structure Moment where
  date : Date
  time : TimeOfDay
  micro : Int := 0
  offset : Option Int := none
  deriving DecidableEq, Repr

/-- One moment has an offset and the other has none. -/
structure MixedOffsets where
  deriving DecidableEq, Repr

/-- The sentence that reports the attempt to order a mixed pair. -/
def MixedOffsets.message (_ : MixedOffsets) : String :=
  "can't compare offset-naive and offset-aware datetimes"

namespace Moment

def IsReal (m : Moment) : Prop :=
  m.date.IsReal ∧ m.time.IsReal ∧ 0 ≤ m.micro ∧ m.micro < 1000000

instance (m : Moment) : Decidable m.IsReal := by unfold IsReal; infer_instance

/-- The seconds on the moment's own clock since the calendar began. -/
def wallSeconds (m : Moment) : Int := 86400 * m.date.ordinal + m.time.seconds

/-- The microseconds since the calendar began, at offset 0. -/
def instant (m : Moment) : Int := 1000000 * (m.wallSeconds - m.offset.getD 0) + m.micro

/-- Both moments have an offset, or neither has. -/
def comparable (a b : Moment) : Bool := a.offset.isSome == b.offset.isSome

def compareWith (a b : Moment) : Except MixedOffsets Ordering :=
  if a.comparable b then .ok (compare a.instant b.instant) else .error ⟨⟩

def last (offset : Option Int) : Moment := ⟨Date.last, ⟨23, 59, 59⟩, 999999, offset⟩

/-- The day of the week, Sunday as 0. -/
def weekday (m : Moment) : Int := m.date.weekday

end Moment

end CronFire
