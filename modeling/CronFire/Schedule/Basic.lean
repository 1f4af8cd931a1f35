import CronFire.Field.Basic
/-!
# Schedules

A schedule has one field for each of second, minute, hour, day of month, month and day of
week.  Each kind of field has a fixed domain; days of the week count from Sunday as 0.
-/
namespace CronFire

/-- The kinds of field, from the finest to the coarsest. -/
inductive FieldKind where
  | second
  | minute
  | hour
  | dayOfMonth
  | month
  | dayOfWeek
  deriving DecidableEq, Repr

def dayNames : List String :=
  ["Sunday", "Monday", "Tuesday", "Wednesday", "Thursday", "Friday", "Saturday"]

def monthNames : List String :=
  ["January", "February", "March", "April", "May", "June", "July", "August", "September",
   "October", "November", "December"]

namespace FieldKind

def all : List FieldKind := [.second, .minute, .hour, .dayOfMonth, .month, .dayOfWeek]

/-- The name of a kind in messages and tables. -/
def label : FieldKind → String
  | .second => "second"
  | .minute => "minute"
  | .hour => "hour"
  | .dayOfMonth => "day-of-month"
  | .month => "month"
  | .dayOfWeek => "day-of-week"

def domain : FieldKind → Domain
  | .second => ⟨0, 59, []⟩
  | .minute => ⟨0, 59, []⟩
  | .hour => ⟨0, 23, []⟩
  | .dayOfMonth => ⟨1, 31, []⟩
  | .month => ⟨1, 12, monthNames⟩
  | .dayOfWeek => ⟨0, 6, dayNames⟩

end FieldKind

/-- One field of each kind. -/
structure Schedule where
  second : Field
  minute : Field
  hour : Field
  dayOfMonth : Field
  month : Field
  dayOfWeek : Field
  deriving DecidableEq, Repr

namespace Schedule

def field (s : Schedule) : FieldKind → Field
  | .second => s.second
  | .minute => s.minute
  | .hour => s.hour
  | .dayOfMonth => s.dayOfMonth
  | .month => s.month
  | .dayOfWeek => s.dayOfWeek

def allowed (s : Schedule) (kind : FieldKind) : ValueSet := (s.field kind).allowed

/-- The schedule in one line, field by field. -/
def describe [Strays] (s : Schedule) : String :=
  "Schedule(second=" ++ s.second.describe ++ ", minute=" ++ s.minute.describe ++ ", hour=" ++
    s.hour.describe ++ ", day_of_month=" ++ s.dayOfMonth.describe ++ ", month=" ++
    s.month.describe ++ ", day_of_week=" ++ s.dayOfWeek.describe ++ ")"

end Schedule

end CronFire
