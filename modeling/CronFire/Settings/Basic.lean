import CronFire.Text.Numeral
/-!
# Settings

What a user may set, with the defaults, and the commented document that settings are kept in.
The document shows every setting with a note on its use.  Texts go into it as they are.

* `render`: the document of some settings.
-/
namespace CronFire

structure Settings where
  title : String := "Croncalc Configuration"
  /-- The pattern that fire times are written by. -/
  pattern : String := "%Y.%m.%d %H:%M:%S"
  /-- Whether the name of the day follows a fire time. -/
  showWeekday : Bool := true
  /-- How many fire times are printed when no number is asked for. -/
  count : Nat := 9
  /-- The expression that is used when none is given. -/
  expression : String := "10 0-8/2 * * SUN,TUE"
  deriving DecidableEq, Repr

namespace Settings

/-- A count has more digits than are converted to text. -/
def countTooLong (s : Settings) : Bool := Nat.pow 10 Text.digitLimit ≤ s.count

def render (s : Settings) : String :=
  "title = \"" ++ s.title ++ "\"\n" ++
  "\n" ++
  "[output]\n" ++
  "# datetime_format: str = any strftime format\n" ++
  "# used for each fire time printed by \"croncalc next\"\n" ++
  "datetime_format = \"" ++ s.pattern ++ "\"\n" ++
  "\n" ++
  "# show_weekday: bool = true | false\n" ++
  "# append the weekday name after each fire time\n" ++
  "show_weekday = " ++ (if s.showWeekday then "true" else "false") ++ "\n" ++
  "\n" ++
  "[search]\n" ++
  "# count: int >= 1\n" ++
  "# how many fire times \"croncalc next\" prints when -n is not given\n" ++
  "count = " ++ Text.decimal s.count ++ "\n" ++
  "\n" ++
  "# expression: str\n" ++
  "# the cron expression \"croncalc next\" uses when none is given.\n" ++
  "# Five fields (minute hour day-of-month month day-of-week) or six\n" ++
  "# with a leading seconds field.\n" ++
  "expression = \"" ++ s.expression ++ "\"\n"

end Settings

end CronFire
