import CronFire.CommandLine.Run
import CronFire.Terminal.Table
/-!
# Checking an expression

The command `check` tells whether an expression is valid and shows the values that each field
allows.  Without an argument the expression comes from standard input.

* `check`: the command.
-/
namespace CronFire.CommandLine

inductive CheckSwitch where
  | help
  deriving DecidableEq, Repr

def checkSwitches : List (Switch CheckSwitch) := [{ key := .help, name := "--help" }]

def checkedExpression (input : Option String) (words : List String) : String :=
  match words, input with
  | [], some text => String.ofList (Text.trim (Text.unifyNewlines text.toList))
  | words, _ => joinWords words

/-- The fields of a schedule and the values they allow, under the expression. -/
def scheduleTable (expression : String) (schedule : Schedule) : Terminal.Table :=
  { title := expression.toList
    columns :=
      [("field".toList, FieldKind.all.map fun kind => kind.label.toList),
       ("token".toList, FieldKind.all.map fun kind => ((schedule.field kind).token.getD "").toList),
       ("values".toList, FieldKind.all.map fun kind => (schedule.field kind).valueList.toList)] }

def check [Strays] (c : Context) (words : List String) : Run Unit := do
  let expression := checkedExpression c.input words
  if expression = "" then
    print c "[bold red]✘ No expression provided. Use argument or pipe.[/bold red]"
    throw (.exit 1)
  let schedule ← requireSchedule c expression
  print c "[green]✔ Expression is valid.[/green]"
  if c.verbose then
    note c .bug "check" (describeSchedule expression schedule)
  say (Terminal.stack ((scheduleTable expression schedule).render c.columns))

end CronFire.CommandLine
