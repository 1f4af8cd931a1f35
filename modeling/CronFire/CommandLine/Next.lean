import CronFire.CommandLine.Run
import CronFire.Fire.Sequence
import CronFire.Text.Integer
/-!
# The next fire times

The command `next` prints the next fire times of an expression, one on a line, and says so if
there are fewer than asked for.  Without an expression, or without a number, the settings decide.

* `NextRequest.ofArguments`: what is asked for.
* `next`: the command.
-/
namespace CronFire.CommandLine

inductive NextSwitch where
  | count
  | start
  | stop
  | help
  deriving DecidableEq, Repr

def nextSwitches : List (Switch NextSwitch) :=
  [{ key := .count, name := "--count", letter := some 'n', takesValue := true },
   { key := .start, name := "--start", takesValue := true },
   { key := .stop, name := "--end", takesValue := true },
   { key := .help, name := "--help" }]

/-- What is asked for. -/
structure NextRequest where
  /-- The expression; if it is empty, that of the settings is meant. -/
  expression : String := ""
  /-- How many fire times, if not as many as the settings say. -/
  count : Option Nat := none
  /-- Where the search starts, if not now. -/
  start : Option Moment := none
  /-- Where the search ends, if not with the calendar. -/
  stop : Option Moment := none
  deriving DecidableEq, Repr

def readCount (text : String) : Except UsageFault Nat :=
  match Text.readInteger? text.toList with
  | none => .error (.countUnreadable text)
  | some n => if n < 1 then .error (.countTooSmall n) else .ok n.toNat

/-- The moment that a text names; the word `now`, in any case, is the present one. -/
def readMoment (s : Surroundings) (switch text : String) : Except UsageFault Moment :=
  let cs := Text.trim text.toList
  if Text.lower cs = ['n', 'o', 'w'] then .ok s.now
  else
    match s.reader.read? cs with
    | none => .error (.momentUnreadable switch)
    | some m => .ok m

namespace NextRequest

def update (s : Surroundings) (r : NextRequest) (key : NextSwitch) (value : String) :
    Except UsageFault NextRequest :=
  match key with
  | .count => (readCount value).map fun n => { r with count := some n }
  | .start => (readMoment s "--start" value).map fun m => { r with start := some m }
  | .stop => (readMoment s "--end" value).map fun m => { r with stop := some m }
  | .help => .ok r

/-- What some arguments ask for.  The values are read in the order in which their switches
occur first, so the first that cannot be read is reported. -/
def ofArguments (s : Surroundings) (a : Arguments NextSwitch) : Except UsageFault NextRequest :=
  a.keys.foldlM (fun r key => r.update s key ((a.value? key).getD ""))
    { expression := joinWords a.words }

def subject (r : NextRequest) (settings : Settings) : String :=
  if r.expression = "" then settings.expression else r.expression

def number (r : NextRequest) (settings : Settings) : Nat := r.count.getD settings.count

def begins (r : NextRequest) (now : Moment) : Moment := searchStart r.start now

def ends (r : NextRequest) (now : Moment) : Moment := searchEnd r.stop (r.begins now)

end NextRequest

variable [Strays]

def printFires (c : Context) : List Moment → Run Unit
  | [] => pure ()
  | m :: ms => do
    print c (m.writeFire c.platform c.settings.pattern c.settings.showWeekday)
    printFires c ms

/-- The words for the end of a search. -/
def limitText (p : Platform) (stop : Option Moment) : String :=
  stop.elim "the end of time" (·.write p "%Y-%m-%d %H:%M:%S")

/-- Prints the next fire times. -/
def next (c : Context) (r : NextRequest) : Run Unit := do
  let expression := r.subject c.settings
  let count := r.number c.settings
  let schedule ← requireSchedule c expression
  if c.verbose then
    print c ("[blue]Expression:[/blue] " ++ expression)
    note c .bug "next_cmd" (describeSchedule expression schedule)
  let start := r.begins c.now
  let stop := r.ends c.now
  if !start.comparable stop then
    stopUsage (some .next) .mixedOffsets
  match (FireSequence.start schedule start stop (some count)).toList with
  | .error _ => throw (.crash .mixedOffsets)
  | .ok fires =>
    printFires c fires
    if fires.length < count then
      print c
        ("[yellow]No further fire times before " ++ limitText c.platform r.stop ++ ".[/yellow]")

end CronFire.CommandLine
