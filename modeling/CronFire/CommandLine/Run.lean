import CronFire.Calendar.Format
import CronFire.Calendar.Reading
import CronFire.CommandLine.Usage
import CronFire.Journal.Entry
import CronFire.Schedule.Expression
import CronFire.Settings.Keeper
import CronFire.Terminal.Printed
/-!
# Runs

A run of the program changes the store and prints, and ends with an exit code or breaks off.
What it prints in colours goes through the markup of the terminal; notices and reports of wrong
usage are printed as they are.

* `Run`: the actions of a run.
* `requireSchedule`: a schedule, or the end of the run.
-/
namespace CronFire.CommandLine

/-- What a run is given besides its arguments. -/
structure Surroundings where
  now : Moment
  /-- The width of the terminal. -/
  columns : Nat
  environment : Variables
  /-- What standard input holds; missing if that is a terminal. -/
  input : Option String
  /-- How moments are read. -/
  reader : MomentReader
  /-- What is known about the time zones of moments. -/
  platform : Platform
  /-- The pictures that the terminal knows. -/
  emoji : Terminal.Emoji

/-- What a command is given besides its arguments. -/
structure Context extends Surroundings where
  home : Path
  settings : Settings
  verbose : Bool

/-- What a run has done so far. -/
structure Effects where
  store : Store
  output : String := ""

/-- What makes a run break off. -/
inductive Crash where
  /-- The settings cannot be kept. -/
  | keeper (fault : KeeperFault)
  /-- A number in an expression has too many digits. -/
  | numeralTooLong
  /-- A note cannot be made. -/
  | note (fault : NoteFault)
  /-- A text closes a tag that is not open. -/
  | unmatchedTag
  /-- Moments with and without an offset are compared. -/
  | mixedOffsets
  deriving DecidableEq, Repr

def Crash.message : Crash → String
  | .keeper (.store .notFound) => "there is no such file or folder"
  | .keeper (.store .notAFolder) => "a file stands where a folder is needed"
  | .keeper (.store .isAFolder) => "a folder stands where a file is needed"
  | .keeper (.store .alreadyThere) => "there is such a file already"
  | .keeper .notText => "the settings file is not text"
  | .keeper .numeralTooLong => "a number in the settings file has too many digits"
  | .keeper .unacceptable => "the settings are not acceptable"
  | .numeralTooLong => "a number in the expression has too many digits"
  | .note .tooNarrow => "the terminal is too narrow"
  | .note .unencodable => "a note cannot be encoded"
  | .unmatchedTag => "a closing tag does not match any open tag"
  | .mixedOffsets => MixedOffsets.message ⟨⟩

inductive Stop where
  | exit (code : Nat)
  | crash (cause : Crash)
  deriving DecidableEq, Repr

abbrev Run (α : Type) := ExceptT Stop (StateM Effects) α

def say (text : String) : Run Unit := modify fun e => { e with output := e.output ++ text }

/-- Prints a text with markup.  It holds no strays, since the one text that may hold some, the
message of an error, is noted before it is printed. -/
def print (c : Context) (text : String) : Run Unit :=
  match Terminal.printed c.emoji c.columns text with
  | .error _ => throw (.crash .unmatchedTag)
  | .ok shown => say shown

/-- Words with one blank between any two, without blanks at the two ends. -/
def joinWords (words : List String) : String :=
  String.ofList (Text.trim (" ".intercalate words).toList)

variable [Strays]

def note (c : Context) (kind : NoteKind) (caller message : String) : Run Unit := do
  let e ← get
  let (store, result) := Journal.record c.home c.now c.columns e.store { kind, caller, message }
  match result with
  | .error fault =>
    set { e with store }
    throw (.crash (.note fault))
  | .ok printed => set { store, output := e.output ++ printed : Effects }

def stopUsage {α : Type} (command : Option Command) (fault : UsageFault) : Run α := do
  say (fault.report command)
  throw (.exit 2)

/-- What was read from a call, or the report of its fault. -/
def orUsage {α : Type} (command : Option Command) : Except UsageFault α → Run α
  | .error fault => stopUsage command fault
  | .ok a => pure a

def keep {α : Type} (act : Store → Outcome α) : Run (Keeper × α) := do
  let e ← get
  let done := act e.store
  set { store := done.store,
        output := e.output ++ String.join (done.notices.map Notice.text) : Effects }
  match done.result with
  | .error fault => throw (.crash (.keeper fault))
  | .ok a => pure (done.keeper, a)

/-- The schedule of an expression.  An invalid one is noted and reported, and the run ends. -/
def requireSchedule (c : Context) (expression : String) : Run Schedule :=
  match Schedule.read expression with
  | .ok schedule => pure schedule
  | .error .numeralTooLong => throw (.crash .numeralTooLong)
  | .error (.reported error) => do
    note c .log "_expression_or_exit"
      ("invalid expression " ++ Text.quoted expression ++ ": " ++ error.message)
    print c ("[red]✘ Invalid expression:[/red] " ++ Text.quoted expression)
    print c ("  " ++ error.message)
    throw (.exit 1)

def describeSchedule (expression : String) (schedule : Schedule) : String :=
  "expression = " ++ Text.quoted expression ++ ", schedule = " ++ schedule.describe

end CronFire.CommandLine
