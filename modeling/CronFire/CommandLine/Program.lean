import CronFire.CommandLine.Check
import CronFire.CommandLine.Next
/-!
# The program

A call is made of switches, the name of a command and the arguments of that.  Before the
command is run, the home folder is made sure of and the settings are loaded from it.

* `run`: what a call does.
-/
namespace CronFire.CommandLine

/-- The switches before the name of the command. -/
inductive ProgramSwitch where
  | home
  | verbose
  | version
  | help
  deriving DecidableEq, Repr

def programSwitches : List (Switch ProgramSwitch) :=
  [{ key := .home, name := "--home", takesValue := true },
   { key := .verbose, name := "--verbose", letter := some 'v' },
   { key := .version, name := "--version" },
   { key := .help, name := "--help" }]

variable [Strays]

def readCall {κ : Type} (command : Option Command) (switches : List (Switch κ))
    (args : List String) : Run (Arguments κ) :=
  orUsage command
    ((readArguments switches command.isSome args).mapError UsageFault.argument)

def stopHelp {α : Type} (command : Option Command) : Run α := do
  say (helpText command)
  throw (.exit 0)

/-- Shows the version or help if that is asked for, whichever comes first, and ends the run. -/
def answerQuestions (a : Arguments ProgramSwitch) : Run Unit :=
  match a.keys.find? fun key => key = .version || key = .help with
  | some .version => do
    say versionLine
    throw (.exit 0)
  | some _ => stopHelp none
  | none => pure ()

/-- The settings of a home folder, which are put on file if they are missing there. -/
def loadSettings (home : Path) : Run Settings := do
  let (keeper, _) ← keep fun store => ({ home } : Keeper).ensure store true
  let (_, settings) ← keep fun store => keeper.load store
  pure settings

def runCommand (c : Context) (args : List String) : Command → Run Unit
  | .next => do
    let a ← readCall (some .next) nextSwitches args
    if a.has .help then stopHelp (some .next)
    let request ← orUsage (some .next) (NextRequest.ofArguments c.toSurroundings a)
    next c request
  | .check => do
    let a ← readCall (some .check) checkSwitches args
    if a.has .help then stopHelp (some .check)
    check c a.words

/-- The variables, with the home folder that a switch names in place of the one they name. -/
def withHome (environment : Variables) (home : Option String) : Variables :=
  match Variables.nonempty home with
  | none => environment
  | some home => { environment with home := some home }

def homeOf (environment : Variables) (a : Arguments ProgramSwitch) : Path :=
  (withHome environment (a.value? .home)).homeFolder

/-- The files that a call may read or change. -/
def filesInUse (s : Surroundings) (args : List String) : List Path :=
  match readArguments programSwitches false args with
  | .error _ => []
  | .ok a =>
    let home := homeOf s.environment a
    settingsPath home ::
      [NoteKind.log, NoteKind.bug].map fun kind => logPath home (Journal.dayFile s.now kind)

/-- The actions of a call. -/
def program (s : Surroundings) (args : List String) : Run Unit := do
  if args.isEmpty then
    say (helpText none)
    throw (.exit 2)
  let a ← readCall none programSwitches args
  answerQuestions a
  match a.words with
  | [] => stopUsage none .commandMissing
  | name :: rest =>
    match Command.ofName? name with
    | none =>
      -- behind `--` a switch may stand where the command should
      answerQuestions (← readCall none programSwitches a.words)
      stopUsage none
        (.unknownCommand name (Text.similarNames name [Command.next.name, Command.check.name]))
    | some command =>
      let home := homeOf s.environment a
      let settings ← loadSettings home
      runCommand { s with home, settings, verbose := a.has .verbose } rest command

/-- What came of a call. -/
structure Report where
  store : Store
  output : String
  code : Nat
  /-- Why the run broke off, if it did. -/
  crash : Option Crash

/-- What a call does to the store, what it prints and how it ends. -/
def run (s : Surroundings) (store : Store) (args : List String) : Report :=
  match (program s args).run.run { store } with
  | (.ok (), e) => ⟨e.store, e.output, 0, none⟩
  | (.error (.exit code), e) => ⟨e.store, e.output, code, none⟩
  | (.error (.crash cause), e) => ⟨e.store, e.output, 1, some cause⟩

end CronFire.CommandLine
