import CronFire.CommandLine.Arguments
import CronFire.Text.Numeral
import CronFire.Text.Quoted
/-!
# Usage

The commands, and what the user is told who calls them wrongly or asks for help.
-/
namespace CronFire.CommandLine

inductive Command where
  | next
  | check
  deriving DecidableEq, Repr

def Command.name : Command → String
  | .next => "next"
  | .check => "check"

def Command.ofName? (name : String) : Option Command :=
  [Command.next, Command.check].find? (·.name = name)

def programName : String := "croncalc"

def versionLine : String := programName ++ " version 0.1.0\n"

/-- How the program is called, or one of its commands. -/
def callName : Option Command → String
  | none => programName
  | some command => programName ++ " " ++ command.name

def usageLine (command : Option Command) : String :=
  "Usage: " ++ callName command ++ " " ++
    (if command.isNone then "[OPTIONS] COMMAND [ARGS]..." else "[OPTIONS] [EXPRESSION]...") ++ "\n"

/-- What is wrong with a call. -/
inductive UsageFault where
  | argument (fault : ArgumentFault)
  /-- The first word is no command, but perhaps like one. -/
  | unknownCommand (name : String) (similar : List String)
  /-- There is no word. -/
  | commandMissing
  /-- The count is no integer. -/
  | countUnreadable (text : String)
  /-- The count is less than 1. -/
  | countTooSmall (count : Int)
  /-- The value of a switch names no moment. -/
  | momentUnreadable (switch : String)
  /-- The start has an offset and the end has none, or the other way round. -/
  | mixedOffsets
  deriving DecidableEq, Repr

section
variable [Strays]

/-- The names that a wrong one may be meant for, behind a sentence. -/
def suggestion : List String → String
  | [] => ""
  | [name] => " Did you mean " ++ Text.quoted name ++ "?"
  | names => " (Did you mean one of: " ++ ", ".intercalate (names.map Text.quoted) ++ "?)"

def ArgumentFault.message : ArgumentFault → String
  | .unknown name similar => "No such option " ++ Text.quoted name ++ "." ++ suggestion similar
  | .valueMissing name => "Option " ++ Text.quoted name ++ " requires an argument."
  | .valueUnwanted name => "Option " ++ Text.quoted name ++ " does not take a value."

/-- The sentence that reports a fault in a call. -/
def UsageFault.message : UsageFault → String
  | .argument fault => fault.message
  | .unknownCommand name similar =>
    "No such command " ++ Text.quoted name ++ "." ++ suggestion similar
  | .commandMissing => "Missing command."
  | .countUnreadable text =>
    "Invalid value for '--count' / '-n': " ++ Text.quoted text ++ " is not a valid integer range."
  | .countTooSmall count =>
    "Invalid value for '--count' / '-n': " ++ Text.decimal count ++ " is not in the range x>=1."
  | .momentUnreadable switch =>
    "Invalid value for '" ++ switch ++
      "': Expected a date/time such as '2024-01-03 08:00' or 'now'"
  | .mixedOffsets => "--start and --end must both have a UTC offset or both have none."

end

/-- The fault is reported below the usage line.  One in the value of a switch is not. -/
def UsageFault.showsUsage : UsageFault → Bool
  | .argument (.valueMissing _) => false
  | .argument (.valueUnwanted _) => false
  | _ => true

def UsageFault.report [Strays] (command : Option Command) (fault : UsageFault) : String :=
  (if fault.showsUsage then
    usageLine command ++ "Try '" ++ callName command ++ " --help' for help.\n\n"
  else "") ++
    "Error: " ++ fault.message ++ "\n"

def helpText (command : Option Command) : String :=
  usageLine command ++ "\n" ++
    match command with
    | none =>
      "  Compute the fire times of cron expressions.\n\nOptions:\n" ++
        "  --version      Show the version and exit.\n" ++
        "  --home TEXT    Override the home folder.\n" ++
        "  -v, --verbose  Enable verbose output\n" ++
        "  --help         Show this message and exit.\n\nCommands:\n" ++
        "  check  Check whether EXPRESSION is valid and show the allowed values.\n" ++
        "  next   Print the next fire times of EXPRESSION.\n"
    | some .next =>
      "  Print the next fire times of EXPRESSION.\n\nOptions:\n" ++
        "  -n, --count INTEGER RANGE  How many fire times to print.  [x>=1]\n" ++
        "  --start DATETIME           Search after this date/time. Default: now.\n" ++
        "  --end DATETIME             Stop at this date/time. Default: no limit.\n" ++
        "  --help                     Show this message and exit.\n"
    | some .check =>
      "  Check whether EXPRESSION is valid and show the allowed values.\n\nOptions:\n" ++
        "  --help  Show this message and exit.\n"

end CronFire.CommandLine
