import CronFire.Text.Similar
/-!
# Arguments

The arguments of a command are switches and words.  A switch is written by its name, `--count`,
or by a dash and its letter; its value, if it takes one, is the next argument, or stands in the
same one behind an equals sign or the letter.  Letters of switches without a value may share a
dash.  Behind `--` all arguments are words.

* `readArguments`: the switches that are given and the words, or what is wrong with them.
-/
namespace CronFire.CommandLine

structure Switch (κ : Type) where
  key : κ
  /-- Its name, with two dashes. -/
  name : String
  letter : Option Char := none
  takesValue : Bool := false
  deriving DecidableEq, Repr

/-- A switch that is given, with its value if it takes one. -/
structure Given (κ : Type) where
  key : κ
  value : String := ""
  deriving DecidableEq, Repr

inductive ArgumentFault where
  /-- The command knows no such switch, but perhaps similar ones. -/
  | unknown (name : String) (similar : List String)
  /-- The last argument is a switch whose value is missing. -/
  | valueMissing (name : String)
  /-- A switch has a value that takes none. -/
  | valueUnwanted (name : String)
  deriving DecidableEq, Repr

/-- The switches that are given, in order, and the words. -/
structure Arguments (κ : Type) where
  given : List (Given κ) := []
  words : List String := []
  deriving DecidableEq, Repr

namespace Arguments

variable {κ : Type}

/-- The arguments with more switches before the others. -/
def prepend (given : List (Given κ)) (a : Arguments κ) : Arguments κ :=
  { a with given := given ++ a.given }

def addWord (word : String) (a : Arguments κ) : Arguments κ := { a with words := word :: a.words }

variable [BEq κ]

/-- The value given for a switch, the last one if there are more. -/
def value? (a : Arguments κ) (key : κ) : Option String :=
  (a.given.reverse.find? (·.key == key)).map Given.value

def has (a : Arguments κ) (key : κ) : Bool := a.given.any (·.key == key)

/-- The switches that are given, each once, by their first occurrence. -/
def keys (a : Arguments κ) : List κ := (a.given.map Given.key).eraseDups

end Arguments

/-- What one argument gives: some switches, and perhaps one, by the name used, whose value is
the next argument. -/
structure Reading (κ : Type) where
  given : List (Given κ) := []
  waiting : Option (κ × String) := none
  deriving DecidableEq, Repr

section

variable {κ : Type} (switches : List (Switch κ))

def readLetters : List Char → Except ArgumentFault (Reading κ)
  | [] => .ok {}
  | c :: cs =>
    let name := String.ofList ['-', c]
    match switches.find? (·.letter = some c) with
    | none => .error (.unknown name [])
    | some s =>
      if s.takesValue then
        if cs.isEmpty then .ok { waiting := some (s.key, name) }
        else .ok { given := [⟨s.key, String.ofList cs⟩] }
      else
        (readLetters cs).map fun r => { r with given := ⟨s.key, ""⟩ :: r.given }

def readSwitch (cs : List Char) : Except ArgumentFault (Reading κ) :=
  let name := String.ofList (cs.takeWhile (· ≠ '='))
  let value := (cs.dropWhile (· ≠ '=')).tail?
  match switches.find? (·.name = name), value with
  | some s, some value =>
    if s.takesValue then .ok { given := [⟨s.key, String.ofList value⟩] }
    else .error (.valueUnwanted name)
  | some s, none =>
    if s.takesValue then .ok { waiting := some (s.key, name) } else .ok { given := [⟨s.key, ""⟩] }
  | none, _ =>
    match cs with
    | '-' :: '-' :: _ => .error (.unknown name (Text.similarNames name (switches.map Switch.name)))
    | _ => readLetters switches cs.tail

/-- The argument begins with a dash and is more than that. -/
def isSwitch (arg : String) : Bool :=
  match arg.toList with
  | '-' :: _ :: _ => true
  | _ => false

/-- Reads arguments.  If `mixed`, switches may follow words, else all arguments from the first
word on are words. -/
def readArguments (mixed : Bool) : List String → Except ArgumentFault (Arguments κ)
  | [] => .ok {}
  | arg :: args =>
    if arg = "--" then .ok { words := args }
    else if isSwitch arg then
      match readSwitch switches arg.toList with
      | .error fault => .error fault
      | .ok ⟨given, none⟩ => (readArguments mixed args).map (·.prepend given)
      | .ok ⟨given, some (key, name)⟩ =>
        match args with
        | [] => .error (.valueMissing name)
        | value :: args => (readArguments mixed args).map (·.prepend (given ++ [⟨key, value⟩]))
    else if mixed then (readArguments mixed args).map (·.addWord arg)
    else .ok { words := arg :: args }

end

end CronFire.CommandLine
