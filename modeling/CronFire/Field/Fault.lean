import CronFire.Text.Numeral
/-!
# Faults in a field's token

What can be wrong with a token, one constructor for each cause, and the sentence that tells
the user.  A run of digits too long to convert is no fault of this kind: nothing is reported
for it, and reading ends at once.
-/
namespace CronFire

inductive Fault where
  /-- The part, or the whole token, is missing or blank. -/
  | emptyPart
  /-- The part begins with a slash. -/
  | nothingBeforeSlash (part : String)
  /-- The text after the slash is not a run of digits. -/
  | badStep (step : String)
  /-- A value, or an end of a range, is missing or blank. -/
  | missingValue
  /-- The text begins with a digit and goes on with something else. -/
  | notANumber (text : String)
  /-- The number lies outside the domain. -/
  | outOfRange (value : Nat) (minimum maximum : Int)
  /-- The text is no number, and the domain has no names. -/
  | notAValue (text : String) (minimum maximum : Int)
  /-- No name of the domain begins with the text. -/
  | unknownName (text : String) (names : List String)
  /-- A single value has a step other than 0 and 1. -/
  | stepWithoutRange (value : String) (step : Nat)
  deriving DecidableEq, Repr

/-- The three kinds of fault that a caller may want to tell apart. -/
inductive FaultKind where
  | malformed
  | outOfRange
  | unknownName
  deriving DecidableEq, Repr

namespace Fault

/-- The kind of a fault: malformed, unless a number or a name is to blame. -/
def kind : Fault → FaultKind
  | .outOfRange .. => .outOfRange
  | .unknownName .. => .unknownName
  | _ => .malformed

def message : Fault → String
  | .emptyPart => "empty token"
  | .nothingBeforeSlash part => "\"" ++ part ++ "\" has no value before \"/\""
  | .badStep step =>
    "\"" ++ step ++ "\" is not a valid step; it must be a non-negative integer"
  | .missingValue => "missing value"
  | .notANumber text => "\"" ++ text ++ "\" is not a number"
  | .outOfRange value minimum maximum =>
    Text.decimal value ++ " is out of [" ++ Text.decimal minimum ++ ", " ++
      Text.decimal maximum ++ "]"
  | .notAValue text minimum maximum =>
    "\"" ++ text ++ "\" is not a valid crontab field value. It must be a numeric value between " ++
      Text.decimal minimum ++ " and " ++ Text.decimal maximum ++ " (all inclusive)."
  | .unknownName text names =>
    "\"" ++ text ++ "\" is not a known value name. Use one of the following: " ++
      ", ".intercalate names ++ "."
  | .stepWithoutRange value step =>
    "\"" ++ value ++ "/" ++ Text.decimal step ++ "\" has a step but no range; use \"a-b/" ++
      Text.decimal step ++ "\" or \"*/" ++ Text.decimal step ++ "\""

end Fault

/-- How reading ends when it gives no value. -/
inductive Failure (ε : Type) where
  /-- With an error that is reported to the user. -/
  | reported (error : ε)
  /-- At a run of digits longer than `Text.digitLimit`, without a report. -/
  | numeralTooLong
  deriving DecidableEq, Repr

def Failure.map {ε δ : Type} (f : ε → δ) : Failure ε → Failure δ
  | .reported error => .reported (f error)
  | .numeralTooLong => .numeralTooLong

end CronFire
