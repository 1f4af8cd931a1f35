import CronFire.Schedule.Basic
/-!
# Expressions

An expression is five or six words between blanks.  The words name, from the right, the day of
week, the month, the day of month, the hour, the minute and the second; a missing sixth word
is a second of 0.  Fields are read from the right as well, so of several faults the rightmost
is reported.
-/
namespace CronFire

inductive ExpressionError where
  /-- There is no expression. -/
  | missing
  /-- The expression has fewer than five or more than six words. -/
  | wordCount (count : Nat) (expression : String)
  /-- A field's token has a fault. -/
  | field (kind : FieldKind) (error : FieldError)
  deriving DecidableEq, Repr

def ExpressionError.message [Strays] : ExpressionError → String
  | .missing => "expression must not be None"
  | .wordCount count expression =>
    "expression must contain 5 or 6 tokens (actual " ++ Text.decimal count ++ " : " ++
      Text.quoted expression ++ ")"
  | .field kind error => kind.label ++ ": " ++ error.message

def FieldKind.read (kind : FieldKind) (token : Option String) :
    Except (Failure ExpressionError) Field :=
  match Field.read kind.domain token with
  | .error failure => .error (failure.map (ExpressionError.field kind))
  | .ok field => .ok field

/-- The word for the second when an expression has only five. -/
def defaultSecond : String := "0"

/-- Reads six words in the order of the kinds, the last word first. -/
def Schedule.ofWords (second minute hour dayOfMonth month dayOfWeek : String) :
    Except (Failure ExpressionError) Schedule := do
  let dayOfWeek ← FieldKind.dayOfWeek.read dayOfWeek
  let month ← FieldKind.month.read month
  let dayOfMonth ← FieldKind.dayOfMonth.read dayOfMonth
  let hour ← FieldKind.hour.read hour
  let minute ← FieldKind.minute.read minute
  let second ← FieldKind.second.read second
  .ok { second, minute, hour, dayOfMonth, month, dayOfWeek }

def expressionWords (expression : String) : List String :=
  (Text.words expression.toList).map String.ofList

def Schedule.read (expression : String) : Except (Failure ExpressionError) Schedule :=
  match expressionWords expression with
  | [minute, hour, dayOfMonth, month, dayOfWeek] =>
    Schedule.ofWords defaultSecond minute hour dayOfMonth month dayOfWeek
  | [second, minute, hour, dayOfMonth, month, dayOfWeek] =>
    Schedule.ofWords second minute hour dayOfMonth month dayOfWeek
  | words => .error (.reported (.wordCount words.length expression))

def Schedule.read? : Option String → Except (Failure ExpressionError) Schedule
  | none => .error (.reported .missing)
  | some expression => Schedule.read expression

end CronFire
