import CronFire.Fire.Search
import CronFire.Schedule.Expression
/-!
# Sequences of fire times

A sequence hands out the fire times of a schedule one by one, each search starting where the
last one stopped.  It ends when the end bound is reached, when the asked-for number has been
handed out, or when a search fails, and then stays ended.

* `nextFireOf`: the next fire time of an expression.
* `ofExpression`: all fire times of an expression.
* `pull`: the next fire time and what is left of the sequence.
* `serve`: requests to several sequences, in any order.
* `toList`: all that is left.
-/
namespace CronFire

/-- The next fire time of an expression, or the end if there is none before it.  The search begins
now and ends with the calendar, unless there is a start or an end. -/
def nextFireOf (expression : Option String) (now : Moment) (start? stop? : Option Moment) :
    Except (Failure ExpressionError) (Except MixedOffsets Moment) := do
  let schedule ← Schedule.read? expression
  let start := searchStart start? now
  let stop := searchEnd stop? start
  .ok ((schedule.nextFire start stop).map (·.getD stop))

/-- What is left of a run of fire times. -/
structure FireSequence where
  schedule : Schedule
  current : Moment
  stop : Moment
  /-- How many fire times may still be handed out; without a bound if missing. -/
  remaining : Option Nat
  deriving DecidableEq, Repr

namespace FireSequence

/-- The fire times after `start` and before `stop`, at most `count` of them. -/
def start (schedule : Schedule) (start stop : Moment) (count : Option Int) : FireSequence :=
  ⟨schedule, start, stop, count.map Int.toNat⟩

/-- The fire times of an expression, at most `count` of them.  They begin after now and end with
the calendar, unless there is a start or an end. -/
def ofExpression (expression : Option String) (now : Moment) (start? stop? : Option Moment)
    (count : Option Int) : Except (Failure ExpressionError) FireSequence := do
  let schedule ← Schedule.read? expression
  let current := searchStart start? now
  .ok (start schedule current (searchEnd stop? current) count)

def ended (f : FireSequence) : FireSequence := { f with remaining := some 0 }

/-- The next fire time, if there is one, and the rest of the sequence. -/
def pull (f : FireSequence) : Except MixedOffsets (Option Moment) × FireSequence :=
  match f.remaining with
  | some 0 => (.ok none, f)
  | remaining =>
    match f.schedule.nextFire f.current f.stop with
    | .error mixed => (.error mixed, f.ended)
    | .ok none => (.ok none, f.ended)
    | .ok (some found) =>
      (.ok (some found), { f with current := found, remaining := remaining.map (· - 1) })

/-- Pulls `n` times; where nothing is left, nothing is handed out. -/
def pullMany : Nat → FireSequence → Except MixedOffsets (List (Option Moment)) × FireSequence
  | 0, f => (.ok [], f)
  | n + 1, f =>
    match f.pull with
    | (.error mixed, rest) => (.error mixed, rest)
    | (.ok found, rest) =>
      match pullMany n rest with
      | (.error mixed, rest) => (.error mixed, rest)
      | (.ok founds, rest) => (.ok (found :: founds), rest)

/-- Answers requests in turn.  Each asks one of several sequences for some fire times, and only
that one moves on. -/
def serve {ι : Type} [DecidableEq ι] (pool : ι → FireSequence) :
    List (ι × Nat) → List (ι × Except MixedOffsets (List (Option Moment)))
  | [] => []
  | (i, n) :: requests =>
    let (answer, rest) := (pool i).pullMany n
    (i, answer) :: serve (fun j => if j = i then rest else pool j) requests

/-- The fire times left, at most `n` of them. -/
def takeUpTo : Nat → FireSequence → Except MixedOffsets (List Moment)
  | 0, _ => .ok []
  | n + 1, f =>
    match f.pull with
    | (.error mixed, _) => .error mixed
    | (.ok none, _) => .ok []
    | (.ok (some found), rest) => do
      let founds ← takeUpTo n rest
      .ok (found :: founds)

/-- The seconds from the current moment to the end of the calendar. -/
def secondsLeft (f : FireSequence) : Nat :=
  ((Moment.last none).wallSeconds + 1 - f.current.wallSeconds).toNat

def toList (f : FireSequence) : Except MixedOffsets (List Moment) :=
  f.takeUpTo (f.remaining.getD f.secondsLeft)

end FireSequence

end CronFire
