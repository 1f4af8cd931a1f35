import CronFire.CommandLine.Program
import CronFire.Proofs.CommandLine.NextRuns
import CronFire.Proofs.Fire.Sequence
/-!
# Calls and moments that have no order

A moment with an offset and one without cannot be compared.  Only the search for fire times
compares moments, and the command that searches asks first whether start and end have an order:
every candidate is on the clock of the start, so then no comparison fails.  All other actions stop
a run for other reasons, if at all.

Results:
* `Ordered.answer`: the search is never stopped.
* `crash_ne_mixedOffsets`: no call breaks off because moments have no order.
-/
namespace CronFire.CommandLine

variable {α β : Type}

/-- The action does not break off a run because moments have no order. -/
def Ordered (act : Run α) : Prop := StopsOnly (· ≠ .crash .mixedOffsets) act

namespace Ordered

variable {c : Context}

theorem bind {act : Run α} {f : α → Run β} (h : Ordered act) (hf : ∀ a, Ordered (f a)) :
    Ordered (act >>= f) := StopsOnly.bind h hf

theorem pure {a : α} : Ordered (Pure.pure a : Run α) := by
  intro e stop he
  cases he

theorem throw {stop : Stop} (h : stop ≠ .crash .mixedOffsets) :
    Ordered (MonadExcept.throw stop : Run α) :=
  (StopsOnly.throw stop).mono fun _ hs => hs ▸ h

/-- What follows a stop is not done. -/
theorem throw_bind {stop : Stop} (h : stop ≠ .crash .mixedOffsets) {f : α → Run β} :
    Ordered (MonadExcept.throw stop >>= f) := by
  intro e s he
  cases he
  exact h

theorem say {text : String} : Ordered (say text) := StopsOnly.say text

theorem print {text : String} : Ordered (print c text) :=
  (StopsOnly.print c text).mono fun _ hs => by rw [hs]; nofun

theorem stopHelp {command : Option Command} : Ordered (stopHelp command : Run α) :=
  bind say fun _ => throw (by nofun)

theorem keep {act : Store → Outcome α} : Ordered (keep act) := by
  refine bind ?reading fun e => bind ?writing fun _ => ?_
  case reading => exact fun e stop he => by cases he
  case writing => exact fun e stop he => by cases he
  split
  · exact throw (by nofun)
  · exact pure

theorem loadSettings {home : Path} : Ordered (loadSettings home) :=
  bind keep fun _ => bind keep fun _ => pure

theorem answerQuestions {a : Arguments ProgramSwitch} : Ordered (answerQuestions a) := by
  unfold CommandLine.answerQuestions
  split
  · exact bind say fun _ => throw (by nofun)
  · exact stopHelp
  · exact pure

theorem printFires {ms : List Moment} : Ordered (printFires c ms) := by
  induction ms with
  | nil => exact pure
  | cons m ms ih => exact bind print fun _ => ih

variable [Strays]

theorem note {kind : NoteKind} {caller message : String} :
    Ordered (note c kind caller message) :=
  (StopsOnly.note c kind caller message).mono fun _ ⟨_, hs⟩ => by rw [hs]; nofun

theorem stopUsage {command : Option Command} {fault : UsageFault} :
    Ordered (stopUsage command fault : Run α) :=
  bind say fun _ => throw (by nofun)

theorem orUsage {command : Option Command} {x : Except UsageFault α} :
    Ordered (orUsage command x) := by
  cases x with
  | error fault => exact stopUsage
  | ok a => exact pure

theorem requireSchedule {expression : String} : Ordered (requireSchedule c expression) := by
  unfold CommandLine.requireSchedule
  split
  · exact pure
  · exact throw (by nofun)
  · exact bind note fun _ => bind print fun _ => bind print fun _ => throw (by nofun)

/-- Nothing is compared before the start and the end are known to have an order. -/
theorem answer {r : NextRequest} {schedule : Schedule} : Ordered (answer c r schedule) := by
  unfold CommandLine.answer
  cases hordered : (r.begins c.now).comparable (r.ends c.now) with
  | false => exact stopUsage
  | true =>
    obtain ⟨fires, hfires⟩ := @FireSequence.exists_toList
      (FireSequence.start schedule (r.begins c.now) (r.ends c.now)
        (some (r.number c.settings))) hordered
    rw [hfires]
    refine bind printFires fun _ => ?_
    split
    · exact print
    · exact pure

theorem next {r : NextRequest} : Ordered (next c r) := by
  rw [next_eq]
  refine bind requireSchedule fun schedule => ?_
  split
  · exact bind print fun _ => bind note fun _ => answer
  · exact answer

theorem check {words : List String} : Ordered (check c words) := by
  simp only [CommandLine.check]
  by_cases hempty : checkedExpression c.input words = ""
  · rw [if_pos hempty]
    exact bind print fun _ => throw_bind (by nofun)
  · rw [if_neg hempty]
    refine bind requireSchedule fun schedule => bind print fun _ => ?_
    split
    · exact bind note fun _ => say
    · exact say

theorem runCommand {args : List String} {command : Command} :
    Ordered (runCommand c args command) := by
  cases command with
  | next =>
    refine bind orUsage fun a => ?_
    split
    · exact stopHelp
    · exact bind orUsage fun request => next
  | check =>
    refine bind orUsage fun a => ?_
    split
    · exact stopHelp
    · exact check

theorem program (s : Surroundings) (args : List String) : Ordered (program s args) := by
  unfold CommandLine.program
  split
  · exact bind say fun _ => throw (by nofun)
  · refine bind orUsage fun a => bind answerQuestions fun _ => ?_
    split
    · exact stopUsage
    · split
      · exact bind orUsage fun _ => bind answerQuestions fun _ => stopUsage
      · exact bind loadSettings fun settings => runCommand

end Ordered

/-- **No call breaks off because moments have no order.** -/
theorem crash_ne_mixedOffsets [Strays] (s : Surroundings) (store : Store) (args : List String) :
    (run s store args).crash ≠ some .mixedOffsets := by
  have hordered := Ordered.program s args { store }
  have hrun : (program s args).run.run { store } = (program s args).run { store } := rfl
  rw [run, hrun]
  rcases hact : (program s args).run { store } with ⟨(code | cause) | u, after⟩
  · simp
  · rw [hact] at hordered
    have hne := hordered _ rfl
    simpa using hne
  · simp

end CronFire.CommandLine
