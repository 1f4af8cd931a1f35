import CronFire.CommandLine.Program
import CronFire.Proofs.CommandLine.Invalid
/-!
# Calls of commands

A call whose switches can be read and ask for nothing else comes to its command, once the settings
are loaded, and what comes of the command comes of the call.

Results:
* `CommandCall.run_program`: a call comes to the command.
* `run_eq_of_ok`, `run_eq_of_exit`, `run_eq_of_crash`: what comes of a call.
-/
namespace CronFire.CommandLine

variable [Strays]

/-- A call of a command that asks neither for help on the program nor for its version, and whose
settings are loaded. -/
structure CommandCall (s : Surroundings) (store : Store) (args : List String) where
  /-- The switches of the program, and the command with its arguments as words. -/
  outer : Arguments ProgramSwitch
  command : Command
  /-- The arguments of the command as they stand. -/
  rest : List String
  settings : Settings
  /-- What has been done once the settings are loaded. -/
  loaded : Effects
  outer_eq : readArguments programSwitches false args = .ok outer
  words_eq : outer.words = command.name :: rest
  asksNothing : ∀ key ∈ outer.keys, key ≠ .version ∧ key ≠ .help
  loads : (loadSettings (homeOf s.environment outer)).run { store } = (.ok settings, loaded)

namespace CommandCall

variable {s : Surroundings} {store : Store} {args : List String}

/-- What the command is given besides its arguments. -/
def context (q : CommandCall s store args) : Context :=
  { s with
    home := homeOf s.environment q.outer
    settings := q.settings
    verbose := q.outer.has .verbose }

/-- The call comes to the command. -/
theorem run_program (q : CommandCall s store args) :
    (program s args).run { store } = (runCommand q.context q.rest q.command).run q.loaded := by
  have hargs : args.isEmpty = false := by
    rw [List.isEmpty_eq_false_iff]
    rintro rfl
    have hread : {} = q.outer := Except.ok.inj q.outer_eq
    have hwords := q.words_eq
    rw [← hread] at hwords
    cases hwords
  have houter : readCall none programSwitches args = pure q.outer := by
    rw [readCall, show (none : Option Command).isSome = false from rfl, q.outer_eq]
    rfl
  have hasks : answerQuestions q.outer = pure () := by
    have hnone : q.outer.keys.find? (fun key => key = .version || key = .help) = none := by
      rw [List.find?_eq_none]
      intro key hkey
      simpa using q.asksNothing key hkey
    rw [answerQuestions, hnone]
  have hcommand : Command.ofName? q.command.name = some q.command := by
    cases q.command <;> decide
  simp only [program, hargs, houter, pure_bind, hasks, q.words_eq, hcommand]
  simp only [Bool.false_eq_true, if_false]
  rw [run_bind, q.loads]
  rfl

end CommandCall

/-! ## What comes of a call -/

section
variable {s : Surroundings} {store : Store} {args : List String} {e : Effects}

theorem run_eq_of_ok (h : (program s args).run { store } = (.ok (), e)) :
    run s store args = ⟨e.store, e.output, 0, none⟩ := by
  have hrun : (program s args).run.run { store } = (.ok (), e) := h
  rw [run, hrun]

theorem run_eq_of_exit {code : Nat}
    (h : (program s args).run { store } = (.error (.exit code), e)) :
    run s store args = ⟨e.store, e.output, code, none⟩ := by
  have hrun : (program s args).run.run { store } = (.error (.exit code), e) := h
  rw [run, hrun]

theorem run_eq_of_crash {cause : Crash}
    (h : (program s args).run { store } = (.error (.crash cause), e)) :
    run s store args = ⟨e.store, e.output, 1, some cause⟩ := by
  have hrun : (program s args).run.run { store } = (.error (.crash cause), e) := h
  rw [run, hrun]

end

end CronFire.CommandLine
