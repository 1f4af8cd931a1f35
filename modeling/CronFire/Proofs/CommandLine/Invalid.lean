import CronFire.CommandLine.Run
import CronFire.Proofs.Schedule.Rejected
/-!
# Runs on invalid expressions

A command that is given an expression either gets its schedule, or reports the error and exits, or
the run breaks off.  It breaks off for the sake of the expression only where reading comes to a run
of digits too long to convert: then nothing is noted and nothing printed.

Results:
* `run_bind`, `StopsOnly.bind`: how a sequence of actions goes on and stops.
* `requireSchedule_reports_iff`: the expressions that a command reads or reports.
-/
namespace CronFire

namespace CommandLine

variable {α β : Type}

/-! ## Actions in sequence -/

theorem run_bind (act : Run α) (f : α → Run β) (e : Effects) :
    (act >>= f).run e =
      match act.run e with
      | (.ok a, e) => (f a).run e
      | (.error stop, e) => (.error stop, e) := by
  show (ExceptT.bindCont f (act.run e).1 : StateM Effects _) (act.run e).2 = _
  rcases act.run e with ⟨result, after⟩
  cases result with
  | error stop => rfl
  | ok a => rfl

theorem run_bind_of_error {act : Run α} {e after : Effects} {stop : Stop}
    (h : act.run e = (.error stop, after)) (f : α → Run β) :
    (act >>= f).run e = (.error stop, after) := by
  rw [run_bind, h]

theorem exists_error_of_bind {f : α → Run β}
    (hf : ∀ a e, ∃ stop after, (f a).run e = (.error stop, after)) (act : Run α) (e : Effects) :
    ∃ stop after, (act >>= f).run e = (.error stop, after) := by
  rw [run_bind]
  rcases act.run e with ⟨stop | a, after⟩
  · exact ⟨stop, after, rfl⟩
  · exact hf a after

/-- If the action stops a run, it does so in one of some ways. -/
def StopsOnly (P : Stop → Prop) (act : Run α) : Prop :=
  ∀ e stop, (act.run e).1 = .error stop → P stop

namespace StopsOnly

variable {P Q : Stop → Prop} {act : Run α} {f : α → Run β}

theorem mono (h : StopsOnly P act) (hPQ : ∀ stop, P stop → Q stop) : StopsOnly Q act :=
  fun e stop he => hPQ stop (h e stop he)

theorem bind (h : StopsOnly P act) (hf : ∀ a, StopsOnly P (f a)) : StopsOnly P (act >>= f) := by
  intro e stop he
  rw [run_bind] at he
  rcases hact : act.run e with ⟨result, after⟩
  rw [hact] at he
  cases result with
  | error s =>
    cases he
    exact h e stop (by rw [hact])
  | ok a => exact hf a after stop he

theorem throw (stop : Stop) : StopsOnly (· = stop) (throw stop : Run α) := by
  intro e s he
  cases he
  rfl

theorem say (text : String) : StopsOnly P (say text) := by
  intro e s he
  cases he

theorem print (c : Context) (text : String) :
    StopsOnly (· = .crash .unmatchedTag) (print c text) := by
  unfold CommandLine.print
  split
  · exact .throw _
  · exact .say _

theorem note [Strays] (c : Context) (kind : NoteKind) (caller message : String) :
    StopsOnly (fun stop => ∃ fault, stop = .crash (.note fault)) (note c kind caller message) := by
  refine StopsOnly.bind (fun e s he => by cases he) fun e => ?_
  dsimp only
  split
  · rename_i fault _
    refine StopsOnly.bind (fun e s he => by cases he) fun _ => ?_
    exact (StopsOnly.throw _).mono fun _ hs => ⟨fault, hs⟩
  · intro e s he
    cases he

end StopsOnly

/-! ## The schedule of an expression -/

variable [Strays]

/-- A report of an error ends with an exit, unless the terminal does not take it. -/
theorem stopsOnly_report (c : Context) (expression message : String) (error : ExpressionError) :
    StopsOnly (· ≠ .crash .numeralTooLong) (do
      note c .log "_expression_or_exit" message
      print c ("[red]✘ Invalid expression:[/red] " ++ Text.quoted expression)
      print c ("  " ++ error.message)
      throw (.exit 1) : Run Schedule) := by
  have hprint : ∀ text, StopsOnly (· ≠ .crash .numeralTooLong) (print c text) :=
    fun text => (StopsOnly.print c text).mono fun _ hs => by rw [hs]; nofun
  refine StopsOnly.bind ?_ fun _ => StopsOnly.bind (hprint _) fun _ =>
    StopsOnly.bind (hprint _) fun _ => ?_
  · exact (StopsOnly.note c .log _ message).mono fun _ ⟨_, hs⟩ => by rw [hs]; nofun
  · exact (StopsOnly.throw (.exit 1)).mono fun _ hs => by rw [hs]; nofun

theorem run_requireSchedule_eq_tooLong_iff (c : Context) (expression : String) (e : Effects) :
    (requireSchedule c expression).run e = (.error (.crash .numeralTooLong), e) ↔
      Schedule.read expression = .error .numeralTooLong := by
  unfold requireSchedule
  split
  · rename_i s hread
    rw [hread]
    exact iff_of_false (by nofun) (by nofun)
  · rename_i hread
    exact iff_of_true rfl hread
  · rename_i error hread
    rw [hread]
    refine iff_of_false (fun hrun => ?_) (by nofun)
    exact stopsOnly_report c expression _ error e _ (congrArg Prod.fst hrun) rfl

/-- **The expressions that are read or reported.** Reading gives a schedule or reports an error
unless it comes to a run of digits too long to convert, and exactly then a command breaks off
without a note or a report. -/
theorem requireSchedule_reports_iff (expression : String) :
    (((∃ s, Schedule.read expression = .ok s) ∨
        ∃ error, error ≠ .missing ∧ Schedule.read expression = .error (.reported error)) ↔
      ¬ Schedule.IsLongExpression expression) ∧
    ∀ (c : Context) (e : Effects),
      (requireSchedule c expression).run e = (.error (.crash .numeralTooLong), e) ↔
        Schedule.IsLongExpression expression := by
  refine ⟨?_, fun c e => (run_requireSchedule_eq_tooLong_iff c expression e).trans
    Schedule.read_eq_tooLong_iff⟩
  rw [← Schedule.read_eq_tooLong_iff]
  rcases hread : Schedule.read expression with (error | _) | s
  · exact iff_of_true (.inr ⟨error, Schedule.ne_missing_of_read hread, rfl⟩) (by nofun)
  · simp
  · exact iff_of_true (.inl ⟨s, rfl⟩) (by nofun)

omit [Strays] in
/-- A minute of 4301 nines is neither read nor reported, though it is out of range. -/
theorem not_read_or_reported_nines :
    ¬ ((∃ s, Schedule.read (String.ofList (List.replicate 4301 '9') ++ " * * * *") = .ok s) ∨
      ∃ error, Schedule.read (String.ofList (List.replicate 4301 '9') ++ " * * * *") =
        .error (.reported error)) := by
  have hlong : IsLongNumeral (List.replicate 4301 '9') :=
    ⟨fun c hc => List.eq_of_mem_replicate hc ▸ by decide, by rw [List.length_replicate]; decide⟩
  rw [Schedule.read_eq_tooLong_iff.2 (Schedule.isLongExpression_of_minute hlong)]
  simp

end CommandLine

end CronFire
