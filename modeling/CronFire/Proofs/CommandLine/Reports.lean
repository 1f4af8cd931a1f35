import CronFire.Proofs.CommandLine.Regrouped
import CronFire.Proofs.Journal.Calls
import CronFire.Proofs.Schedule.Messages
import CronFire.Proofs.Terminal.Bare
/-!
# How invalid expressions are reported

Both commands note an invalid expression before they print what is wrong with it, and print it
through the markup of the terminal.  So the report is lost on a terminal that has no room for a
note, and for an expression that cannot be encoded, and it is not what the user wrote where that
reads as markup or as an emoji code.  In all other cases the call ends with an exit code, one entry
is noted, and both lines of the report stand on the screen word for word.

Results:
* `run_requireSchedule_iff`: when a report is complete.
* `run_reports_iff`: the same for whole calls.
* `not_run_reports_bracketed`: names in brackets are lost.
-/
namespace CronFire.CommandLine

open Terminal (PlainBlanks Kept ShownAs Verbatim colons ink printed)
open Markup (IsTagName)
open Text (isEncodable)

/-! ## What is reported -/

section
variable [Strays]

/-- The line that says that an expression is invalid. -/
def verdict (expression : String) : String := "✘ Invalid expression: " ++ Text.quoted expression

/-- The line that says why. -/
def reason (error : ExpressionError) : String := "  " ++ error.message

/-- The note of an invalid expression. -/
def rejection (c : Context) (expression : String) (error : ExpressionError) : Journal.Call :=
  { now := c.now
    note :=
      { kind := .log
        caller := "_expression_or_exit"
        message := "invalid expression " ++ Text.quoted expression ++ ": " ++ error.message } }

/-- An invalid expression is reported between two moments of a run: one entry is appended to the
log file of the day, or printed if that file does not admit it, and then both lines are shown as
they stand. -/
def Reported (c : Context) (expression : String) (error : ExpressionError)
    (before after : Effects) : Prop :=
  ∃ entry noted first second,
    Journal.entryText c.now c.columns (rejection c expression error).note = .ok entry ∧
    (Journal.Written c.home (rejection c expression error) entry before.store after.store noted ∨
      Journal.Diverted c.home (rejection c expression error) entry before.store after.store noted) ∧
    after.output = before.output ++ noted ++ first ++ second ∧
    ShownAs c.columns (verdict expression).toList first ∧
    ShownAs c.columns (reason error).toList second

/-- The terminal has room for a note, which can be encoded and whose path reaches a file or is
refused, and the terminal takes what is reported for itself. -/
structure Reportable (c : Context) (found : Store) (expression : String)
    (error : ExpressionError) : Prop where
  wide : Journal.margin < c.columns
  encodable : isEncodable error.message = true
  path : Journal.Reaches found ((rejection c expression error).path c.home) ∨
    Journal.Refuses found ((rejection c expression error).path c.home)
  expression : Verbatim c.emoji (Text.quoted expression).toList
  message : Verbatim c.emoji error.message.toList
  kept : Kept error.message.toList

theorem fits_rejection_iff {c : Context} {found : Store} {expression : String}
    {error : ExpressionError} : (rejection c expression error).Fits c.home found ↔
      isEncodable error.message = true ∧
      (Journal.Reaches found ((rejection c expression error).path c.home) ∨
        Journal.Refuses found ((rejection c expression error).path c.home)) := by
  have hcaller : isEncodable "_expression_or_exit" = true := Text.isEncodable_of_low (by decide)
  have hstart : isEncodable "invalid expression " = true := Text.isEncodable_of_low (by decide)
  have hcolon : isEncodable ": " = true := Text.isEncodable_of_low (by decide)
  have hmessage : isEncodable (rejection c expression error).note.message =
      isEncodable error.message := by
    simp [rejection, Text.isEncodable_append, hstart, hcolon, isEncodable_quoted]
  exact ⟨fun h => ⟨hmessage ▸ h.message, h.path⟩, fun h => ⟨hcaller, hmessage.trans h.1, h.2⟩⟩

/-! ## Printing -/

theorem strip_verdict (emoji : Terminal.Emoji) (expression : String) :
    Markup.strip emoji.replace
        ("[red]✘ Invalid expression:[/red] " ++ Text.quoted expression).toList =
      (Markup.strip emoji.replace (' ' :: (Text.quoted expression).toList)).map
        ("✘ Invalid expression:".toList ++ ·) := by
  have hname : IsTagName "red".toList :=
    ⟨by decide, by decide, by decide, by decide, by decide, by decide⟩
  have htags : "[red]✘ Invalid expression:[/red] ".toList =
      '[' :: "red".toList ++ ']' :: ("✘ Invalid expression:".toList ++
        ('[' :: ('/' :: "red".toList) ++ [']', ' '])) := by decide
  have hopening : '[' ∉ "✘ Invalid expression:".toList := by decide
  have hcodes : emoji.replace "✘ Invalid expression:".toList = "✘ Invalid expression:".toList :=
    Terminal.Emoji.replace_of_colons_le_one (by decide)
  have hnil : emoji.replace [] = [] := rfl
  have hstrip := Markup.strip_tagged_append hnil hname hopening (by decide)
    (' ' :: (Text.quoted expression).toList)
  rw [hcodes] at hstrip
  rw [String.toList_append, htags, ← hstrip]
  simp only [List.cons_append, List.append_assoc, List.nil_append]

theorem strip_reason (emoji : Terminal.Emoji) (error : ExpressionError) :
    Markup.strip emoji.replace (reason error).toList =
      (Markup.strip emoji.replace (' ' :: ' ' :: error.message.toList)).map ([] ++ ·) := by
  have hreason : (reason error).toList = ' ' :: ' ' :: error.message.toList :=
    String.toList_append
  rw [hreason]
  cases Markup.strip emoji.replace (' ' :: ' ' :: error.message.toList) <;> rfl

section
variable {c : Context} {kind : NoteKind} {caller message : String} {e : Effects} {store : Store}

theorem run_note {noted : String}
    (h : Journal.record c.home c.now c.columns e.store { kind, caller, message } =
      (store, .ok noted)) :
    (note c kind caller message).run e = (.ok (), { store, output := e.output ++ noted }) := by
  have hget : (get : Run Effects).run e = (.ok e, e) := rfl
  rw [note, run_bind, hget]
  simp only [h]
  rfl

theorem run_note_of_error {fault : NoteFault}
    (h : Journal.record c.home c.now c.columns e.store { kind, caller, message } =
      (store, .error fault)) :
    (note c kind caller message).run e = (.error (.crash (.note fault)), { e with store }) := by
  have hget : (get : Run Effects).run e = (.ok e, e) := rfl
  rw [note, run_bind, hget]
  simp only [h]
  rfl

variable {α : Type} {f : Unit → Run α} {code : Nat} {after : Effects}

/-- A run exits behind a note exactly if the note is made. -/
theorem run_note_bind_eq_exit_iff :
    (note c kind caller message >>= f).run e = (.error (.exit code), after) ↔
      ∃ store noted, Journal.record c.home c.now c.columns e.store { kind, caller, message } =
          (store, .ok noted) ∧
        (f ()).run { store, output := e.output ++ noted } = (.error (.exit code), after) := by
  rw [run_bind]
  rcases hrecord : Journal.record c.home c.now c.columns e.store { kind, caller, message } with
    ⟨store, fault | noted⟩
  · rw [run_note_of_error hrecord]
    refine iff_of_false (fun hrun => by cases hrun) ?_
    rintro ⟨_, _, ⟨⟩, _⟩
  · rw [run_note hrecord]
    simp

omit [Strays] in
/-- A run exits behind a text exactly if the text is printed. -/
theorem run_print_bind_eq_exit_iff {text : String} :
    (print c text >>= f).run e = (.error (.exit code), after) ↔
      ∃ shown, printed c.emoji c.columns text = .ok shown ∧
        (f ()).run { e with output := e.output ++ shown } = (.error (.exit code), after) := by
  rw [run_bind]
  cases h : printed c.emoji c.columns text with
  | error unmatched =>
    have hprint : (print c text).run e = (.error (.crash .unmatchedTag), e) := by
      rw [print, h]
      rfl
    rw [hprint]
    refine iff_of_false (fun hrun => by cases hrun) ?_
    rintro ⟨_, ⟨⟩, _⟩
  | ok shown =>
    rw [run_print h]
    simp

end

/-! ## Reporting -/

section
variable {c : Context} {expression : String} {error : ExpressionError} {e after : Effects}

theorem toList_verdict (expression : String) : (verdict expression).toList =
    "✘ Invalid expression:".toList ++ ' ' :: (Text.quoted expression).toList := by
  have hfront : "✘ Invalid expression: ".toList = "✘ Invalid expression:".toList ++ [' '] := by
    decide
  have hverdict : (verdict expression).toList =
      "✘ Invalid expression: ".toList ++ (Text.quoted expression).toList := String.toList_append
  rw [hverdict, hfront, List.append_assoc, List.singleton_append]

theorem toList_reason (error : ExpressionError) :
    (reason error).toList = [] ++ ' ' :: ' ' :: error.message.toList := String.toList_append

theorem plainBlanks_verdict (expression : String) :
    PlainBlanks ("✘ Invalid expression:".toList ++ ' ' :: (Text.quoted expression).toList) :=
  PlainBlanks.append (by decide)
    (List.forall_mem_cons.2 ⟨fun _ => rfl, plainBlanks_quoted expression⟩)

theorem plainBlanks_reason (hread : Schedule.read expression = .error (.reported error)) :
    PlainBlanks ([] ++ ' ' :: ' ' :: error.message.toList) :=
  List.forall_mem_cons.2 ⟨fun _ => rfl,
    List.forall_mem_cons.2 ⟨fun _ => rfl, Schedule.plainBlanks_message hread⟩⟩

/-- A report ends with an exit exactly if an entry can be made and both lines can be printed. -/
theorem run_requireSchedule_eq_exit_iff
    (hread : Schedule.read expression = .error (.reported error)) :
    (requireSchedule c expression).run e = (.error (.exit 1), after) ↔
      ∃ store noted first second,
        Journal.record c.home c.now c.columns e.store (rejection c expression error).note =
          (store, .ok noted) ∧
        printed c.emoji c.columns
          ("[red]✘ Invalid expression:[/red] " ++ Text.quoted expression) = .ok first ∧
        printed c.emoji c.columns (reason error) = .ok second ∧
        after = ⟨store, e.output ++ noted ++ first ++ second⟩ := by
  have hrequire : requireSchedule c expression = (do
      note c .log "_expression_or_exit"
        ("invalid expression " ++ Text.quoted expression ++ ": " ++ error.message)
      print c ("[red]✘ Invalid expression:[/red] " ++ Text.quoted expression)
      print c (reason error)
      throw (.exit 1)) := by
    rw [requireSchedule, hread]
    rfl
  have hexit : ∀ e, (throw (.exit 1) : Run Schedule).run e = (.error (.exit 1), after) ↔
      after = e := by
    intro e
    constructor
    · intro hrun
      cases hrun
      rfl
    · rintro rfl
      rfl
  simp only [hrequire, run_note_bind_eq_exit_iff, run_print_bind_eq_exit_iff, hexit]
  constructor
  · rintro ⟨store, noted, hrecord, first, hfirst, second, hsecond, rfl⟩
    exact ⟨store, noted, first, second, hrecord, hfirst, hsecond, rfl⟩
  · rintro ⟨store, noted, first, second, hrecord, hfirst, hsecond, rfl⟩
    exact ⟨store, noted, hrecord, first, hfirst, second, hsecond, rfl⟩

/-- What shows of a report shows on the first line and on the second, so each shows in full. -/
theorem reportable_of_reported (hread : Schedule.read expression = .error (.reported error))
    (hrun : (requireSchedule c expression).run e = (.error (.exit 1), after))
    (hreported : Reported c expression error e after) :
    Reportable c e.store expression error := by
  obtain ⟨store, noted, first, second, hrecord, hfirst, hsecond, rfl⟩ :=
    (run_requireSchedule_eq_exit_iff hread).1 hrun
  obtain ⟨entry, noted', first', second', hentry, hnoted', houtput, hfirst', hsecond'⟩ := hreported
  have hwide : Journal.margin < c.columns := (Journal.entryText_eq_ok_iff.1 hentry).1
  have hcolumns : 2 ≤ c.columns := Nat.le_trans (by decide) hwide
  obtain ⟨hfits, store', noted'', hrecord', hnoted⟩ := by
    refine (Journal.record_cases (c := rejection c expression error) c.home e.store
      hentry).resolve_right ?_
    rintro ⟨-, store', hfailed⟩
    cases hrecord.symm.trans hfailed
  obtain ⟨rfl, hnoted''⟩ := Prod.mk.inj (hrecord.symm.trans hrecord')
  obtain rfl := Except.ok.inj hnoted''
  obtain rfl := Journal.printed_eq_of_noted hnoted hnoted'
  have hshown : first ++ second = first' ++ second' := by
    simpa only [String.append_assoc, String.append_right_inj] using houtput
  have hcolons := congrArg (fun text : String => colons text.toList) hshown
  have hink := congrArg (fun text : String => ink text.toList) hshown
  simp only [String.toList_append, Terminal.colons_append, Terminal.ink_append] at hcolons hink
  rw [hfirst'.colons_eq, hsecond'.colons_eq, toList_verdict, toList_reason] at hcolons
  rw [hfirst'.ink_eq, hsecond'.ink_eq, toList_verdict, toList_reason] at hink
  -- no colon is lost on either line, so there is no picture; then nothing else is lost
  have hverdict := Terminal.colons_printed_le hcolumns (strip_verdict c.emoji expression)
    (plainBlanks_verdict expression) hfirst
  have hreason := Terminal.colons_printed_le hcolumns (strip_reason c.emoji error)
    (plainBlanks_reason hread) hsecond
  have hverdictInk := Terminal.ink_printed_le hcolumns (strip_verdict c.emoji expression)
    (plainBlanks_verdict expression) hfirst (by omega)
  have hreasonInk := Terminal.ink_printed_le hcolumns (strip_reason c.emoji error)
    (plainBlanks_reason hread) hsecond (by omega)
  obtain ⟨hexpression, -⟩ := Terminal.verbatim_of_le_ink hcolumns
    (strip_verdict c.emoji expression) (plainBlanks_verdict expression) hfirst (by omega) (by omega)
  obtain ⟨hmessage, hkept⟩ := Terminal.verbatim_of_le_ink hcolumns (strip_reason c.emoji error)
    (plainBlanks_reason hread) hsecond (by omega) (by omega)
  obtain ⟨hencodable, hpath⟩ := fits_rejection_iff.1 hfits
  exact
    { wide := hwide
      encodable := hencodable
      path := hpath
      expression := Terminal.verbatim_blank.1 hexpression
      message := Terminal.verbatim_blank.1 (Terminal.verbatim_blank.1 hmessage)
      kept := fun ch hch => hkept ch (List.mem_cons_of_mem _ (List.mem_cons_of_mem _ hch)) }

/-- A report is complete exactly if the terminal has room for the note, the note can be made, and
the terminal takes both lines for what they are. -/
theorem run_requireSchedule_iff (hread : Schedule.read expression = .error (.reported error)) :
    (∃ after, (requireSchedule c expression).run e = (.error (.exit 1), after) ∧
      Reported c expression error e after) ↔ Reportable c e.store expression error := by
  constructor
  · rintro ⟨after, hrun, hreported⟩
    exact reportable_of_reported hread hrun hreported
  · intro h
    have hcolumns : 2 ≤ c.columns := Nat.le_trans (by decide) h.wide
    obtain ⟨entry, hentry⟩ :=
      Journal.exists_entryText h.wide c.now (rejection c expression error).note
    obtain ⟨-, store, noted, hrecord, hnoted⟩ :=
      (Journal.record_cases (c := rejection c expression error) c.home e.store hentry).resolve_right
        fun hx => hx.1 (fits_rejection_iff.2 ⟨h.encodable, h.path⟩)
    have hblank : ∀ {cs}, Kept cs → Kept (' ' :: cs) := fun hcs =>
      List.forall_mem_cons.2 ⟨by decide, hcs⟩
    obtain ⟨first, hfirst, hverdict⟩ := Terminal.exists_shownAs hcolumns
      (strip_verdict c.emoji expression) (plainBlanks_verdict expression) (by decide)
      (Terminal.verbatim_blank.2 h.expression) (hblank (kept_quoted expression))
    obtain ⟨second, hsecond, hreason⟩ := Terminal.exists_shownAs hcolumns
      (strip_reason c.emoji error) (plainBlanks_reason hread) (List.forall_mem_nil _)
      (Terminal.verbatim_blank.2 (Terminal.verbatim_blank.2 h.message)) (hblank (hblank h.kept))
    rw [← toList_verdict] at hverdict
    rw [← toList_reason] at hreason
    exact ⟨_, (run_requireSchedule_eq_exit_iff hread).2
      ⟨store, noted, first, second, hrecord, hfirst, hsecond, rfl⟩,
      entry, noted, first, second, hentry, hnoted, rfl, hverdict, hreason⟩

end

/-! ## Whole calls -/

section
variable {c : Context} {rest words : List String} {expression : String} {command : Command}
  {e after : Effects} {stop : Stop}

/-- The arguments of a command can be read and ask for no help, and they name an expression, or
leave it to the settings or to standard input. -/
def Takes (c : Context) (rest : List String) (expression : String) : Command → Prop
  | .next => ∃ a request, readArguments nextSwitches true rest = .ok a ∧ a.has .help = false ∧
      NextRequest.ofArguments c.toSurroundings a = .ok request ∧
      request.subject c.settings = expression
  | .check => ∃ a, readArguments checkSwitches true rest = .ok a ∧ a.has .help = false ∧
      checkedExpression c.input a.words = expression ∧ expression ≠ ""

omit [Strays] in
/-- Words name the expression that they are joined to, unless they are blank. -/
theorem takes_words (words : List String) (h : ∀ word ∈ words, word.toList.head? ≠ some '-')
    (hsome : joinWords words ≠ "") : Takes c words (joinWords words) command := by
  cases command with
  | next =>
    exact ⟨_, { expression := joinWords words }, readArguments_spread (spread_words h), rfl, rfl,
      if_neg hsome⟩
  | check =>
    refine ⟨_, readArguments_spread (spread_words h), rfl, ?_, hsome⟩
    cases words with
    | nil => exact absurd (by decide) hsome
    | cons word words => rfl

/-- A command stops where its expression stops it. -/
theorem run_runCommand_of_error (htakes : Takes c rest expression command)
    (h : (requireSchedule c expression).run e = (.error stop, after)) :
    (runCommand c rest command).run e = (.error stop, after) := by
  cases command with
  | next =>
    obtain ⟨a, request, hread, hhelp, hrequest, rfl⟩ := htakes
    have hcall : readCall (some .next) nextSwitches rest = pure a := by
      rw [readCall, show (some Command.next).isSome = true from rfl, hread]
      rfl
    simp only [runCommand, hcall, pure_bind, hhelp, hrequest]
    exact run_bind_of_error h _
  | check =>
    obtain ⟨a, hread, hhelp, rfl, hsome⟩ := htakes
    have hcall : readCall (some .check) checkSwitches rest = pure a := by
      rw [readCall, show (some Command.check).isSome = true from rfl, hread]
      rfl
    simp only [runCommand, hcall, pure_bind, hhelp, check, if_neg hsome]
    exact run_bind_of_error h _

/-- An expression that cannot be read stops a run. -/
theorem exists_run_requireSchedule {failure : Failure ExpressionError}
    (hread : Schedule.read expression = .error failure) (c : Context) (e : Effects) :
    ∃ stop after, (requireSchedule c expression).run e = (.error stop, after) := by
  rw [requireSchedule, hread]
  cases failure with
  | numeralTooLong => exact ⟨_, e, rfl⟩
  | reported error =>
    exact exists_error_of_bind (fun _ => exists_error_of_bind (fun _ =>
      exists_error_of_bind (fun _ e => ⟨_, e, rfl⟩) _) _) _ e

end

section
variable {s : Surroundings} {store : Store} {args : List String} {expression : String}
  {error : ExpressionError}

/-- A call stops where its expression stops it. -/
theorem run_program_of_error (q : CommandCall s store args)
    (htakes : Takes q.context q.rest expression q.command) {stop : Stop} {after : Effects}
    (h : (requireSchedule q.context expression).run q.loaded = (.error stop, after)) :
    (program s args).run { store } = (.error stop, after) :=
  q.run_program.trans (run_runCommand_of_error htakes h)

/-- A call reports an error: it ends with an exit code, and what it did once the settings were
loaded is the report. -/
structure Reports (q : CommandCall s store args) (expression : String) (error : ExpressionError) :
    Prop where
  code : (run s store args).code = 1
  crash : (run s store args).crash = none
  reported : Reported q.context expression error q.loaded
    ⟨(run s store args).store, (run s store args).output⟩

/-- What comes of a call comes of its expression. -/
theorem reports_iff (q : CommandCall s store args)
    (htakes : Takes q.context q.rest expression q.command)
    (hread : Schedule.read expression = .error (.reported error)) :
    Reports q expression error ↔ ∃ after,
      (requireSchedule q.context expression).run q.loaded = (.error (.exit 1), after) ∧
        Reported q.context expression error q.loaded after := by
  obtain ⟨stop, after, hstop⟩ := exists_run_requireSchedule hread q.context q.loaded
  have hprogram := run_program_of_error q htakes hstop
  cases stop with
  | exit code =>
    have hrun := run_eq_of_exit hprogram
    constructor
    · rintro ⟨hcode, -, hreported⟩
      rw [hrun] at hcode hreported
      obtain rfl : code = 1 := hcode
      exact ⟨after, hstop, hreported⟩
    · rintro ⟨after', hstop', hreported⟩
      cases hstop.symm.trans hstop'
      exact ⟨by rw [hrun], by rw [hrun], by rwa [hrun]⟩
  | crash cause =>
    have hrun := run_eq_of_crash hprogram
    constructor
    · rintro ⟨-, hcrash, -⟩
      rw [hrun] at hcrash
      cases hcrash
    · rintro ⟨after', hstop', -⟩
      cases hstop.symm.trans hstop'

/-- **How an invalid expression is reported.** A call whose settings are loaded and whose arguments
name an invalid expression ends with exit code 1, notes one entry and shows both lines of the
report as they stand, exactly if the terminal has room for the note, the note can be encoded, the
expression in quotes and the message hold no markup and no emoji code, and no character of the
message is one that is not printed. -/
theorem run_reports_iff (q : CommandCall s store args)
    (htakes : Takes q.context q.rest expression q.command)
    (hread : Schedule.read expression = .error (.reported error)) :
    Reports q expression error ↔ Reportable q.context q.loaded.store expression error :=
  (reports_iff q htakes hread).trans (run_requireSchedule_iff hread)

end

/-- A call of a command with one word. -/
def newYearWord (command : Command) (word : String) :
    CommandCall newYear freshHome [command.name, word] where
  outer := { words := [command.name, word] }
  command
  rest := [word]
  settings := {}
  loaded := { store := freshHome }
  outer_eq := @readArguments_front _ programSwitches [] (List.forall_mem_nil _) command.name
    (by cases command <;> decide) [word]
  words_eq := rfl
  asksNothing := by simp [Arguments.keys]
  loads := run_loadSettings_freshHome

end

attribute [local instance] Strays.none

/-- There is no thirteenth month. -/
def thirteenth : ExpressionError := .field .month ⟨some "13", .outOfRange 13 1 12⟩

/-- Both commands report that there is no thirteenth month. -/
theorem run_reports_iff_newYear :
    Reports (newYearWord .next "0 0 1 13 *") "0 0 1 13 *" thirteenth ∧
      Reports (newYearWord .check "0 0 1 13 *") "0 0 1 13 *" thirteenth := by
  have hread : Schedule.read "0 0 1 13 *" = .error (.reported thirteenth) := by decide +kernel
  have htakes : ∀ c command, Takes c ["0 0 1 13 *"] "0 0 1 13 *" command := fun _ _ =>
    takes_words ["0 0 1 13 *"] (by decide) (by decide)
  have hboth : ∀ command, Reports (newYearWord command "0 0 1 13 *") "0 0 1 13 *" thirteenth :=
    fun command => (run_reports_iff _ (htakes _ command) hread).2
      { wide := (by decide : Journal.margin < 80)
        encodable := Text.isEncodable_of_none _
        path := Journal.reaches_or_refuses (List.all_eq_true.2 fun _ _ => Text.isNamable_of_none _)
        expression := (by decide +kernel :
          Verbatim .none (Text.quoted "0 0 1 13 *").toList)
        message := (by decide +kernel : Verbatim .none thirteenth.message.toList)
        kept := by decide +kernel }
  exact ⟨hboth .next, hboth .check⟩

/-- The day of week in brackets is not known. -/
def bracketed : ExpressionError :=
  .field .dayOfWeek ⟨some "[mon-fri]", .unknownName "[mon" FieldKind.dayOfWeek.domain.names⟩

/-- A name in brackets is a tag to the terminal, and the report loses it. -/
theorem not_run_reports_bracketed :
    Schedule.read "0 9 * * [mon-fri]" = .error (.reported bracketed) ∧
      ¬ Reports (newYearWord .next "0 9 * * [mon-fri]") "0 9 * * [mon-fri]" bracketed ∧
      ¬ Reports (newYearWord .check "0 9 * * [mon-fri]") "0 9 * * [mon-fri]" bracketed := by
  have hread : Schedule.read "0 9 * * [mon-fri]" = .error (.reported bracketed) := by
    decide +kernel
  have htakes : ∀ c command, Takes c ["0 9 * * [mon-fri]"] "0 9 * * [mon-fri]" command :=
    fun _ _ => takes_words ["0 9 * * [mon-fri]"] (by decide) (by decide)
  have hquoted : ¬ Verbatim .none (Text.quoted "0 9 * * [mon-fri]").toList := by decide +kernel
  have hneither : ∀ command,
      ¬ Reports (newYearWord command "0 9 * * [mon-fri]") "0 9 * * [mon-fri]" bracketed := by
    intro command h
    have hreported := (reports_iff _ (htakes _ command) hread).1 h
    exact hquoted ((run_requireSchedule_iff hread).1 hreported).expression
  exact ⟨hread, hneither .next, hneither .check⟩

end CronFire.CommandLine
