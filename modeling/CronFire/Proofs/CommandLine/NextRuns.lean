import CronFire.CommandLine.Next
import CronFire.Proofs.CommandLine.Invalid
import CronFire.Proofs.Calendar.Order
import CronFire.Proofs.Fault
import CronFire.Proofs.Fire.Possible
import CronFire.Proofs.Terminal.Codes
import CronFire.Proofs.Terminal.Literal
/-!
# Runs of the command for the next fire times

What the command does once its arguments are read.  It asks whether start and end have an order
before it compares any fire time with the end, then prints the fire times that the sequence hands
out, each as the settings want it, and at last the notice if they are fewer than asked for.

Results:
* `isReal_ofArguments`: the moments in a request are real.
* `literal_lastLine`, `replace_lastLine`: the notice means nothing to the terminal.
* `next_eq`: the command, from the schedule on, is `answer`.
* `run_next`, `run_next_mixed`: what the command prints and how it ends.
-/
namespace CronFire.CommandLine

open Text

/-! ## Requests -/

theorem isReal_readMoment {s : Surroundings} {m : Moment} {switch text : String}
    (hnow : s.now.IsReal) (h : readMoment s switch text = .ok m) : m.IsReal := by
  simp only [readMoment] at h
  split at h
  · cases h
    exact hnow
  · split at h
    · cases h
    · rename_i hread
      cases h
      exact s.reader.isReal hread

namespace NextRequest

structure IsReal (r : NextRequest) : Prop where
  start : ∀ m ∈ r.start, m.IsReal
  stop : ∀ m ∈ r.stop, m.IsReal

variable {s : Surroundings} {now : Moment} {r r' : NextRequest}

theorem IsReal.update {key : NextSwitch} {value : String} (hr : r.IsReal) (hnow : s.now.IsReal)
    (h : r.update s key value = .ok r') : r'.IsReal := by
  unfold NextRequest.update at h
  split at h
  · obtain ⟨n, -, rfl⟩ := map_eq_ok_iff.1 h
    exact ⟨hr.start, hr.stop⟩
  · obtain ⟨m, hm, rfl⟩ := map_eq_ok_iff.1 h
    exact ⟨by simpa using isReal_readMoment hnow hm, hr.stop⟩
  · obtain ⟨m, hm, rfl⟩ := map_eq_ok_iff.1 h
    exact ⟨hr.start, by simpa using isReal_readMoment hnow hm⟩
  · cases h
    exact hr

theorem IsReal.updates {keys : List NextSwitch} {value : NextSwitch → String} (hr : r.IsReal)
    (hnow : s.now.IsReal)
    (h : keys.foldlM (fun r key => r.update s key (value key)) r = .ok r') : r'.IsReal := by
  induction keys generalizing r with
  | nil =>
    cases h
    exact hr
  | cons key keys ih =>
    rw [List.foldlM_cons] at h
    obtain ⟨next, hnext, hrest⟩ := bind_eq_ok_iff.1 h
    exact ih (hr.update hnow hnext) hrest

theorem isReal_ofArguments {a : Arguments NextSwitch} (hnow : s.now.IsReal)
    (h : ofArguments s a = .ok r) : r.IsReal :=
  IsReal.updates (r := { expression := joinWords a.words }) ⟨by simp, by simp⟩ hnow h

theorem IsReal.begins (hr : r.IsReal) (hnow : now.IsReal) : (r.begins now).IsReal := by
  rw [NextRequest.begins, searchStart]
  cases hstart : r.start with
  | none => exact hnow
  | some m => exact hr.start m hstart

theorem IsReal.ends (hr : r.IsReal) : (r.ends now).IsReal := by
  rw [NextRequest.ends, searchEnd]
  cases hstop : r.stop with
  | none => exact Moment.isReal_defaultEnd _
  | some m => exact hr.stop m hstop

end NextRequest

/-! ## What is printed -/

def fireText (p : Platform) (settings : Settings) (m : Moment) : String :=
  m.writeFire p settings.pattern settings.showWeekday

/-- What is said if there are fewer fire times than asked for. -/
def lastLine (p : Platform) (stop : Option Moment) : String :=
  "No further fire times before " ++ limitText p stop ++ "."

/-! ## The notice -/

section
variable {p : Platform} {m : Moment} {stop : Option Moment}

def dayAndHour (m : Moment) : List Char :=
  zeroPadded 1 m.date.year ++ '-' :: (zeroPadded 2 m.date.month ++ '-' ::
    (zeroPadded 2 m.date.day ++ ' ' :: zeroPadded 2 m.time.hour))

theorem fillSystem_limit (p : Platform) (m : Moment) :
    m.fillSystem p none "%Y-%m-%d %H:%M:%S".toList = dayAndHour m ++ ':' ::
      (zeroPadded 2 m.time.minute ++ ':' :: zeroPadded 2 m.time.second) := by
  have hfilled : m.fillSystem p none "%Y-%m-%d %H:%M:%S".toList =
      zeroPadded 1 m.date.year ++ '-' :: (zeroPadded 2 m.date.month ++ '-' ::
        (zeroPadded 2 m.date.day ++ ' ' :: (zeroPadded 2 m.time.hour ++ ':' ::
          (zeroPadded 2 m.time.minute ++ ':' :: (zeroPadded 2 m.time.second ++ []))))) := rfl
  rw [hfilled, dayAndHour]
  simp

/-- The end of a search in full.  There is room for it, since its year has four digits at most. -/
theorem toList_limitText (p : Platform) (hm : m.IsReal) : (limitText p (some m)).toList =
    dayAndHour m ++ ':' :: (zeroPadded 2 m.time.minute ++ ':' :: zeroPadded 2 m.time.second) := by
  have hpattern : "%Y-%m-%d %H:%M:%S".toList.takeWhile (· ≠ '\x00') =
      "%Y-%m-%d %H:%M:%S".toList := by decide
  have hzone : m.fillZone p "%Y-%m-%d %H:%M:%S".toList = "%Y-%m-%d %H:%M:%S".toList := rfl
  obtain ⟨⟨hyear, hyear', hmonth, hmonth', hday, hday'⟩,
    ⟨hhour, hhour', hminute, hminute', hsecond, hsecond'⟩, -⟩ := hm
  have hmonthLength := (monthLength_bounds m.date.year m.date.month).2
  rw [lastYear] at hyear'
  have hshort : ∀ (width : Nat) (n : Int), width ≤ 4 → n ≤ 9999 →
      (zeroPadded width n).length ≤ 4 := fun width n hwidth hn =>
    length_zeroPadded_le (by decide) hwidth (by omega)
  have hfits : (dayAndHour m ++ ':' :: (zeroPadded 2 m.time.minute ++ ':' ::
      zeroPadded 2 m.time.second)).length < 1024 := by
    have hyear := hshort 1 m.date.year (by decide) hyear'
    have hmonth := hshort 2 m.date.month (by decide) (by omega)
    have hday := hshort 2 m.date.day (by decide) (by omega)
    have hhour := hshort 2 m.time.hour (by decide) (by omega)
    have hminute := hshort 2 m.time.minute (by decide) (by omega)
    have hsecond := hshort 2 m.time.second (by decide) (by omega)
    simp only [dayAndHour, List.length_append, List.length_cons]
    omega
  have hroom : 1024 ≤ patternRoom "%Y-%m-%d %H:%M:%S".toList.length := by decide
  rw [limitText, Option.elim, Moment.write]
  simp only [hpattern, hzone, fillSystem_limit, if_pos (Nat.lt_of_lt_of_le hfits hroom),
    String.toList_ofList]

theorem literal_lastLine (p : Platform) (hstop : ∀ m ∈ stop, m.IsReal) :
    Terminal.Literal (lastLine p stop).toList := by
  have hlimit : Terminal.Literal (limitText p stop).toList := by
    cases stop with
    | none =>
      show Terminal.Literal "the end of time".toList
      decide
    | some m =>
      have hdash : Terminal.isLiteral '-' = true := by decide
      have hspace : Terminal.isLiteral ' ' = true := by decide
      have hcolon : Terminal.isLiteral ':' = true := by decide
      rw [toList_limitText p (hstop m rfl), dayAndHour]
      simp [hdash, hspace, hcolon]
  have hstart : Terminal.Literal "No further fire times before ".toList := by decide
  have hend : Terminal.Literal ".".toList := by decide
  exact (hstart.concat hlimit).concat hend

/-- There are colons only around the minutes. -/
theorem replace_lastLine (emoji : Terminal.Emoji) (p : Platform) (hstop : ∀ m ∈ stop, m.IsReal) :
    emoji.replace (lastLine p stop).toList = (lastLine p stop).toList := by
  cases stop with
  | none =>
    have hnone : Terminal.colons "No further fire times before the end of time.".toList ≤ 1 := by
      decide
    exact Terminal.Emoji.replace_of_colons_le_one hnone
  | some m =>
    have hm := hstop m rfl
    obtain ⟨a, b, hminute, ha, hb⟩ := exists_zeroPadded_eq
      (show m.time.minute < 100 by have := hm.2.1.2.2.2.1; omega)
    have hcolon : ∀ (width : Nat) (n : Int), ':' ∉ zeroPadded width n := fun width n hmem =>
      absurd (isDigit_of_mem_zeroPadded hmem) (by decide)
    have hbefore : ':' ∉ "No further fire times before ".toList ++ dayAndHour m := by
      simp [dayAndHour, hcolon]
    have hafter : ':' ∉ zeroPadded 2 m.time.second ++ ['.'] := by simp [hcolon]
    have hline : (lastLine p (some m)).toList =
        ("No further fire times before ".toList ++ dayAndHour m) ++ ':' :: a :: b :: ':' ::
          (zeroPadded 2 m.time.second ++ ['.']) := by
      unfold lastLine
      rw [String.toList_append, String.toList_append, toList_limitText p hm, hminute,
        List.append_assoc, List.append_assoc, List.append_assoc]
      rfl
    rw [hline]
    exact Terminal.Emoji.replace_between_digits ha hb hbefore hafter

/-- The colour of the notice does not show. -/
theorem printed_notice (emoji : Terminal.Emoji) (columns : Nat) (p : Platform)
    (hstop : ∀ m ∈ stop, m.IsReal) :
    Terminal.printed emoji columns
        ("[yellow]No further fire times before " ++ limitText p stop ++ ".[/yellow]") =
      Terminal.printed emoji columns (lastLine p stop) := by
  have hname : Markup.IsTagName "yellow".toList :=
    ⟨by decide, by decide, by decide, by decide, by decide, by decide⟩
  have hstart : "[yellow]No further fire times before " =
      "[" ++ "yellow" ++ "]" ++ "No further fire times before " := by decide
  have hend : ".[/yellow]" = "." ++ ("[/" ++ "yellow" ++ "]") := by decide
  have hassoc : ∀ opening start limit dot slash name close : String,
      opening ++ start ++ limit ++ (dot ++ (slash ++ name ++ close)) =
        opening ++ (start ++ limit ++ dot) ++ slash ++ name ++ close := by
    intros
    simp only [String.append_assoc]
  rw [← Terminal.printed_tagged hname (literal_lastLine p hstop), hstart, hend, hassoc]
  rfl

end

/-! ## What is printed -/

section
variable {c : Context}

theorem run_print {text shown : String}
    (h : Terminal.printed c.emoji c.columns text = .ok shown) (e : Effects) :
    (print c text).run e = (.ok (), { e with output := e.output ++ shown }) := by
  rw [print, h]
  rfl

theorem run_printFires {ms : List Moment}
    (h : ∀ m ∈ ms, Terminal.printed c.emoji c.columns (fireText c.platform c.settings m) =
      .ok (fireText c.platform c.settings m ++ "\n")) (e : Effects) :
    (printFires c ms).run e = (.ok (), { e with
      output := e.output ++
        String.join (ms.map fun m => fireText c.platform c.settings m ++ "\n") }) := by
  induction ms generalizing e with
  | nil =>
    rw [List.map_nil, String.join_nil, String.append_empty]
    rfl
  | cons m ms ih =>
    rw [List.forall_mem_cons] at h
    have hprint := run_print h.1 e
    rw [fireText] at hprint
    rw [printFires, run_bind, hprint]
    simp [ih h.2, String.join_cons, String.append_assoc, fireText]

/-! ## The command -/

variable [Strays] {r : NextRequest} {schedule : Schedule}

/-- What the command does once it has a schedule. -/
def answer (c : Context) (r : NextRequest) (schedule : Schedule) : Run Unit := do
  if !(r.begins c.now).comparable (r.ends c.now) then
    stopUsage (some .next) .mixedOffsets
  match (FireSequence.start schedule (r.begins c.now) (r.ends c.now)
      (some (r.number c.settings))).toList with
  | .error _ => throw (.crash .mixedOffsets)
  | .ok fires =>
    printFires c fires
    if fires.length < r.number c.settings then
      print c
        ("[yellow]No further fire times before " ++ limitText c.platform r.stop ++ ".[/yellow]")

theorem next_eq (c : Context) (r : NextRequest) : next c r = (do
    let schedule ← requireSchedule c (r.subject c.settings)
    if c.verbose then
      print c ("[blue]Expression:[/blue] " ++ r.subject c.settings)
      note c .bug "next_cmd" (describeSchedule (r.subject c.settings) schedule)
    answer c r schedule) := rfl

theorem next_eq_answer (hquiet : c.verbose = false)
    (hread : Schedule.read (r.subject c.settings) = .ok schedule) :
    next c r = answer c r schedule := by
  have hschedule : requireSchedule c (r.subject c.settings) = pure schedule := by
    rw [requireSchedule, hread]
  rw [next_eq, hschedule, pure_bind, hquiet]
  rfl

theorem run_next_mixed (hquiet : c.verbose = false)
    (hread : Schedule.read (r.subject c.settings) = .ok schedule)
    (hmixed : (r.begins c.now).comparable (r.ends c.now) = false) (e : Effects) :
    (next c r).run e = (.error (.exit 2),
      { e with output := e.output ++ UsageFault.mixedOffsets.report (some .next) }) := by
  rw [next_eq_answer hquiet hread, answer, hmixed]
  rfl

theorem run_next (hquiet : c.verbose = false)
    (hread : Schedule.read (r.subject c.settings) = .ok schedule)
    (hordered : (r.begins c.now).comparable (r.ends c.now) = true) {fires : List Moment}
    (hfires : (FireSequence.start schedule (r.begins c.now) (r.ends c.now)
      (some (r.number c.settings))).toList = .ok fires)
    (hlines : ∀ m ∈ fires, Terminal.printed c.emoji c.columns (fireText c.platform c.settings m) =
      .ok (fireText c.platform c.settings m ++ "\n")) (hstop : ∀ m ∈ r.stop, m.IsReal)
    {notice : String}
    (hnotice : Terminal.printed c.emoji c.columns (lastLine c.platform r.stop) = .ok notice)
    (e : Effects) : (next c r).run e = (.ok (), { e with
      output := e.output ++
        (String.join (fires.map fun m => fireText c.platform c.settings m ++ "\n") ++
          if fires.length < r.number c.settings then notice else "") }) := by
  rw [← printed_notice c.emoji c.columns c.platform hstop] at hnotice
  rw [next_eq_answer hquiet hread, answer, hordered, hfires]
  simp only [Bool.not_true, Bool.false_eq_true, if_false]
  rw [run_bind, run_printFires hlines]
  by_cases hfew : fires.length < r.number c.settings
  · simp only [if_pos hfew, run_print hnotice]
    rw [String.append_assoc]
  · simp only [if_neg hfew, String.append_empty]
    rfl

end

end CronFire.CommandLine
