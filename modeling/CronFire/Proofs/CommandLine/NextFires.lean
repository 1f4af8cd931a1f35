import CronFire.Proofs.CommandLine.Calls
import CronFire.Proofs.CommandLine.Ordered
import CronFire.Proofs.Settings.Reload
/-!
# What a call for the next fire times prints

The command counts twice: the sequence of fire times hands out no more than the asked-for number,
and the notice at the end compares what was handed out with that number again.  Both counts are
of one list, the beginning of the list of all fire times, so the notice is printed exactly if that
list is too short.

Results:
* `run_loadSettings`: settings that are on file in full are loaded without a message.
* `NextCall.run_program`: a call comes to the command with what it was given.
* `next_prints_fires`: what a call prints and how it ends.
-/
namespace CronFire.CommandLine

/-! ## From the call to the command -/

theorem run_keep {α : Type} (act : Store → Outcome α) (e : Effects) :
    (keep act).run e =
      (match (act e.store).result with
        | .error fault => .error (.crash (.keeper fault))
        | .ok a => .ok ((act e.store).keeper, a),
      { store := (act e.store).store
        output := e.output ++ String.join ((act e.store).notices.map Notice.text) }) := by
  show (ExceptT.run (match (act e.store).result with
    | .error fault => MonadExcept.throw (.crash (.keeper fault))
    | .ok a => pure ((act e.store).keeper, a) : Run (Keeper × α))) _ = _
  cases (act e.store).result <;> rfl

/-- Settings that are on file in full are loaded without a message. -/
theorem run_loadSettings {home : Path} {store : Store} {settings : Settings}
    (hfolders : store.makeFolders home = .ok store)
    (hholds : ({ home } : Keeper).Holds store settings.render) (hcount : 1 ≤ settings.count)
    (hshort : settings.countTooLong = false) (hplain : settings.IsPlain) :
    (loadSettings home).run { store } = (.ok settings, { store }) := by
  have hexists : store.exists? ({ home } : Keeper).path.location = true := by
    obtain ⟨bytes, hfile, -⟩ := hholds
    rw [Store.exists?, hfile]
    rfl
  have hensure : ({ home } : Keeper).ensure store true = ⟨{ home }, store, [], .ok ()⟩ := by
    simp only [Keeper.ensure, hfolders, hexists]
    rfl
  obtain ⟨hresult, hnotices, hstore⟩ :=
    (Keeper.load_render_quiet_iff hholds hcount hshort).2 hplain
  rw [loadSettings, run_bind, run_keep]
  simp only [hensure]
  rw [run_bind, run_keep]
  simp only [hresult, hnotices, hstore]
  rfl

/-- A call of the command for the next fire times that is not verbose and asks for no help, whose
arguments can be read, whose settings are loaded without a message, and whose expression is
valid. -/
structure NextCall (s : Surroundings) (store : Store) (args : List String) where
  /-- The switches of the program, and the command with its arguments as words. -/
  outer : Arguments ProgramSwitch
  /-- The arguments of the command as they stand. -/
  rest : List String
  /-- The switches and words of the command. -/
  inner : Arguments NextSwitch
  request : NextRequest
  settings : Settings
  /-- The store once the settings are loaded. -/
  after : Store
  schedule : Schedule
  outer_eq : readArguments programSwitches false args = .ok outer
  words_eq : outer.words = Command.next.name :: rest
  asksNothing : ∀ key ∈ outer.keys, key ≠ .version ∧ key ≠ .help
  quiet : outer.has .verbose = false
  loads : (loadSettings (homeOf s.environment outer)).run { store } =
    (.ok settings, { store := after })
  inner_eq : readArguments nextSwitches true rest = .ok inner
  noHelp : inner.has .help = false
  request_eq : NextRequest.ofArguments s inner = .ok request
  schedule_eq : Schedule.read (request.subject settings) = .ok schedule

namespace NextCall

variable {s : Surroundings} {store : Store} {args : List String}

def context (q : NextCall s store args) : Context :=
  { s with
    home := homeOf s.environment q.outer
    settings := q.settings
    verbose := false }

def toCommandCall (q : NextCall s store args) : CommandCall s store args :=
  { q with
    command := .next
    loaded := { store := q.after } }

/-- The call comes to the command. -/
theorem run_program [Strays] (q : NextCall s store args) :
    (program s args).run { store } = (next q.context q.request).run { store := q.after } := by
  have hcontext : q.toCommandCall.context = q.context := by
    rw [CommandCall.context, toCommandCall, q.quiet]
    rfl
  have hinner : readCall (some .next) nextSwitches q.rest = pure q.inner := by
    rw [readCall, show (some Command.next).isSome = true from rfl, q.inner_eq]
    rfl
  rw [q.toCommandCall.run_program, hcontext]
  show (runCommand q.context q.rest .next).run { store := q.after } = _
  simp only [runCommand, hinner, pure_bind, q.noHelp]
  rw [show q.context.toSurroundings = s from rfl, q.request_eq]
  rfl

def start (q : NextCall s store args) : Moment := q.request.begins s.now

def stop (q : NextCall s store args) : Moment := q.request.ends s.now

def count (q : NextCall s store args) : Nat := q.request.number q.settings

end NextCall

/-! ## What is printed -/

/-- **What a call prints.** No call breaks off because moments have no order.  A call that is not
verbose, whose settings are loaded without a message and whose expression is valid prints, between
a start and an end on one clock, the first of all fire times, one on a line and as many as asked
for, and then the notice exactly if there are fewer.  If an end is given and only one of start and
end has an offset, it reports that and prints no fire time. -/
theorem next_prints_fires [Strays] (s : Surroundings) (store : Store) (args : List String) :
    (run s store args).crash ≠ some .mixedOffsets ∧
    ∀ q : NextCall s store args, s.now.IsReal →
      (q.start.offset = q.stop.offset →
        ∃ all notice, q.schedule.FireList q.start q.stop all ∧
          Terminal.printed s.emoji s.columns (lastLine s.platform q.request.stop) = .ok notice ∧
          ((lastLine s.platform q.request.stop).length ≤ s.columns →
            notice = lastLine s.platform q.request.stop ++ "\n") ∧
          ((∀ t ∈ all.take q.count,
              Terminal.printed s.emoji s.columns (fireText s.platform q.settings t) =
                .ok (fireText s.platform q.settings t ++ "\n")) →
            run s store args = ⟨q.after,
              String.join ((all.take q.count).map fun t =>
                fireText s.platform q.settings t ++ "\n") ++
                (if all.length < q.count then notice else ""), 0, none⟩)) ∧
      ∀ stop ∈ q.request.stop, q.start.offset.isSome ≠ stop.offset.isSome →
        run s store args = ⟨q.after, UsageFault.mixedOffsets.report (some .next), 2, none⟩ := by
  refine ⟨crash_ne_mixedOffsets s store args, fun q hnow => ⟨fun hclock => ?_, ?_⟩⟩
  · have hreal := NextRequest.isReal_ofArguments hnow q.request_eq
    obtain ⟨all, hall⟩ := Schedule.exists_fireList q.schedule q.start q.stop
    have hholds := FireSequence.holds_start (Schedule.proper_of_read q.schedule_eq)
      (hreal.begins hnow) hreal.ends hclock (some q.count) hall
    have hliteral := literal_lastLine s.platform hreal.stop
    have hcodes := replace_lastLine s.emoji s.platform hreal.stop
    obtain ⟨notice, hnotice⟩ : ∃ notice,
        Terminal.printed s.emoji s.columns (lastLine s.platform q.request.stop) = .ok notice := by
      rw [Terminal.printed, Markup.strip_of_not_mem (hliteral.not_mem (by decide))]
      exact ⟨_, rfl⟩
    refine ⟨all, notice, hall, hnotice, fun hfits => ?_, fun hlines => ?_⟩
    · rw [Terminal.printed_of_literal hliteral hcodes hfits] at hnotice
      exact (Except.ok.inj hnotice).symm
    · have hordered : q.start.comparable q.stop = true := by
        rw [Moment.comparable, hclock]
        exact beq_self_eq_true _
      have hrun := run_next (c := q.context) rfl q.schedule_eq hordered hholds.toList hlines
        hreal.stop hnotice { store := q.after }
      rw [← q.run_program] at hrun
      -- the list handed out is short exactly if the list of all fire times is
      have hshort : (all.take q.count).length < q.count ↔ all.length < q.count := by
        rw [List.length_take]
        omega
      rw [run_eq_of_ok hrun, String.empty_append]
      exact congrArg (fun notice => Report.mk q.after
        (String.join ((all.take q.count).map fun t => fireText s.platform q.settings t ++ "\n") ++
          notice) 0 none) (if_congr hshort rfl rfl)
  · intro stop hstop hmixed
    have hend : q.stop = stop := by
      rw [NextCall.stop, NextRequest.ends, searchEnd, Option.mem_def.1 hstop, Option.getD_some]
    have hunordered : q.start.comparable q.stop = false := by
      rw [Moment.comparable, hend, beq_eq_false_iff_ne]
      exact hmixed
    have hrun := run_next_mixed (c := q.context) rfl q.schedule_eq hunordered { store := q.after }
    rw [← q.run_program] at hrun
    rw [run_eq_of_exit hrun, String.empty_append]

/-- A store with a home folder and the settings as they are at first. -/
def freshHome : Store :=
  ⟨[(["home"], .folder), (["home", "config.toml"], .file ({} : Settings).render.toUTF8)]⟩

/-- A terminal of eighty columns at the start of a year. -/
def newYear : Surroundings :=
  { now := ⟨⟨2024, 1, 1⟩, ⟨0, 0, 0⟩, 0, none⟩
    columns := 80
    environment := { home := some "/home" }
    input := none
    reader := .plain
    platform := .universal
    emoji := .none }

theorem run_loadSettings_freshHome :
    (loadSettings ⟨.slash, ["home"]⟩).run { store := freshHome } =
      (.ok {}, { store := freshHome }) :=
  run_loadSettings rfl ⟨_, rfl, fromUTF8?_toUTF8 _⟩ (by decide)
    (Settings.countTooLong_of_lt (by decide)) (by decide)

/-- A call for three fire times at the start of months, until an end. -/
def newYearCall {schedule : Schedule} (hread : Schedule.read "0 0 1 * *" = .ok schedule)
    {text : String} {stop : Moment}
    (hrequest : NextRequest.ofArguments newYear
        { given := [⟨.count, "3"⟩, ⟨.stop, text⟩], words := ["0 0 1 * *"] } =
      .ok { expression := "0 0 1 * *", count := some 3, stop := some stop }) :
    NextCall newYear freshHome ["next", "0 0 1 * *", "-n", "3", "--end", text] where
  outer := { words := ["next", "0 0 1 * *", "-n", "3", "--end", text] }
  rest := ["0 0 1 * *", "-n", "3", "--end", text]
  inner := { given := [⟨.count, "3"⟩, ⟨.stop, text⟩], words := ["0 0 1 * *"] }
  request := { expression := "0 0 1 * *", count := some 3, stop := some stop }
  settings := {}
  after := freshHome
  schedule
  outer_eq := rfl
  words_eq := rfl
  asksNothing := by simp [Arguments.keys]
  quiet := rfl
  loads := run_loadSettings_freshHome
  inner_eq := rfl
  noHelp := rfl
  request_eq := hrequest
  schedule_eq := hread

attribute [local instance] Strays.none

/-- Three fire times are asked for, and the end leaves two; an end with an offset is reported. -/
theorem next_prints_fires_newYear :
    run newYear freshHome ["next", "0 0 1 * *", "-n", "3", "--end", "2024-04-01"] = ⟨freshHome,
      "2024.02.01 00:00:00  Thursday\n" ++ "2024.03.01 00:00:00  Friday\n" ++
        "No further fire times before 2024-04-01 00:00:00.\n", 0, none⟩ ∧
    run newYear freshHome ["next", "0 0 1 * *", "-n", "3", "--end", "2024-04-01 00:00Z"] =
      ⟨freshHome, UsageFault.mixedOffsets.report (some .next), 2, none⟩ := by
  obtain ⟨schedule, hread, hfires⟩ : ∃ s, Schedule.read "0 0 1 * *" = .ok s ∧
      (FireSequence.start s newYear.now ⟨⟨2024, 4, 1⟩, ⟨0, 0, 0⟩, 0, none⟩ (some 3)).toList =
        .ok [⟨⟨2024, 2, 1⟩, ⟨0, 0, 0⟩, 0, none⟩, ⟨⟨2024, 3, 1⟩, ⟨0, 0, 0⟩, 0, none⟩] :=
    Schedule.exists_read (by decide +kernel)
  constructor
  · obtain ⟨-, hcalls⟩ := next_prints_fires newYear freshHome
      ["next", "0 0 1 * *", "-n", "3", "--end", "2024-04-01"]
    have hrequest : NextRequest.ofArguments newYear
        { given := [⟨.count, "3"⟩, ⟨.stop, "2024-04-01"⟩], words := ["0 0 1 * *"] } =
      .ok { expression := "0 0 1 * *", count := some 3,
            stop := some ⟨⟨2024, 4, 1⟩, ⟨0, 0, 0⟩, 0, none⟩ } := by decide +kernel
    obtain ⟨all, notice, hall, -, hnotice, hrun⟩ :=
      (hcalls (newYearCall hread hrequest) (by decide)).1 rfl
    have hlist : (FireSequence.start schedule newYear.now ⟨⟨2024, 4, 1⟩, ⟨0, 0, 0⟩, 0, none⟩
        (some 3)).toList = .ok (all.take 3) :=
      (FireSequence.holds_start (Schedule.proper_of_read hread)
        (by decide : newYear.now.IsReal)
        (by decide : (⟨⟨2024, 4, 1⟩, ⟨0, 0, 0⟩, 0, none⟩ : Moment).IsReal) rfl (some 3) hall).toList
    have htake : all.take 3 =
        [⟨⟨2024, 2, 1⟩, ⟨0, 0, 0⟩, 0, none⟩, ⟨⟨2024, 3, 1⟩, ⟨0, 0, 0⟩, 0, none⟩] :=
      Except.ok.inj (hlist.symm.trans hfires)
    have hfew : all.length < 3 := by
      have hlength := congrArg List.length htake
      rw [List.length_take] at hlength
      simp only [List.length_cons, List.length_nil] at hlength
      omega
    have hlines : ∀ t ∈ all.take 3, Terminal.printed .none 80 (fireText .universal {} t) =
        .ok (fireText .universal {} t ++ "\n") := by
      rw [htake, List.forall_mem_cons, List.forall_mem_singleton]
      constructor <;> decide +kernel
    have hlast : lastLine .universal (some ⟨⟨2024, 4, 1⟩, ⟨0, 0, 0⟩, 0, none⟩) ++ "\n" =
        "No further fire times before 2024-04-01 00:00:00.\n" := by decide +kernel
    have hfits : (lastLine .universal (some ⟨⟨2024, 4, 1⟩, ⟨0, 0, 0⟩, 0, none⟩)).length ≤ 80 := by
      decide +kernel
    have hprinted : String.join ((all.take 3).map fun t => fireText .universal {} t ++ "\n") =
        "2024.02.01 00:00:00  Thursday\n" ++ "2024.03.01 00:00:00  Friday\n" := by
      rw [htake]
      decide +kernel
    refine (hrun hlines).trans ?_
    show Report.mk freshHome
      (String.join ((all.take 3).map fun t => fireText .universal {} t ++ "\n") ++
        if all.length < 3 then notice else "") 0 none = _
    rw [hprinted, if_pos hfew, (hnotice hfits).trans hlast]
  · obtain ⟨-, hcalls⟩ := next_prints_fires newYear freshHome
      ["next", "0 0 1 * *", "-n", "3", "--end", "2024-04-01 00:00Z"]
    have hrequest : NextRequest.ofArguments newYear
        { given := [⟨.count, "3"⟩, ⟨.stop, "2024-04-01 00:00Z"⟩], words := ["0 0 1 * *"] } =
      .ok { expression := "0 0 1 * *", count := some 3,
            stop := some ⟨⟨2024, 4, 1⟩, ⟨0, 0, 0⟩, 0, some 0⟩ } := by decide +kernel
    exact (hcalls (newYearCall hread hrequest) (by decide)).2 _ rfl Bool.false_ne_true

end CronFire.CommandLine
