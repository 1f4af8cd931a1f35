import CronFire.Proofs.CommandLine.NextFires
import CronFire.Proofs.Text.Joined
/-!
# Calls with the same words in other arguments

An expression may be spread over the arguments of a call: they are joined with blanks, and the
schedule is read from the words between blanks.  So it does not matter where in the arguments a
word stands, how many blanks are around it, and between which switches the arguments are put.
Arguments without any word count as none, and the expression of the settings is used.

Results:
* `readArguments_spread`: the switches and words of arguments that were put between switches.
* `words_joinWords`, `joinWords_eq_empty_iff`: the words of arguments that are joined.
* `ofArguments_words`: a request depends on the arguments through its expression alone.
* `run_regrouped`: calls with the same words and switches do the same.
-/
namespace CronFire.CommandLine

/-! ## Arguments between switches -/

section
variable {κ : Type} (switches : List (Switch κ))

/-- One switch as it stands in a call, with its value if that is an argument of its own, or an
argument with a dash that is no proper switch. -/
inductive SwitchText : List String → Prop
  | complete {arg : String} {given : List (Given κ)} : arg ≠ "--" → isSwitch arg = true →
      readSwitch switches arg.toList = .ok { given } → SwitchText [arg]
  | valued {arg value name : String} {given : List (Given κ)} {key : κ} : arg ≠ "--" →
      isSwitch arg = true →
      readSwitch switches arg.toList = .ok { given, waiting := some (key, name) } →
      SwitchText [arg, value]
  | faulty {arg : String} {fault : ArgumentFault} : arg ≠ "--" → isSwitch arg = true →
      readSwitch switches arg.toList = .error fault → SwitchText [arg]

/-- The arguments are some switches with some words put between them, none of which begins with a
dash, and perhaps more words behind `--`. -/
inductive Spread : List (List String) → List String → List String → Prop
  | nil : Spread [] [] []
  | word {word : String} {texts : List (List String)} {words args : List String} :
      word.toList.head? ≠ some '-' → Spread texts words args →
      Spread texts (word :: words) (word :: args)
  | switch {text : List String} {texts : List (List String)} {words args : List String} :
      SwitchText switches text → Spread texts words args →
      Spread (text :: texts) words (text ++ args)
  | behindDashes (words : List String) : Spread [] words ("--" :: words)

/-- The switches that some texts of switches give. -/
def gather (texts : List (List String)) : Except ArgumentFault (List (Given κ)) :=
  (readArguments switches true texts.flatten).map Arguments.given

variable {switches}

/-- What the text of a switch gives does not depend on what follows it. -/
theorem SwitchText.exists_reading {text : List String} (h : SwitchText switches text) :
    ∃ reading : Except ArgumentFault (List (Given κ)), ∀ mixed args,
      readArguments switches mixed (text ++ args) =
        reading.bind fun given => (readArguments switches mixed args).map (·.prepend given) := by
  cases h with
  | @complete arg given hdashes hswitch hread =>
    refine ⟨.ok given, fun mixed args => ?_⟩
    rw [List.singleton_append, readArguments, if_neg hdashes, if_pos hswitch, hread]
    rfl
  | @valued arg value name given key hdashes hswitch hread =>
    refine ⟨.ok (given ++ [⟨key, value⟩]), fun mixed args => ?_⟩
    rw [List.cons_append, List.singleton_append, readArguments, if_neg hdashes, if_pos hswitch,
      hread]
    rfl
  | @faulty arg fault hdashes hswitch hread =>
    refine ⟨.error fault, fun mixed args => ?_⟩
    rw [List.singleton_append, readArguments, if_neg hdashes, if_pos hswitch, hread]
    rfl

theorem gather_cons {text : List String} {reading : Except ArgumentFault (List (Given κ))}
    (h : ∀ mixed args, readArguments switches mixed (text ++ args) =
      reading.bind fun given => (readArguments switches mixed args).map (·.prepend given))
    (texts : List (List String)) :
    gather switches (text :: texts) =
      reading.bind fun given => (gather switches texts).map (given ++ ·) := by
  rw [gather, gather, List.flatten_cons, h]
  cases reading with
  | error fault => rfl
  | ok given => cases readArguments switches true texts.flatten <;> rfl

theorem isSwitch_of_head {word : String} (h : word.toList.head? ≠ some '-') :
    isSwitch word = false := by
  unfold isSwitch
  split
  · rename_i heq
    rw [heq] at h
    exact absurd rfl h
  · rfl

theorem spread_words {words : List String} (h : ∀ word ∈ words, word.toList.head? ≠ some '-') :
    Spread switches [] words words := by
  induction words with
  | nil => exact .nil
  | cons word words ih =>
    rw [List.forall_mem_cons] at h
    exact .word h.1 (ih h.2)

/-- Words between switches are read as the switches and the words. -/
theorem readArguments_spread {texts : List (List String)} {words args : List String}
    (h : Spread switches texts words args) :
    readArguments switches true args =
      (gather switches texts).map fun given => { given, words } := by
  induction h with
  | nil => rfl
  | @word word texts words args hword _ ih =>
    have hdashes : word ≠ "--" := by
      rintro rfl
      exact hword rfl
    rw [readArguments, if_neg hdashes, isSwitch_of_head hword, ih]
    cases gather switches texts <;> rfl
  | @switch text texts words args htext _ ih =>
    obtain ⟨reading, hreading⟩ := htext.exists_reading
    rw [hreading, gather_cons hreading, ih]
    cases reading with
    | error fault => rfl
    | ok given => cases gather switches texts <;> rfl
  | behindDashes words => simp [readArguments, gather, Except.map]

/-- Where switches end at the first word, it and all behind it are words. -/
theorem readArguments_front {texts : List (List String)}
    (h : ∀ text ∈ texts, SwitchText switches text) {word : String}
    (hword : word.toList.head? ≠ some '-') (args : List String) :
    readArguments switches false (texts.flatten ++ word :: args) =
      (gather switches texts).map fun given => { given, words := word :: args } := by
  induction texts with
  | nil =>
    have hdashes : word ≠ "--" := by
      rintro rfl
      exact hword rfl
    rw [List.flatten_nil, List.nil_append, readArguments, if_neg hdashes, isSwitch_of_head hword]
    rfl
  | cons text texts ih =>
    rw [List.forall_mem_cons] at h
    obtain ⟨reading, hreading⟩ := h.1.exists_reading
    rw [List.flatten_cons, List.append_assoc, hreading, gather_cons hreading, ih h.2]
    cases reading with
    | error fault => rfl
    | ok given => cases gather switches texts <;> rfl

end

/-! ## Words of arguments -/

/-- The words between blanks in some arguments. -/
def tokens (args : List String) : List (List Char) := args.flatMap fun arg => Text.words arg.toList

theorem words_joinWords (args : List String) :
    Text.words (joinWords args).toList = tokens args := by
  have hjoin : (" ".intercalate args).toList = List.intercalate [' '] (args.map String.toList) := by
    rw [String.toList_intercalate]
    rfl
  rw [joinWords, String.toList_ofList, Text.words_trim, hjoin, Text.words_intercalate,
    List.flatMap_map]
  rfl

theorem joinWords_eq_empty_iff {args : List String} : joinWords args = "" ↔ tokens args = [] := by
  rw [← words_joinWords, joinWords, String.toList_ofList, Text.words_trim, ← Text.trim_eq_nil_iff,
    ← String.toList_inj, String.toList_ofList]
  rfl

/-- Expressions with the same words have the same schedule, if they have one. -/
theorem read_of_words_eq {expression other : String} {schedule : Schedule}
    (h : Schedule.read expression = .ok schedule)
    (hwords : Text.words other.toList = Text.words expression.toList) :
    Schedule.read other = .ok schedule := by
  unfold Schedule.read expressionWords at h ⊢
  rw [hwords]
  split at h
  · exact h
  · exact h
  · cases h

/-! ## Requests -/

namespace NextRequest

theorem update_words (s : Surroundings) (r : NextRequest) (key : NextSwitch)
    (value expression : String) : update s { r with expression } key value =
      (update s r key value).map fun r => { r with expression } := by
  cases key <;> unfold update
  · cases readCount value <;> rfl
  · cases readMoment s "--start" value <;> rfl
  · cases readMoment s "--end" value <;> rfl
  · rfl

/-- The words of a call are only used as the expression. -/
theorem ofArguments_words (s : Surroundings) (given : List (Given NextSwitch))
    (words : List String) : ofArguments s { given, words } =
      (ofArguments s { given }).map fun r => { r with expression := joinWords words } := by
  let a : Arguments NextSwitch := { given }
  have hfold : ∀ keys : List NextSwitch, ∀ r : NextRequest,
      keys.foldlM (fun (r : NextRequest) key => r.update s key ((a.value? key).getD ""))
          { r with expression := joinWords words } =
        (keys.foldlM (fun (r : NextRequest) key => r.update s key ((a.value? key).getD "")) r).map
          fun r => { r with expression := joinWords words } := by
    intro keys
    induction keys with
    | nil => exact fun r => rfl
    | cons key keys ih =>
      intro r
      rw [List.foldlM_cons, List.foldlM_cons, update_words]
      cases update s r key ((a.value? key).getD "") with
      | error fault => rfl
      | ok next => exact ih next
  exact hfold a.keys { expression := joinWords [] }

end NextRequest

/-- Arguments without a word ask for the expression of the settings. -/
theorem subject_of_blank {words : List String} (hnone : tokens words = []) {s : Surroundings}
    {given : List (Given NextSwitch)} {request : NextRequest}
    (h : NextRequest.ofArguments s { given, words } = .ok request) (settings : Settings) :
    request.subject settings = settings.expression := by
  rw [NextRequest.ofArguments_words] at h
  obtain ⟨r, -, rfl⟩ := map_eq_ok_iff.1 h
  exact if_pos (joinWords_eq_empty_iff.2 hnone)

/-- The schedule of arguments with words, whatever the settings. -/
theorem read_subject {words : List String} (hsome : tokens words ≠ []) {schedule : Schedule}
    (hread : Schedule.read (joinWords words) = .ok schedule) (request : NextRequest)
    (settings : Settings) :
    Schedule.read (({ request with expression := joinWords words } : NextRequest).subject
      settings) = .ok schedule := by
  rw [NextRequest.subject, if_neg (mt joinWords_eq_empty_iff.1 hsome)]
  exact hread

/-! ## Calls -/

/-- The arguments are a call for the next fire times: switches of the program, the name of the
command, and switches of the command with words between them. -/
inductive NextArguments (front options : List (List String)) (words : List String) :
    List String → Prop
  | intro {rest : List String} : (∀ text ∈ front, SwitchText programSwitches text) →
      Spread nextSwitches options words rest →
      NextArguments front options words (front.flatten ++ Command.next.name :: rest)

def contextOf (s : Surroundings) (given : List (Given ProgramSwitch)) (settings : Settings) :
    Context :=
  let a : Arguments ProgramSwitch := { given }
  { s with home := homeOf s.environment a, settings, verbose := a.has .verbose }

def nextOn [Strays] (c : Context) (given : Except ArgumentFault (List (Given NextSwitch)))
    (words : List String) : Run Unit := do
  let a ← orUsage (some .next)
    ((given.map fun given => ({ given, words } : Arguments NextSwitch)).mapError .argument)
  if a.has .help then stopHelp (some .next)
  let request ← orUsage (some .next) (NextRequest.ofArguments c.toSurroundings a)
  next c request

theorem run_answerQuestions {a : Arguments ProgramSwitch} {e after : Effects}
    (h : (answerQuestions a).run e = (.ok (), after)) : after = e := by
  unfold answerQuestions at h
  split at h
  · cases h
  · cases h
  · cases h
    rfl

section
variable [Strays] {front options : List (List String)} {words args : List String}

theorem runCommand_spread (h : Spread nextSwitches options words args) (c : Context) :
    runCommand c args .next = nextOn c (gather nextSwitches options) words := by
  rw [nextOn, ← readArguments_spread h]
  rfl

/-- What a call does: it reads the switches of the program, loads the settings, and comes to the
command. -/
theorem program_eq (h : NextArguments front options words args) (s : Surroundings) :
    program s args = (do
      let given ← orUsage none ((gather programSwitches front).mapError .argument)
      answerQuestions { given }
      let settings ← loadSettings (homeOf s.environment { given })
      nextOn (contextOf s given settings) (gather nextSwitches options) words) := by
  obtain ⟨hfront, hspread⟩ := h
  rename_i rest
  have hname : Command.next.name.toList.head? ≠ some '-' := by decide
  have hcommand : Command.ofName? Command.next.name = some .next := by decide
  have hempty : (front.flatten ++ Command.next.name :: rest).isEmpty = false := by simp
  have hcall : readCall none programSwitches (front.flatten ++ Command.next.name :: rest) =
      orUsage none (((gather programSwitches front).map fun given =>
        ({ given, words := Command.next.name :: rest } : Arguments ProgramSwitch)).mapError
          .argument) := by
    rw [readCall, ← readArguments_front hfront hname]
    rfl
  rw [program, hempty, hcall]
  cases gather programSwitches front with
  | error fault => rfl
  | ok given =>
    simp only [Except.map, Except.mapError, orUsage, pure_bind, hcommand, runCommand_spread hspread]
    rfl

/-- Two calls that differ in their words do the same if the command does. -/
theorem nextOn_congr {words words' : List String} {c : Context}
    (h : ∀ request : NextRequest, next c { request with expression := joinWords words } =
      next c { request with expression := joinWords words' })
    (given : Except ArgumentFault (List (Given NextSwitch))) :
    nextOn c given words = nextOn c given words' := by
  cases given with
  | error fault => rfl
  | ok given =>
    simp only [nextOn, Except.map, Except.mapError, orUsage, pure_bind]
    rw [NextRequest.ofArguments_words c.toSurroundings given words,
      NextRequest.ofArguments_words c.toSurroundings given words']
    cases NextRequest.ofArguments c.toSurroundings { given } with
    | error fault => rfl
    | ok request =>
      simp only [Except.map, pure_bind, h request]
      rfl

theorem run_eq_of_next {words words' args args' : List String}
    (h : NextArguments front options words args) (h' : NextArguments front options words' args')
    {s : Surroundings} {store : Store}
    (hnext : ∀ given settings after, gather programSwitches front = .ok given →
      (loadSettings (homeOf s.environment { given })).run { store } = (.ok settings, after) →
      ∀ request : NextRequest,
        next (contextOf s given settings) { request with expression := joinWords words } =
          next (contextOf s given settings) { request with expression := joinWords words' }) :
    run s store args = run s store args' := by
  have hrun : (program s args).run { store } = (program s args').run { store } := by
    rw [program_eq h, program_eq h']
    cases hgiven : gather programSwitches front with
    | error fault => rfl
    | ok given =>
      simp only [Except.mapError, orUsage, pure_bind]
      rw [run_bind, run_bind (answerQuestions _)]
      rcases hasks : (answerQuestions { given }).run { store } with ⟨stop | u, after⟩
      · rfl
      · obtain rfl := run_answerQuestions hasks
        simp only
        rw [run_bind, run_bind (loadSettings _)]
        rcases hloads : (loadSettings (homeOf s.environment { given })).run { store } with
          ⟨stop | settings, after⟩
        · rfl
        · simp only [nextOn_congr (hnext given settings after hgiven hloads)]
  have hprogram : (program s args).run.run { store } = (program s args').run.run { store } := hrun
  rw [run, run, hprogram]

/-- Without a word about it, the command does the same for expressions with one schedule. -/
theorem next_congr {c : Context} (hquiet : c.verbose = false) {request : NextRequest}
    {expression expression' : String} {schedule : Schedule}
    (h : Schedule.read (({ request with expression } : NextRequest).subject c.settings) =
      .ok schedule)
    (h' : Schedule.read (({ request with expression := expression' } : NextRequest).subject
      c.settings) = .ok schedule) :
    next c { request with expression } = next c { request with expression := expression' } := by
  rw [next_eq_answer hquiet h, next_eq_answer hquiet h']
  rfl

/-- **Calls with the same words.** Two calls for the next fire times with the same switches, of
which none is for verbose output, and with words that hold the same tokens, do the same to the
store, print the same and end alike if the tokens are a valid expression, or if there are none.
Without tokens the command is asked for the expression of the settings, and the call does what a
call with the tokens of that expression does, if it is valid. -/
theorem run_regrouped {words words' args args' : List String}
    (h : NextArguments front options words args) (h' : NextArguments front options words' args')
    (hquiet : ∀ given, gather programSwitches front = .ok given →
      ({ given } : Arguments ProgramSwitch).has .verbose = false)
    (htokens : tokens words = tokens words')
    (hvalid : tokens words ≠ [] → ∃ schedule, Schedule.read (joinWords words) = .ok schedule)
    (s : Surroundings) (store : Store) :
    run s store args = run s store args' ∧
    (tokens words = [] →
      (∀ s given request, NextRequest.ofArguments s { given, words } = .ok request →
        ∀ settings, request.subject settings = settings.expression) ∧
      ∀ given settings after schedule, gather programSwitches front = .ok given →
        (loadSettings (homeOf s.environment { given })).run { store } = (.ok settings, after) →
        Schedule.read settings.expression = .ok schedule →
        ∀ spoken call, NextArguments front options spoken call →
          tokens spoken = Text.words settings.expression.toList →
          run s store args = run s store call) := by
  refine ⟨run_eq_of_next h h' fun given settings after hgiven _ request => ?_, fun hnone =>
    ⟨fun s given request hrequest => subject_of_blank hnone hrequest, ?_⟩⟩
  · by_cases hnone : tokens words = []
    · rw [joinWords_eq_empty_iff.2 hnone, joinWords_eq_empty_iff.2 (htokens ▸ hnone)]
    · obtain ⟨schedule, hread⟩ := hvalid hnone
      have hread' : Schedule.read (joinWords words') = .ok schedule :=
        read_of_words_eq hread (by rw [words_joinWords, words_joinWords, htokens])
      exact next_congr (hquiet given hgiven) (read_subject hnone hread request settings)
        (read_subject (htokens ▸ hnone) hread' request settings)
  · intro given settings after schedule hgiven hloads hread spoken call hcall hspoken
    refine run_eq_of_next h hcall fun given' settings' after' hgiven' hloads' request => ?_
    obtain rfl : given' = given := Except.ok.inj (hgiven'.symm.trans hgiven)
    obtain rfl : settings' = settings := by
      rw [hloads] at hloads'
      exact (Except.ok.inj (congrArg Prod.fst hloads')).symm
    have hread' : Schedule.read (joinWords spoken) = .ok schedule :=
      read_of_words_eq hread (by rw [words_joinWords, hspoken])
    -- a valid expression has words
    have hsome : tokens spoken ≠ [] := by
      rw [hspoken]
      intro hempty
      rw [Schedule.read, expressionWords, hempty] at hread
      cases hread
    refine next_congr (hquiet given' hgiven) ?_ (read_subject hsome hread' request settings')
    rw [NextRequest.subject, if_pos (joinWords_eq_empty_iff.2 hnone)]
    exact hread

end

def twoFromNewYear : List (List String) := [["-n", "2"], ["--start=2024-01-01"]]

theorem nextArguments_spread {words args : List String}
    (h : Spread nextSwitches twoFromNewYear words args) :
    NextArguments [] twoFromNewYear words ("next" :: args) :=
  @NextArguments.intro [] _ _ _ (List.forall_mem_nil _) h

attribute [local instance] Strays.none

/-- Five words in two arguments, and in five with blanks of several kinds around them; no argument,
two blank ones, and the words of the expression at first. -/
theorem run_regrouped_newYear :
    run newYear freshHome ["next", "0 0", "-n", "2", "1 * *", "--start=2024-01-01"] =
      run newYear freshHome
        ["next", "-n", "2", "", "0\u20030", " ", "--start=2024-01-01", "1\t* \u00a0", "*"] ∧
    run newYear freshHome ["next", "-n", "2", "--start=2024-01-01"] =
      run newYear freshHome ["next", " ", "-n", "2", "\u3000", "--start=2024-01-01"] ∧
    run newYear freshHome ["next", "-n", "2", "--start=2024-01-01"] =
      run newYear freshHome ["next", "-n", "2", "--start=2024-01-01", "10 0-8/2 *", "* SUN,TUE"] := by
  have hcount : SwitchText nextSwitches ["-n", "2"] :=
    .valued (by decide) (by decide)
      (rfl : readSwitch nextSwitches ['-', 'n'] = .ok { waiting := some (.count, "-n") })
  have hstart : SwitchText nextSwitches ["--start=2024-01-01"] :=
    .complete (by decide) (by decide)
      (rfl : readSwitch nextSwitches _ = .ok { given := [⟨.start, "2024-01-01"⟩] })
  have hquiet : ∀ given, gather programSwitches [] = .ok given →
      ({ given } : Arguments ProgramSwitch).has .verbose = false := by
    intro given hgiven
    cases hgiven
    rfl
  have hnone : Spread nextSwitches twoFromNewYear [] ["-n", "2", "--start=2024-01-01"] :=
    .switch hcount (.switch hstart .nil)
  obtain ⟨schedule, hread, -⟩ : ∃ s, Schedule.read (joinWords ["0 0", "1 * *"]) = .ok s ∧ True :=
    Schedule.exists_read (by decide +kernel)
  obtain ⟨initial, hinitial, -⟩ : ∃ s, Schedule.read ({} : Settings).expression = .ok s ∧ True :=
    Schedule.exists_read (by decide +kernel)
  have htwo : Spread nextSwitches twoFromNewYear ["0 0", "1 * *"]
      ["0 0", "-n", "2", "1 * *", "--start=2024-01-01"] :=
    .word (by decide) (.switch hcount (.word (by decide) (.switch hstart .nil)))
  have hfive : Spread nextSwitches twoFromNewYear ["", "0\u20030", " ", "1\t* \u00a0", "*"]
      ["-n", "2", "", "0\u20030", " ", "--start=2024-01-01", "1\t* \u00a0", "*"] :=
    .switch hcount (.word (by decide) (.word (by decide) (.word (by decide)
      (.switch hstart (.word (by decide) (.word (by decide) .nil))))))
  have hblanks : Spread nextSwitches twoFromNewYear [" ", "\u3000"]
      [" ", "-n", "2", "\u3000", "--start=2024-01-01"] :=
    .word (by decide) (.switch hcount (.word (by decide) (.switch hstart .nil)))
  have hsome := run_regrouped (nextArguments_spread htwo) (nextArguments_spread hfive) hquiet
    (by decide +kernel) (fun _ => ⟨schedule, hread⟩) newYear freshHome
  have hblank := run_regrouped (nextArguments_spread hnone) (nextArguments_spread hblanks) hquiet
    (by decide +kernel) (fun h => absurd rfl h) newYear freshHome
  refine ⟨hsome.1, hblank.1, ?_⟩
  exact (hblank.2 rfl).2 [] {} { store := freshHome } initial rfl run_loadSettings_freshHome hinitial
    ["10 0-8/2 *", "* SUN,TUE"] _
    (nextArguments_spread (.switch hcount (.switch hstart (.word (by decide) (.word (by decide)
      .nil)))))
    (by decide +kernel)

end CronFire.CommandLine
