import CronFire.Settings.Keeper
import CronFire.Proofs.Toml.Lines
import CronFire.Proofs.Toml.Numerals
/-!
# Documents of settings

The document of settings takes their three texts as they are.  It can be read again, and gives
the same settings, exactly when the texts are plain: a quote, a backslash or a control character
in one of them ends it early, begins an escape or breaks its line.

* `interpret_render_iff`: the document of settings stands for them if and only if they are plain.
-/
namespace CronFire.Settings

open CronFire.Toml CronFire.Text

/-- All three texts are plain. -/
def IsPlain (s : Settings) : Prop :=
  Toml.IsPlain s.title.toList ∧ Toml.IsPlain s.pattern.toList ∧ Toml.IsPlain s.expression.toList

instance : DecidablePred IsPlain := fun _ => inferInstanceAs (Decidable (_ ∧ _))

/-! ## The document by its lines -/

/-- The line with the expression, which is the last one. -/
def expressionPart (expression : List Char) : List Char :=
  "expression = \"".toList ++ (expression ++ "\"\n".toList)

/-- The document from the line with the count on. -/
def countPart (count : Nat) (expression : List Char) : List Char :=
  "count = ".toList ++ (digits count ++ ("\n".toList ++ ("\n".toList ++
    ("# expression: str\n".toList ++
    ("# the cron expression \"croncalc next\" uses when none is given.\n".toList ++
    ("# Five fields (minute hour day-of-month month day-of-week) or six\n".toList ++
    ("# with a leading seconds field.\n".toList ++ expressionPart expression)))))))

/-- The document from the line with the switch on. -/
def switchPart (showWeekday : Bool) (count : Nat) (expression : List Char) : List Char :=
  "show_weekday = ".toList ++ ((if showWeekday then "true" else "false").toList ++
    ("\n".toList ++ ("\n".toList ++ ("[search]\n".toList ++
    ("# count: int >= 1\n".toList ++
    ("# how many fire times \"croncalc next\" prints when -n is not given\n".toList ++
      countPart count expression))))))

/-- The document from the line with the pattern on. -/
def patternPart (pattern : List Char) (showWeekday : Bool) (count : Nat)
    (expression : List Char) : List Char :=
  "datetime_format = \"".toList ++ (pattern ++ ("\"\n".toList ++ ("\n".toList ++
    ("# show_weekday: bool = true | false\n".toList ++
    ("# append the weekday name after each fire time\n".toList ++
      switchPart showWeekday count expression)))))

/-- The whole document. -/
def titlePart (title pattern : List Char) (showWeekday : Bool) (count : Nat)
    (expression : List Char) : List Char :=
  "title = \"".toList ++ (title ++ ("\"\n".toList ++ ("\n".toList ++ ("[output]\n".toList ++
    ("# datetime_format: str = any strftime format\n".toList ++
    ("# used for each fire time printed by \"croncalc next\"\n".toList ++
      patternPart pattern showWeekday count expression))))))

theorem toList_render (s : Settings) :
    s.render.toList =
      titlePart s.title.toList s.pattern.toList s.showWeekday s.count s.expression.toList := by
  unfold render titlePart patternPart switchPart countPart expressionPart
  simp only [String.toList_append, toList_decimal, List.append_assoc]

/-! ## Reading the document line by line -/

section Reading

variable {title pattern expression : List Char} {showWeekday : Bool} {count : Nat}

/-- What is read before the lines of the output settings. -/
def outputDraft (title : List Char) : Draft :=
  { entries := [("output", .table []), ("title", .string (String.ofList title))],
    header := ["output"], opened := [["output"]] }

/-- What is read before the line with the switch. -/
def switchDraft (title pattern : List Char) : Draft :=
  { outputDraft title with
    entries := [("output", .table [("datetime_format", .string (String.ofList pattern))]),
      ("title", .string (String.ofList title))] }

/-- The output settings once they are read. -/
def outputTable (pattern : List Char) (showWeekday : Bool) : Table :=
  [("show_weekday", .boolean showWeekday), ("datetime_format", .string (String.ofList pattern))]

/-- What is read up to the search settings, of which `search` is read. -/
def searchDraft (title pattern : List Char) (showWeekday : Bool) (search : Table) : Draft :=
  { entries := [("search", .table search), ("output", .table (outputTable pattern showWeekday)),
      ("title", .string (String.ofList title))],
    header := ["search"], opened := [["search"], ["output"]] }

theorem readLines_titlePart (h : Toml.IsPlain title) (fuel : Nat) :
    readLines (fuel + 5) {} (titlePart title pattern showWeekday count expression) =
      readLines fuel (outputDraft title) (patternPart pattern showWeekday count expression) := by
  have hassign : Draft.assign {} ["title"] (.string (String.ofList title)) =
      .ok { entries := [("title", .string (String.ofList title))] } := rfl
  have hopen : Draft.openTable { entries := [("title", .string (String.ofList title))] }
      ["output"] = .ok (outputDraft title) := rfl
  unfold titlePart
  rw [readLines_text "title" (by decide) (by decide) h, hassign, ok_bind,
    readLines_empty, readLines_header "output" (by decide) (by decide), hopen, ok_bind,
    readLines_comment (.of_ofList (by decide)), readLines_comment (.of_ofList (by decide))]

theorem readLines_patternPart (h : Toml.IsPlain pattern) (fuel : Nat) :
    readLines (fuel + 4) (outputDraft title) (patternPart pattern showWeekday count expression) =
      readLines fuel (switchDraft title pattern) (switchPart showWeekday count expression) := by
  have hassign : (outputDraft title).assign ["datetime_format"] (.string (String.ofList pattern)) =
      .ok (switchDraft title pattern) := rfl
  unfold patternPart
  rw [readLines_text "datetime_format" (by decide) (by decide) h, hassign, ok_bind,
    readLines_empty, readLines_comment (.of_ofList (by decide)),
    readLines_comment (.of_ofList (by decide))]

theorem readLines_switchPart (fuel : Nat) :
    readLines (fuel + 5) (switchDraft title pattern) (switchPart showWeekday count expression) =
      readLines fuel (searchDraft title pattern showWeekday []) (countPart count expression) := by
  have hvalue (rest : List Char) :
      readValue (skipSpaces ((if showWeekday then "true" else "false").toList ++
        ("\n".toList ++ rest))) = .ok (.boolean showWeekday, '\n' :: rest) := by
    cases showWeekday <;> rfl
  have hassign : (switchDraft title pattern).assign ["show_weekday"] (.boolean showWeekday) =
      .ok { switchDraft title pattern with
        entries := [("output", .table (outputTable pattern showWeekday)),
          ("title", .string (String.ofList title))] } := rfl
  have hopen : Draft.openTable { switchDraft title pattern with
        entries := [("output", .table (outputTable pattern showWeekday)),
          ("title", .string (String.ofList title))] } ["search"] =
      .ok (searchDraft title pattern showWeekday []) := rfl
  unfold switchPart
  rw [readLines_assign "show_weekday" (by decide) (by decide) (hvalue _), hassign, ok_bind,
    readLines_empty, readLines_header "search" (by decide) (by decide), hopen, ok_bind,
    readLines_comment (.of_ofList (by decide)), readLines_comment (.of_ofList (by decide))]

theorem readLines_countPart (hcount : 1 ≤ count) (hlength : (digits count).length ≤ digitLimit)
    (fuel : Nat) :
    readLines (fuel + 6) (searchDraft title pattern showWeekday []) (countPart count expression) =
      readLines fuel (searchDraft title pattern showWeekday [("count", .integer count)])
        (expressionPart expression) := by
  have hvalue (rest : List Char) :
      readValue (skipSpaces (digits count ++ ("\n".toList ++ rest))) =
        .ok (.integer count, '\n' :: rest) := readValue_digits hcount hlength rest
  have hassign : (searchDraft title pattern showWeekday []).assign ["count"] (.integer count) =
      .ok (searchDraft title pattern showWeekday [("count", .integer count)]) := rfl
  unfold countPart
  rw [readLines_assign "count" (by decide) (by decide) (hvalue _), hassign, ok_bind,
    readLines_empty, readLines_comment (.of_ofList (by decide)),
    readLines_comment (.of_ofList (by decide)), readLines_comment (.of_ofList (by decide)),
    readLines_comment (.of_ofList (by decide))]

theorem readLines_expressionPart (h : Toml.IsPlain expression) (fuel : Nat) :
    readLines (fuel + 2) (searchDraft title pattern showWeekday [("count", .integer count)])
        (expressionPart expression) =
      .ok (searchDraft title pattern showWeekday
        [("expression", .string (String.ofList expression)), ("count", .integer count)]) := by
  have hassign : (searchDraft title pattern showWeekday [("count", .integer count)]).assign
      ["expression"] (.string (String.ofList expression)) =
      .ok (searchDraft title pattern showWeekday
        [("expression", .string (String.ofList expression)), ("count", .integer count)]) := rfl
  have hpart : expressionPart expression =
      "expression = \"".toList ++ (expression ++ ("\"\n".toList ++ [])) := rfl
  rw [hpart, readLines_text "expression" (by decide) (by decide) h, hassign]
  rfl

end Reading

/-! ## What is read is what was written -/

theorem ofTable?_searchDraft {s : Settings} (h : 1 ≤ s.count) :
    ofTable? (searchDraft s.title.toList s.pattern.toList s.showWeekday
      [("expression", .string (String.ofList s.expression.toList)),
        ("count", .integer s.count)]).entries = some s := by
  have hcount : acceptCount? (.integer s.count) = some s.count := by
    have : (1 : Int) ≤ s.count := by exact_mod_cast h
    simp [acceptCount?, wholeNumber?, this]
  simp [ofTable?, searchDraft, outputTable, setting?, List.lookup_cons, acceptText?, acceptTable?,
    acceptSwitch?, hcount]

/-! ### Line ends -/

theorem not_mem_ofList {c : Char} {cs : List Char} (h : c ∉ cs) :
    c ∉ (String.ofList cs).toList := by
  rwa [String.toList_ofList]

theorem joinLineEnds_titlePart (title pattern : List Char) (showWeekday : Bool) (count : Nat)
    (expression : List Char) :
    joinLineEnds (titlePart title pattern showWeekday count expression) =
      titlePart (joinLineEnds title) (joinLineEnds pattern) showWeekday count
        (joinLineEnds expression) := by
  have hswitch : '\r' ∉ (if showWeekday then "true" else "false").toList := by
    cases showWeekday <;> decide
  have hdigits : '\r' ∉ digits count := by
    intro h
    cases List.all_eq_true.mp (all_isDigit_digits count) _ h
  have hlast : joinLineEnds (expression ++ "\"\n".toList) =
      joinLineEnds expression ++ "\"\n".toList := joinLineEnds_text expression []
  unfold titlePart patternPart switchPart countPart expressionPart
  simp (disch := first | with_reducible assumption | (refine not_mem_ofList ?_; decide)) only
    [joinLineEnds_text, hlast, joinLineEnds_append]

theorem joinLineEnds_of_isPlain {cs : List Char} (h : Toml.IsPlain cs) : joinLineEnds cs = cs := by
  have hreturn : '\r' ∉ cs := fun hmem => absurd (h _ hmem) (by decide)
  have := joinLineEnds_append hreturn []
  rwa [joinLineEnds, List.append_nil] at this

/-- A document of plain texts has no carriage return. -/
theorem not_mem_render {s : Settings} (h : s.IsPlain) : '\r' ∉ s.render.toList := by
  have htext {cs : List Char} (h : Toml.IsPlain cs) : '\r' ∉ cs :=
    fun hmem => absurd (h _ hmem) (by decide)
  have htitle := htext h.1
  have hpattern := htext h.2.1
  have hexpression := htext h.2.2
  have hswitch : '\r' ∉ (if s.showWeekday then "true" else "false").toList := by
    cases s.showWeekday <;> decide
  have hdigits : '\r' ∉ digits s.count := by
    intro h
    cases List.all_eq_true.mp (all_isDigit_digits s.count) _ h
  rw [toList_render]
  unfold titlePart patternPart switchPart countPart expressionPart
  simp only [List.mem_append, not_or]
  and_intros <;> first | with_reducible assumption | (refine not_mem_ofList ?_; decide)

/-! ### Both directions -/

/-- The lines of the document as they are read. -/
def joinedRender (s : Settings) : List Char :=
  titlePart (joinLineEnds s.title.toList) (joinLineEnds s.pattern.toList) s.showWeekday s.count
    (joinLineEnds s.expression.toList)

theorem read_render (s : Settings) :
    Toml.read s.render =
      (readLines (s.joinedRender.length + 1) {} s.joinedRender).map Draft.entries := by
  rw [Toml.read, toList_render, joinLineEnds_titlePart]
  rfl

theorem exists_fuel (s : Settings) : ∃ fuel, s.joinedRender.length + 1 = fuel + 22 := by
  have hcomment : "# datetime_format: str = any strftime format\n".toList.length = 45 := by
    rw [String.length_toList]
    decide
  refine ⟨s.joinedRender.length - 21, ?_⟩
  unfold joinedRender titlePart
  simp only [List.length_append, hcomment]
  omega

theorem setting?_of_lookup {α : Type} {accept? : Value → Option α} {default : α} {t : Table}
    {key : String} {v : Value} (h : t.lookup key = some v) :
    setting? accept? default t key = accept? v := by
  rw [setting?, h]

/-- Where the settings of a table come from. -/
theorem ofTable?_inv {t : Table} {s : Settings} (h : ofTable? t = some s) :
    ∃ output search : Table, ∃ defaults : Settings,
      setting? acceptText? defaults.title t "title" = some s.title ∧
      setting? acceptTable? [] t "output" = some output ∧
      setting? acceptText? defaults.pattern output "datetime_format" = some s.pattern ∧
      setting? acceptTable? [] t "search" = some search ∧
      setting? acceptCount? 9 search "count" = some s.count ∧
      setting? acceptText? defaults.expression search "expression" = some s.expression := by
  obtain ⟨title, htitle, h⟩ := Option.bind_eq_some_iff.mp h
  obtain ⟨output, houtput, h⟩ := Option.bind_eq_some_iff.mp h
  obtain ⟨pattern, hpattern, h⟩ := Option.bind_eq_some_iff.mp h
  obtain ⟨showWeekday, -, h⟩ := Option.bind_eq_some_iff.mp h
  obtain ⟨search, hsearch, h⟩ := Option.bind_eq_some_iff.mp h
  obtain ⟨count, hcount, h⟩ := Option.bind_eq_some_iff.mp h
  obtain ⟨expression, hexpression, h⟩ := Option.bind_eq_some_iff.mp h
  cases h
  exact ⟨output, search, {}, htitle, houtput, hpattern, hsearch, hcount, hexpression⟩

/-- No count below one is accepted. -/
theorem one_le_count_of_ofTable? {t : Table} {s : Settings} (h : ofTable? t = some s) :
    1 ≤ s.count := by
  obtain ⟨output, search, defaults, -, -, -, -, hcount, -⟩ := ofTable?_inv h
  unfold setting? at hcount
  split at hcount
  · rw [← Option.some.inj hcount]
    decide
  · obtain ⟨n, -, hn⟩ := Option.bind_eq_some_iff.mp hcount
    split at hn
    · rw [← Option.some.inj hn]
      omega
    · cases hn

/-- A text that a table has for a setting is what the setting is read as. -/
theorem texts_of_ofTable? {t : Table} {s : Settings} (h : ofTable? t = some s) :
    (∀ v, t.Says ["title"] v → s.title = v) ∧
      (∀ v, t.Says ["output", "datetime_format"] v → s.pattern = v) ∧
      (∀ v, t.Says ["search", "expression"] v → s.expression = v) := by
  obtain ⟨output, search, defaults, htitle, houtput, hpattern, hsearch, -, hexpression⟩ :=
    ofTable?_inv h
  refine ⟨fun v hv => ?_, fun v hv => ?_, fun v hv => ?_⟩
  · rw [setting?_of_lookup hv] at htitle
    exact (Option.some.inj htitle).symm
  · obtain ⟨inner, hinner, hv⟩ := hv
    rw [setting?_of_lookup hinner] at houtput
    cases houtput
    rw [setting?_of_lookup hv] at hpattern
    exact (Option.some.inj hpattern).symm
  · obtain ⟨inner, hinner, hv⟩ := hv
    rw [setting?_of_lookup hinner] at hsearch
    cases hsearch
    rw [setting?_of_lookup hv] at hexpression
    exact (Option.some.inj hexpression).symm

theorem interpret_eq_ok_iff {text : String} {s : Settings} :
    Keeper.interpret text = .ok (.ok s) ↔ ∃ t, Toml.read text = .ok t ∧ ofTable? t = some s := by
  unfold Keeper.interpret
  cases hread : Toml.read text with
  | error fault => cases fault <;> simp
  | ok t =>
    cases htable : ofTable? t with
    | none => simp [htable]
    | some settings => simp [htable]

theorem countTooLong_of_lt {s : Settings} (h : s.count < 10) : s.countTooLong = false := by
  have hshort := lt_pow_digitLimit h
  unfold countTooLong
  generalize digitLimit = limit at hshort ⊢
  exact decide_eq_false (Nat.not_le.mpr hshort)

theorem length_digits_of_countTooLong {s : Settings} (h : s.countTooLong = false) :
    (digits s.count).length ≤ digitLimit := by
  have hlimit : 0 < digitLimit := by decide
  unfold countTooLong at h
  -- The limit is kept out of sight: nobody should work out the power.
  generalize digitLimit = limit at h hlimit ⊢
  exact length_digits_le hlimit (Nat.not_le.mp (of_decide_eq_false h))

theorem countTooLong_of_length_digits {s : Settings} (h : (digits s.count).length ≤ digitLimit) :
    s.countTooLong = false := by
  have hpow := lt_pow_length_digits s.count
  unfold countTooLong
  generalize digitLimit = limit at h ⊢
  exact decide_eq_false (Nat.not_le.mpr
    (Nat.lt_of_lt_of_le hpow (Nat.pow_le_pow_right (by decide) h)))

theorem interpret_render {s : Settings} (hcount : 1 ≤ s.count) (hlong : s.countTooLong = false)
    (h : s.IsPlain) : Keeper.interpret s.render = .ok (.ok s) := by
  obtain ⟨htitle, hpattern, hexpression⟩ := h
  obtain ⟨fuel, hfuel⟩ := exists_fuel s
  refine interpret_eq_ok_iff.mpr ⟨_, ?_, ofTable?_searchDraft hcount⟩
  rw [read_render, hfuel]
  unfold joinedRender
  rw [joinLineEnds_of_isPlain htitle, joinLineEnds_of_isPlain hpattern,
    joinLineEnds_of_isPlain hexpression, readLines_titlePart htitle,
    readLines_patternPart hpattern, readLines_switchPart,
    readLines_countPart hcount (length_digits_of_countTooLong hlong),
    readLines_expressionPart hexpression]
  rfl

/-- A text whose line gives its key that very text is plain. -/
theorem isPlain_of_readLines (name : String) {opening text : String} {gap more rest : List Char}
    (hname : IsBare name.toList) (hopening : opening.toList = name.toList ++ [' ', '=', ' ', '"'])
    (hrest : '\n' :: rest = gap ++ more) (hgap : '"' ∉ gap) (hmore : more = [] ∨ '[' ∈ gap)
    {fuel : Nat} {d d' : Draft}
    (hread : readLines fuel d
      (opening.toList ++ (joinLineEnds text.toList ++ ("\"\n".toList ++ rest))) = .ok d')
    (hsaid : ∀ v d₁, d.assign [name] (.string v) = .ok d₁ → d₁.entries.Keeps d'.entries →
      text = v) :
    Toml.IsPlain text.toList := by
  obtain ⟨v, left, d₁, hstring, hassign, hkeeps⟩ :=
    exists_string_of_readLines name hname hopening hread
  obtain rfl : text.toList = v := by rw [hsaid _ d₁ hassign hkeeps, String.toList_ofList]
  have hlength := length_joinLineEnds_le text.toList
  have hcount := count_joinLineEnds text.toList
  rw [hrest] at hstring
  exact (string_written hstring hgap hmore hlength (Nat.le_of_eq hcount.symm)).2

section Written

variable {title pattern expression : String} {titleChars patternChars expressionChars : List Char}
  {showWeekday : Bool} {count fuel : Nat} {d : Draft}

theorem isPlain_title (hread : readLines fuel {} (titlePart (joinLineEnds title.toList)
      patternChars showWeekday count expressionChars) = .ok d)
    (hsaid : ∀ v, d.entries.Says ["title"] v → title = v) : Toml.IsPlain title.toList := by
  unfold titlePart at hread
  have hrest (rest : List Char) : '\n' :: ("\n".toList ++ ("[output]\n".toList ++ rest)) =
      "\n\n[output]\n".toList ++ rest := rfl
  refine isPlain_of_readLines "title" (by decide) (by decide) (hrest _) (by decide)
    (.inr (by decide)) hread fun v d₁ hassign hkeeps => ?_
  cases hassign
  exact hsaid v (hkeeps ["title"] v rfl)

/-- What stands between the pattern and the next header. -/
def patternGap (showWeekday : Bool) : List Char :=
  "\n".toList ++ ("\n".toList ++ ("# show_weekday: bool = true | false\n".toList ++
    ("# append the weekday name after each fire time\n".toList ++ ("show_weekday = ".toList ++
      ((if showWeekday then "true" else "false").toList ++
        ("\n".toList ++ ("\n".toList ++ "[search]\n".toList)))))))

theorem patternGap_append (showWeekday : Bool) (rest : List Char) :
    '\n' :: ("\n".toList ++ ("# show_weekday: bool = true | false\n".toList ++
      ("# append the weekday name after each fire time\n".toList ++ ("show_weekday = ".toList ++
      ((if showWeekday then "true" else "false").toList ++ ("\n".toList ++ ("\n".toList ++
      ("[search]\n".toList ++ rest)))))))) = patternGap showWeekday ++ rest := by
  unfold patternGap
  simp only [List.append_assoc]
  exact List.cons_append

theorem isPlain_pattern (hread : readLines fuel (outputDraft titleChars)
      (patternPart (joinLineEnds pattern.toList) showWeekday count expressionChars) = .ok d)
    (hsaid : ∀ v, d.entries.Says ["output", "datetime_format"] v → pattern = v) :
    Toml.IsPlain pattern.toList := by
  unfold patternPart switchPart at hread
  refine isPlain_of_readLines "datetime_format" (by decide) (by decide)
    (patternGap_append showWeekday _) (by cases showWeekday <;> decide)
    (.inr (by cases showWeekday <;> decide)) hread fun v d₁ hassign hkeeps => ?_
  cases hassign
  exact hsaid v (hkeeps ["output", "datetime_format"] v ⟨_, rfl, rfl⟩)

theorem isPlain_expression (hread : readLines fuel
      (searchDraft titleChars patternChars showWeekday [("count", .integer count)])
      (expressionPart (joinLineEnds expression.toList)) = .ok d)
    (hsaid : ∀ v, d.entries.Says ["search", "expression"] v → expression = v) :
    Toml.IsPlain expression.toList := by
  have hpart : expressionPart (joinLineEnds expression.toList) =
      "expression = \"".toList ++ (joinLineEnds expression.toList ++ ("\"\n".toList ++ [])) := rfl
  rw [hpart] at hread
  have hrest : ['\n'] = ['\n'] ++ [] := rfl
  refine isPlain_of_readLines "expression" (by decide) (by decide) hrest (by decide) (.inl rfl)
    hread fun v d₁ hassign hkeeps => ?_
  cases hassign
  exact hsaid v (hkeeps ["search", "expression"] v ⟨_, rfl, rfl⟩)

end Written

theorem isPlain_of_interpret_render {s : Settings} (hcount : 1 ≤ s.count)
    (hlong : s.countTooLong = false) (h : Keeper.interpret s.render = .ok (.ok s)) :
    s.IsPlain := by
  obtain ⟨t, hread, htable⟩ := interpret_eq_ok_iff.mp h
  obtain ⟨htitle, hpattern, hexpression⟩ := texts_of_ofTable? htable
  obtain ⟨fuel, hfuel⟩ := exists_fuel s
  rw [read_render, hfuel] at hread
  obtain ⟨d, hlines, rfl⟩ := map_eq_ok_iff.mp hread
  unfold joinedRender at hlines
  have hplain₁ : Toml.IsPlain s.title.toList := isPlain_title hlines htitle
  rw [joinLineEnds_of_isPlain hplain₁, readLines_titlePart hplain₁] at hlines
  have hplain₂ : Toml.IsPlain s.pattern.toList := isPlain_pattern hlines hpattern
  rw [joinLineEnds_of_isPlain hplain₂, readLines_patternPart hplain₂, readLines_switchPart,
    readLines_countPart hcount (length_digits_of_countTooLong hlong)] at hlines
  exact ⟨hplain₁, hplain₂, isPlain_expression hlines hexpression⟩

/-- The document of settings stands for these settings exactly when their texts are plain. -/
theorem interpret_render_iff {s : Settings} (hcount : 1 ≤ s.count)
    (hlong : s.countTooLong = false) :
    Keeper.interpret s.render = .ok (.ok s) ↔ s.IsPlain :=
  ⟨isPlain_of_interpret_render hcount hlong, interpret_render hcount hlong⟩

end CronFire.Settings
