import CronFire.Proofs.Field.Reported
import CronFire.Proofs.Schedule.Rejected
/-!
# Which error is reported

Several words of an expression may be faulty, and several parts of a word.  The error that is
reported names the rightmost word that is not read, and in it the leftmost part that is none of
the grammar, with the first check that this part does not pass.  The error of the part becomes
that of the word and that of the field in turn; its kind stays.

Results:
* `HasShortRuns`, `not_isLongExpression`: where no run of digits is too long to convert, every
  expression that is not read is reported.
* `FieldKind.read_eq_reported_iff`: the error of a word.
* `reports_firstError`: the error of an expression.
-/
namespace CronFire

open Text

/-- The kind of fault that an error reports, if it is about a field. -/
def ExpressionError.faultKind? : ExpressionError → Option FaultKind
  | .missing => none
  | .wordCount .. => none
  | .field _ error => some error.fault.kind

/-! ## Runs of digits -/

/-- No run of digits is too long to convert. -/
def HasShortRuns (cs : List Char) : Prop :=
  ∀ run, run <:+: cs → (∀ c ∈ run, c.isDigit = true) → run.length ≤ digitLimit

theorem hasShortRuns_of_length_le {cs : List Char} (h : cs.length ≤ digitLimit) :
    HasShortRuns cs := fun _ hrun _ => Nat.le_trans hrun.length_le h

theorem IsLongNumeral.not_infix {cs run : List Char} (hrun : IsLongNumeral run)
    (hcs : HasShortRuns cs) : ¬ run <:+: cs := by
  intro h
  have := hcs run h hrun.1
  have := hrun.2
  omega

theorem infix_of_mem_splitOn {cs text : List Char} {sep : Char} (h : text ∈ cs.splitOn sep) :
    text <:+: cs := by
  obtain ⟨i, hi⟩ := List.mem_iff_getElem?.1 h
  have hmem : text ∈ (cs.splitOn sep).intersperse [sep] :=
    List.mem_of_getElem? (i := 2 * i) (by rw [List.getElem?_intersperse_two_mul, hi])
  have := List.infix_of_mem_flatten hmem
  rwa [← List.intercalate, List.intercalate_splitOn] at this

/-- Reading a part comes to a run that is too long only if there is one in it. -/
theorem IsLongBody.exists_run {d : Domain} {cs : List Char} (h : IsLongBody d cs) :
    ∃ run, IsLongNumeral run ∧ run <:+: cs := by
  cases h with
  | value hv => exact ⟨_, hv, List.infix_refl _⟩
  | first hv => exact ⟨_, hv, (List.prefix_append _ _).isInfix⟩
  | @second v w _ _ hw => exact ⟨w, hw, ⟨v ++ ['-'], [], by simp⟩⟩

theorem IsLongPart.exists_run {d : Domain} {cs : List Char} (h : IsLongPart d cs) :
    ∃ run, IsLongNumeral run ∧ run <:+: cs := by
  cases h with
  | alone _ hb => exact hb.exists_run
  | @step body n _ _ hn => exact ⟨n, hn, ⟨body ++ ['/'], [], by simp⟩⟩
  | stepped _ hb _ =>
    obtain ⟨run, hrun, hin⟩ := hb.exists_run
    exact ⟨run, hrun, hin.trans (List.prefix_append _ _).isInfix⟩

theorem IsLongToken.exists_run {d : Domain} {cs : List Char} (h : IsLongToken d cs) :
    ∃ run, IsLongNumeral run ∧ run <:+: cs := by
  obtain ⟨texts, text, later, hsplit, -, hlong⟩ := h
  obtain ⟨run, hrun, hin⟩ := hlong.exists_run
  have hmem : text ∈ cs.splitOn ',' := by
    rw [hsplit]
    simp
  exact ⟨run, hrun, hin.trans (infix_of_mem_splitOn hmem)⟩

/-! ## The error of a word -/

namespace FieldKind

theorem read_eq_reported_iff {kind : FieldKind} {token : Option String} {e : ExpressionError} :
    kind.read token = .error (.reported e) ↔ ∃ fault,
      Token.read kind.domain token = .error (.reported fault) ∧ e = .field kind ⟨token, fault⟩ := by
  unfold read Field.read
  cases Token.read kind.domain token with
  | ok parts => simp
  | error failure => cases failure <;> simp [Failure.map, eq_comm]

theorem exists_second_read : ∃ f, FieldKind.second.read (some defaultSecond) = .ok f :=
  ⟨_, rfl⟩

/-- A word that is not read was written in the expression. -/
theorem exists_word_of_read_eq_error {kind : FieldKind} {ws : List (List Char)}
    {failure : Failure ExpressionError} (hlen : ws.length = 5 ∨ ws.length = 6)
    (h : kind.read (some (String.ofList (kind.wordOf ws))) = .error failure) :
    ws.reverse[kind.place]? = some (kind.wordOf ws) := by
  unfold wordOf at h ⊢
  rw [List.getD_eq_getElem?_getD] at h ⊢
  cases hword : ws.reverse[kind.place]? with
  | some w => rfl
  | none =>
    -- only the word for the second may be missing, and the `0` in its place is read
    rw [hword] at h
    have hplace := List.getElem?_eq_none_iff.1 hword
    rw [List.length_reverse] at hplace
    cases kind with
    | second =>
      obtain ⟨f, hf⟩ := exists_second_read
      have : FieldKind.second.read (some (String.ofList ['0'])) = .ok f := hf
      rw [Option.getD_none, this] at h
      cases h
    | minute | hour | dayOfMonth | month | dayOfWeek => simp only [place] at hplace; omega

end FieldKind

/-- Reading the parts of a word stops at the leftmost one that is none of the grammar. -/
theorem Token.exists_firstFault {d : Domain} (hd : d.PlainNames) {w : List Char}
    (h : HasNoBlank w) {fault : Fault}
    (hr : read d (some (String.ofList w)) = .error (.reported fault)) :
    ∃ before text after kind, w.splitOn ',' = before ++ text :: after ∧
      (∀ t ∈ before, ∃ part, IsPart d t part) ∧ PartFault d text kind fault := by
  rw [read, String.toList_ofList, pieces_eq_splitOn] at hr
  obtain ⟨before, text, after, hsplit, hbefore, hfault⟩ := readParts_eq_error_iff.1 hr
  have hblank : ∀ t ∈ before ++ text :: after, HasNoBlank t := by
    rw [← hsplit, ← pieces_eq_splitOn]
    exact fun t ht c hc => h c (mem_of_mem_pieces ht hc)
  obtain ⟨kind, hp⟩ := partFault_of_readPart hd (hblank text (by simp)) hfault
  refine ⟨before, text, after, kind, hsplit, fun t ht => ?_, hp⟩
  obtain ⟨part, hpart⟩ := hbefore t ht
  exact ⟨part, (readPart_eq_ok_iff hd (hblank t (by simp [ht]))).1 hpart⟩

/-! ## The error of an expression -/

namespace Schedule

/-- Where no run of digits is too long, reading comes to none. -/
theorem not_isLongExpression {expression : String} (h : HasShortRuns expression.toList) :
    ¬ IsLongExpression expression := by
  intro hlong
  obtain ⟨ws, hws, -, kind, -, htoken⟩ := hlong
  obtain ⟨run, hrun, hin⟩ := htoken.exists_run
  unfold FieldKind.wordOf at hin
  rw [List.getD_eq_getElem?_getD] at hin
  cases hword : ws.reverse[kind.place]? with
  | none =>
    rw [hword] at hin
    have := hin.length_le
    have := hrun.2
    simp only [Option.getD_none, List.length_singleton, digitLimit] at *
    omega
  | some w =>
    rw [hword] at hin
    have hmem := List.mem_reverse.1 (List.mem_of_getElem? hword)
    exact hrun.not_infix h (hin.trans (hws.infix_of_mem hmem))

/-- **The error that is reported.** If an expression of five or six words is not read, and has no
run of digits too long to convert, then the error is that of the rightmost word that is not read;
in this word it is that of the leftmost part that is none of the grammar; and its kind is that of
the part's only fault.  The message names the field and the whole word. -/
theorem reports_firstError [Strays] {expression : String} {ws : List (List Char)}
    (hws : SplitsInto expression.toList ws) (hlen : ws.length = 5 ∨ ws.length = 6)
    (hshort : HasShortRuns expression.toList) (hrejected : ∀ s, read expression ≠ .ok s) :
    ∃ (field : FieldKind) (word : List Char) (kind : FaultKind) (fault : Fault)
      (error : ExpressionError), read expression = .error (.reported error) ∧
      (ws.reverse[field.place]? = some word ∧
        field.read (some (String.ofList word)) = .error (.reported error) ∧
        ∀ other : FieldKind, other.place < field.place →
          ∃ f, other.read (some (String.ofList (other.wordOf ws))) = .ok f) ∧
      (∃ before text after, word.splitOn ',' = before ++ text :: after ∧
        (∀ t ∈ before, ∃ part, IsPart field.domain t part) ∧
        ∀ kind' fault', PartFault field.domain text kind' fault' ↔ kind' = kind ∧ fault' = fault) ∧
      error = .field field ⟨some (String.ofList word), fault⟩ ∧ error.faultKind? = some kind ∧
      error.message = field.label ++ ": " ++
        ("can't parse token \"" ++ String.ofList word ++ "\": " ++ fault.message) := by
  rcases hread : read expression with (error | _) | s
  · rcases (read_eq_error_iff hws).1 hread with ⟨hcount, -⟩ | ⟨-, field, hright, hfail⟩
    · exact absurd hlen hcount
    · have hblank := field.hasNoBlank_wordOf hws.hasNoBlank
      have hword := FieldKind.exists_word_of_read_eq_error hlen hfail
      obtain ⟨fault, htoken, rfl⟩ := FieldKind.read_eq_reported_iff.1 hfail
      obtain ⟨before, text, after, kind, hsplit, hbefore, hp⟩ :=
        Token.exists_firstFault field.plainNames_domain hblank htoken
      have htext : HasNoBlank text := by
        have hmem : text ∈ (field.wordOf ws).splitOn ',' := by
          rw [hsplit]
          simp
        exact fun c hc => hblank c ((infix_of_mem_splitOn hmem).subset hc)
      refine ⟨field, _, kind, fault, _, rfl, ⟨hword, hfail, hright⟩,
        ⟨before, text, after, hsplit, hbefore, fun kind' fault' => ⟨fun hp' => ?_, ?_⟩⟩, rfl,
        congrArg some hp.kind_eq, rfl⟩
      · exact hp.unique field.plainNames_domain htext hp'
      · rintro ⟨rfl, rfl⟩
        exact hp
  · exact absurd (read_eq_tooLong_iff.1 hread) (not_isLongExpression hshort)
  · exact absurd hread (hrejected s)

attribute [local instance] Strays.none

/-- Of four faulty words the month is reported, in it the second part, and of this the number that
is too great and not the unknown name. -/
theorem reports_firstError_month : ∃ error,
    read "61 24 / Jan,13-foo,x/y SUN" = .error (.reported error) ∧
      error.faultKind? = some .outOfRange ∧
      error.message = "month: can't parse token \"Jan,13-foo,x/y\": 13 is out of [1, 12]" ∧
      ∃ before text after, "Jan,13-foo,x/y".toList.splitOn ',' = before ++ text :: after ∧
        (∀ t ∈ before, ∃ part, IsPart FieldKind.month.domain t part) ∧
        PartFault FieldKind.month.domain text .outOfRange (.outOfRange 13 1 12) := by
  have hread : read "61 24 / Jan,13-foo,x/y SUN" =
      .error (.reported (.field .month ⟨some "Jan,13-foo,x/y", .outOfRange 13 1 12⟩)) := by
    decide +kernel
  have hws : SplitsInto "61 24 / Jan,13-foo,x/y SUN".toList
      ["61".toList, "24".toList, "/".toList, "Jan,13-foo,x/y".toList, "SUN".toList] :=
    splitsInto_iff.2 (by decide +kernel)
  obtain ⟨field, word, kind, fault, error, herror, -, ⟨before, text, after, hsplit, hbefore, hp⟩,
    hfield, hkind, -⟩ := reports_firstError hws (.inl rfl)
      (hasShortRuns_of_length_le (by decide +kernel)) (by simp [hread])
  subst hfield
  rw [hread] at herror
  simp only [Except.error.injEq, Failure.reported.injEq, ExpressionError.field.injEq,
    FieldError.mk.injEq, Option.some.injEq] at herror
  obtain ⟨rfl, hword, rfl⟩ := herror
  obtain rfl : FaultKind.outOfRange = kind := Option.some.inj hkind
  rw [← String.toList_ofList (l := word), ← hword] at hsplit
  exact ⟨_, hread, rfl, by decide +kernel, before, text, after, hsplit, hbefore,
    (hp _ _).2 ⟨rfl, rfl⟩⟩

end Schedule

end CronFire
