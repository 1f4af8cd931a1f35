import CronFire.Proofs.Field.Overlong
import CronFire.Proofs.Schedule.Accepted
/-!
# The expressions that are no schedules

An expression that is no schedule is reported with an error, but for one kind of it: where reading
comes to a run of digits too long to convert, it ends without a report.  Reading comes to the
words from the right and, in a word, to the parts from the left, and ends at the first that fails.

Results:
* `read_eq_error_iff`: the rightmost word that fails decides how reading ends.
* `read_eq_tooLong_iff`: the expressions that are neither read nor reported.
-/
namespace CronFire

open Text

theorem Failure.map_eq_tooLong_iff {ε δ : Type} {f : ε → δ} {failure : Failure ε} :
    failure.map f = .numeralTooLong ↔ failure = .numeralTooLong := by
  cases failure with
  | reported e => simp [Failure.map]
  | numeralTooLong => simp [Failure.map]

namespace FieldKind

theorem read_eq_tooLong_iff {kind : FieldKind} {w : List Char} (h : HasNoBlank w) :
    kind.read (some (String.ofList w)) = .error .numeralTooLong ↔ IsLongToken kind.domain w := by
  have hblank : HasNoBlank (String.ofList w).toList := by simpa using h
  have htoken := Token.read_eq_tooLong_iff kind.plainNames_domain hblank
  rw [String.toList_ofList] at htoken
  rw [← htoken]
  unfold read Field.read
  cases Token.read kind.domain (some (String.ofList w)) with
  | error failure => simp [Failure.map_eq_tooLong_iff]
  | ok parts => simp

/-- A word is read exactly if it is a token of the grammar. -/
theorem exists_read_iff {kind : FieldKind} {w : List Char} (h : HasNoBlank w) :
    (∃ f, kind.read (some (String.ofList w)) = .ok f) ↔ ∃ parts, IsToken kind.domain w parts := by
  have hblank : HasNoBlank (String.ofList w).toList := by simpa using h
  have htoken (parts : List Part) : Token.read kind.domain (some (String.ofList w)) = .ok parts ↔
      IsToken kind.domain w parts := by
    rw [Token.read_eq_ok_iff kind.plainNames_domain hblank, String.toList_ofList]
  simp only [read_eq_ok_iff, Field.read_eq_ok_iff, htoken]
  constructor
  · intro hx
    obtain ⟨f, parts, hparts, -⟩ := hx
    exact ⟨parts, hparts⟩
  · intro hx
    obtain ⟨parts, hparts⟩ := hx
    exact ⟨_, parts, hparts, rfl⟩

end FieldKind

namespace Schedule

/-- One of the kinds, in the order in which the fields are read. -/
theorem exists_kind_iff {P : FieldKind → Prop} : (∃ kind, P kind) ↔ P .dayOfWeek ∨ P .month ∨
    P .dayOfMonth ∨ P .hour ∨ P .minute ∨ P .second := by
  constructor
  · intro hx
    obtain ⟨kind, h⟩ := hx
    cases kind <;> simp [h]
  · intro hx
    rcases hx with h | h | h | h | h | h <;> exact ⟨_, h⟩

theorem ofWords_eq_error_iff (word : FieldKind → String) {failure : Failure ExpressionError} :
    ofWords (word .second) (word .minute) (word .hour) (word .dayOfMonth) (word .month)
        (word .dayOfWeek) = .error failure ↔
      ∃ kind : FieldKind, (∀ other : FieldKind, other.place < kind.place →
        ∃ f, other.read (word other) = .ok f) ∧ kind.read (word kind) = .error failure := by
  simp only [ofWords, bind_eq_error_iff, exists_kind_iff, forall_kind_iff, FieldKind.place]
  simp [and_or_left, exists_or, and_assoc]

/-- The rightmost word that fails decides how reading ends. -/
theorem read_eq_error_iff {expression : String} {failure : Failure ExpressionError}
    {ws : List (List Char)} (h : SplitsInto expression.toList ws) :
    read expression = .error failure ↔
      ¬ (ws.length = 5 ∨ ws.length = 6) ∧
          failure = .reported (.wordCount ws.length expression) ∨
        (ws.length = 5 ∨ ws.length = 6) ∧ ∃ kind : FieldKind,
          (∀ other : FieldKind, other.place < kind.place →
            ∃ f, other.read (some (String.ofList (other.wordOf ws))) = .ok f) ∧
          kind.read (some (String.ofList (kind.wordOf ws))) = .error failure := by
  have hwords (failure : Failure ExpressionError) :=
    @ofWords_eq_error_iff (fun kind => String.ofList (kind.wordOf ws)) failure
  unfold read expressionWords
  rw [splitsInto_iff.1 h]
  rcases ws with _ | ⟨a, _ | ⟨b, _ | ⟨c, _ | ⟨d, _ | ⟨e, _ | ⟨f, _ | ⟨g, ws⟩⟩⟩⟩⟩⟩⟩
  case cons.cons.cons.cons.cons.nil =>
    simpa [FieldKind.wordOf, FieldKind.place, defaultSecond] using hwords failure
  case cons.cons.cons.cons.cons.cons.nil =>
    simpa [FieldKind.wordOf, FieldKind.place] using hwords failure
  all_goals simp [eq_comm]

/-- Reading an expression comes to a run of digits too long to convert: in some word, the words on
the right of which are fine. -/
def IsLongExpression (expression : String) : Prop :=
  ∃ ws, SplitsInto expression.toList ws ∧ (ws.length = 5 ∨ ws.length = 6) ∧
    ∃ kind : FieldKind, (∀ other : FieldKind, other.place < kind.place →
        ∃ parts, IsToken other.domain (other.wordOf ws) parts) ∧
      IsLongToken kind.domain (kind.wordOf ws)

theorem read_eq_tooLong_iff {expression : String} :
    read expression = .error .numeralTooLong ↔ IsLongExpression expression := by
  have hiff : ∀ {ws}, SplitsInto expression.toList ws → (read expression = .error .numeralTooLong ↔
      (ws.length = 5 ∨ ws.length = 6) ∧ ∃ kind : FieldKind,
        (∀ other : FieldKind, other.place < kind.place →
          ∃ parts, IsToken other.domain (other.wordOf ws) parts) ∧
        IsLongToken kind.domain (kind.wordOf ws)) := by
    intro ws hws
    have hblank := fun kind : FieldKind => kind.hasNoBlank_wordOf hws.hasNoBlank
    simp only [read_eq_error_iff hws, reduceCtorEq, and_false, false_or,
      FieldKind.exists_read_iff (hblank _), FieldKind.read_eq_tooLong_iff (hblank _)]
  constructor
  · intro h
    have hws := splitsInto_words expression.toList
    exact ⟨_, hws, (hiff hws).1 h⟩
  · intro h
    obtain ⟨ws, hws, hlong⟩ := h
    exact (hiff hws).2 hlong

/-- A minute that is too long to convert, after four words that are fine. -/
theorem isLongExpression_of_minute {ds : List Char} (h : IsLongNumeral ds) :
    IsLongExpression (String.ofList ds ++ " * * * *") := by
  have hblank : HasNoBlank ds := fun c hc => isBlank_of_isDigit (h.1 c hc)
  have hsplit : SplitsInto (ds ++ [' ', '*', ' ', '*', ' ', '*', ' ', '*'])
      [ds, ['*'], ['*'], ['*'], ['*']] :=
    .word h.ne_nil hblank (fun c hc => by cases hc; rfl) (splitsInto_iff.2 (by decide))
  have hstar : ∀ d, ∃ parts, IsToken d ['*'] parts := fun d =>
    ⟨[.every 1], [['*']], by decide, rfl, .cons .star .nil⟩
  refine ⟨_, by simpa using hsplit, .inl rfl, .minute, fun other hplace => ?_, ?_⟩
  · cases other with
    | dayOfWeek | month | dayOfMonth | hour => exact hstar _
    | minute | second => exact absurd hplace (by decide)
  · exact ⟨[], ds, [], List.splitOn_eq_singleton (h.not_mem (by decide)), by simp,
      .alone (h.not_mem (by decide)) (.value h)⟩

/-- A text is never a missing expression. -/
theorem ne_missing_of_read {expression : String} {e : ExpressionError}
    (h : read expression = .error (.reported e)) : e ≠ .missing := by
  intro he
  subst he
  rcases (read_eq_error_iff (splitsInto_words _)).1 h with ⟨-, hcount⟩ | ⟨-, kind, -, hfail⟩
  · cases hcount
  · unfold FieldKind.read at hfail
    split at hfail
    · rename_i failure _
      cases failure <;> cases hfail
    · cases hfail

end Schedule

end CronFire
