import CronFire.Proofs.Field.Values
import CronFire.Proofs.Text.Words
import CronFire.Schedule.Expression
/-!
# The expressions that are schedules

An expression is read exactly when it splits into five or six words and each word is a token of
the field it falls to, counted from the right; a missing sixth word counts as `0`.  The values
of each field are then the ones its parts allow.

Results:
* `read_grammar`: which expressions are read, and the values they give.
* `proper_of_read`: each field of a schedule that was read has a value, and only values of its
  domain.
-/
namespace CronFire

open Text

/-! ## Words and fields -/

/-- The place of a kind's word in an expression, counted from the right. -/
def FieldKind.place : FieldKind → Nat
  | .dayOfWeek => 0
  | .month => 1
  | .dayOfMonth => 2
  | .hour => 3
  | .minute => 4
  | .second => 5

/-- The word that falls to a kind; a sixth word from the right that is missing is a `0`. -/
def FieldKind.wordOf (kind : FieldKind) (ws : List (List Char)) : List Char :=
  ws.reverse.getD kind.place ['0']

namespace FieldKind

theorem plainNames_domain (kind : FieldKind) : kind.domain.PlainNames := by
  have hall : (kind.domain.names.all fun name => (lower name.toList).all Char.isLower) = true := by
    cases kind <;> decide
  exact fun name hname => List.all_eq_true.1 (List.all_eq_true.1 hall name hname)

theorem fits_domain (kind : FieldKind) : kind.domain.Fits := by
  cases kind <;> unfold Domain.Fits <;> decide

theorem read_eq_ok_iff {kind : FieldKind} {token : Option String} {f : Field} :
    kind.read token = .ok f ↔ Field.read kind.domain token = .ok f := by
  unfold read
  split
  · rename_i h; simp [h]
  · rename_i h; simp [h]

theorem hasNoBlank_wordOf (kind : FieldKind) {ws : List (List Char)}
    (h : ∀ w ∈ ws, HasNoBlank w) : HasNoBlank (kind.wordOf ws) := by
  unfold wordOf
  rw [List.getD_eq_getElem?_getD]
  cases hw : ws.reverse[kind.place]? with
  | none => show HasNoBlank ['0']; decide
  | some w => exact h w (List.mem_reverse.1 (List.mem_of_getElem? hw))

end FieldKind

namespace Schedule

theorem ofWords_eq_ok_iff {second minute hour dayOfMonth month dayOfWeek : String}
    {s : Schedule} :
    ofWords second minute hour dayOfMonth month dayOfWeek = .ok s ↔
      FieldKind.dayOfWeek.read dayOfWeek = .ok s.dayOfWeek ∧
      FieldKind.month.read month = .ok s.month ∧
      FieldKind.dayOfMonth.read dayOfMonth = .ok s.dayOfMonth ∧
      FieldKind.hour.read hour = .ok s.hour ∧ FieldKind.minute.read minute = .ok s.minute ∧
      FieldKind.second.read second = .ok s.second := by
  simp only [ofWords, bind_eq_ok_iff, Except.ok.injEq]
  constructor
  · intro h
    obtain ⟨_, h1, _, h2, _, h3, _, h4, _, h5, _, h6, rfl⟩ := h
    exact ⟨h1, h2, h3, h4, h5, h6⟩
  · intro h
    obtain ⟨h1, h2, h3, h4, h5, h6⟩ := h
    exact ⟨_, h1, _, h2, _, h3, _, h4, _, h5, _, h6, rfl⟩

/-- A statement about every kind, in the order in which the fields are read. -/
theorem forall_kind_iff {P : FieldKind → Prop} : (∀ kind, P kind) ↔ P .dayOfWeek ∧ P .month ∧
    P .dayOfMonth ∧ P .hour ∧ P .minute ∧ P .second := by
  refine ⟨fun h => ⟨h _, h _, h _, h _, h _, h _⟩, fun ⟨h1, h2, h3, h4, h5, h6⟩ kind => ?_⟩
  cases kind <;> assumption

/-- Each field is read from its own word, independent of the others. -/
theorem read_eq_ok_iff {expression : String} {s : Schedule} {ws : List (List Char)}
    (h : SplitsInto expression.toList ws) : read expression = .ok s ↔
      (ws.length = 5 ∨ ws.length = 6) ∧
      ∀ kind : FieldKind, Field.read kind.domain (some (String.ofList (kind.wordOf ws))) =
        .ok (s.field kind) := by
  simp only [← FieldKind.read_eq_ok_iff, forall_kind_iff]
  unfold read expressionWords
  rw [splitsInto_iff.1 h]
  rcases ws with _ | ⟨a, _ | ⟨b, _ | ⟨c, _ | ⟨d, _ | ⟨e, _ | ⟨f, _ | ⟨g, ws⟩⟩⟩⟩⟩⟩⟩
  case cons.cons.cons.cons.cons.nil =>
    exact ofWords_eq_ok_iff.trans (by simp [FieldKind.wordOf, FieldKind.place, field, defaultSecond])
  case cons.cons.cons.cons.cons.cons.nil =>
    exact ofWords_eq_ok_iff.trans (by simp [FieldKind.wordOf, FieldKind.place, field])
  all_goals simp

/-- An expression that is read, by a check of the schedule that it gives. -/
theorem exists_read {expression : String} {P : Schedule → Prop} [DecidablePred P]
    (h : ((read expression).toOption.any fun s => decide (P s)) = true) :
    ∃ s, read expression = .ok s ∧ P s := by
  cases hread : read expression with
  | error e => rw [hread] at h; cases h
  | ok s => exact ⟨s, rfl, by simpa [hread, Except.toOption] using h⟩

/-- Each field of a schedule that was read. -/
theorem field_of_read {expression : String} {s : Schedule} (h : read expression = .ok s)
    (kind : FieldKind) : ∃ token, Field.read kind.domain (some token) = .ok (s.field kind) :=
  ⟨_, ((read_eq_ok_iff (splitsInto_words _)).1 h).2 kind⟩

theorem sound_allowed {expression : String} {s : Schedule} (h : read expression = .ok s)
    (kind : FieldKind) : (s.allowed kind).Sound := by
  obtain ⟨token, hf⟩ := field_of_read h kind
  exact Field.sound_allowed hf

/-- Each field allows a value, and only values of its domain. -/
structure Proper (s : Schedule) : Prop where
  second : s.second.allowed.Proper FieldKind.second.domain
  minute : s.minute.allowed.Proper FieldKind.minute.domain
  hour : s.hour.allowed.Proper FieldKind.hour.domain
  dayOfMonth : s.dayOfMonth.allowed.Proper FieldKind.dayOfMonth.domain
  month : s.month.allowed.Proper FieldKind.month.domain
  dayOfWeek : s.dayOfWeek.allowed.Proper FieldKind.dayOfWeek.domain

theorem proper_of_read {expression : String} {s : Schedule} (h : read expression = .ok s) :
    s.Proper := by
  have hall : ∀ kind, (s.allowed kind).Proper kind.domain := fun kind => by
    obtain ⟨token, hf⟩ := field_of_read h kind
    exact Field.proper_allowed kind.fits_domain hf
  exact ⟨hall .second, hall .minute, hall .hour, hall .dayOfMonth, hall .month, hall .dayOfWeek⟩

/-- **The expressions that are read.** They are the ones whose five or six words are tokens of
the grammar, and each field holds, ascending, the values that the parts of its token allow. -/
theorem read_grammar (expression : String) :
    ((∃ s, read expression = .ok s) ↔ ∃ ws, SplitsInto expression.toList ws ∧
      (ws.length = 5 ∨ ws.length = 6) ∧
      ∀ kind : FieldKind, ∃ parts, IsToken kind.domain (kind.wordOf ws) parts) ∧
    ∀ s ws, read expression = .ok s → SplitsInto expression.toList ws →
      ∀ (kind : FieldKind) (parts : List Part), IsToken kind.domain (kind.wordOf ws) parts →
        (s.allowed kind).toList.Pairwise (· < ·) ∧
        ∀ v, v ∈ (s.allowed kind).toList ↔ ∃ part ∈ parts, part.Allows kind.domain v := by
  have htoken : ∀ {ws}, SplitsInto expression.toList ws → ∀ (kind : FieldKind) (parts),
      Token.read kind.domain (some (String.ofList (kind.wordOf ws))) = .ok parts ↔
        IsToken kind.domain (kind.wordOf ws) parts := by
    intro ws hws kind parts
    have hblank := kind.hasNoBlank_wordOf hws.hasNoBlank
    rw [Token.read_eq_ok_iff kind.plainNames_domain (by simpa using hblank), String.toList_ofList]
  refine ⟨⟨?_, ?_⟩, ?_⟩
  · intro h
    obtain ⟨s, hs⟩ := h
    have hws := splitsInto_words expression.toList
    obtain ⟨hlen, hfields⟩ := (read_eq_ok_iff hws).1 hs
    refine ⟨_, hws, hlen, fun kind => ?_⟩
    obtain ⟨parts, hparts, -⟩ := Field.read_eq_ok_iff.1 (hfields kind)
    exact ⟨parts, (htoken hws kind parts).1 hparts⟩
  · intro h
    obtain ⟨ws, hws, hlen, hparts⟩ := h
    have hfields : ∀ kind : FieldKind, ∃ f,
        Field.read kind.domain (some (String.ofList (kind.wordOf ws))) = .ok f := fun kind => by
      obtain ⟨parts, hp⟩ := hparts kind
      exact ⟨_, Field.read_eq_ok_iff.2 ⟨parts, (htoken hws kind parts).2 hp, rfl⟩⟩
    choose f hf using hfields
    refine ⟨⟨f .second, f .minute, f .hour, f .dayOfMonth, f .month, f .dayOfWeek⟩,
      (read_eq_ok_iff hws).2 ⟨hlen, fun kind => ?_⟩⟩
    cases kind <;> exact hf _
  · intro s ws hs hws kind parts hp
    have hsound := sound_allowed hs kind
    have hfield := ((read_eq_ok_iff hws).1 hs).2 kind
    refine ⟨ValueSet.pairwise_toList hsound, fun v => ?_⟩
    rw [ValueSet.mem_toList hsound]
    exact Field.mem_allowed_iff ((htoken hws kind parts).2 hp) hfield

theorem read_grammar_saturday : ∃ s, read "0 0 * * sa-T/2" = .ok s ∧
    (s.allowed .dayOfWeek).toList = [2, 4, 6] ∧
      ∀ v, v ∈ ([2, 4, 6] : List Int) ↔
        ∃ part ∈ [Part.range 6 2 2], part.Allows FieldKind.dayOfWeek.domain v := by
  obtain ⟨s, hread, hlist⟩ : ∃ s, read "0 0 * * sa-T/2" = .ok s ∧
      (s.allowed .dayOfWeek).toList = [2, 4, 6] := exists_read (by decide +kernel)
  have hws : SplitsInto "0 0 * * sa-T/2".toList
      [['0'], ['0'], ['*'], ['*'], ['s', 'a', '-', 'T', '/', '2']] :=
    splitsInto_iff.2 (by decide +kernel)
  have htoken : IsToken FieldKind.dayOfWeek.domain "sa-T/2".toList [.range 6 2 2] :=
    (Token.read_eq_ok_iff FieldKind.dayOfWeek.plainNames_domain
      (by decide)).1 (by decide +kernel)
  refine ⟨s, hread, hlist, ?_⟩
  rw [← hlist]
  exact ((read_grammar _).2 s _ hread hws .dayOfWeek _ htoken).2

end Schedule

end CronFire
