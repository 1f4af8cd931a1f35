import CronFire.Proofs.Toml.Lines
import Mathlib.Data.List.Infix
/-!
# Where reading stops for a number

A reader leaves the end of what it was given.  So where one of many readers stops for a number
that is too long, the digits of that number stand in the document as they are, in one run that
low lines may divide.  A text without such a run is read to its end, or found to be no document.

Results:
* `digitRun_eq`: the run that a reader of digits takes.
* `leaves_value`, `leaves_statement`, `leaves_readLines`: what readers leave, and where they stop.
* `hasLongRun_of_read`: reading stops for a number only at a long run of digits.
-/
namespace CronFire.Toml

open CronFire.Text (digitLimit)

/-- The text holds more digits in a row than can be converted, but for low lines among them. -/
def HasLongRun (cs : List Char) : Prop :=
  ∃ run, run <:+: cs ∧ (∀ c ∈ run, c.isDigit = true ∨ c = '_') ∧
    digitLimit < run.countP Char.isDigit

theorem HasLongRun.mono {cs ds : List Char} (h : HasLongRun cs) (hsub : cs <:+: ds) :
    HasLongRun ds := by
  obtain ⟨run, hrun, hdigits, hlong⟩ := h
  exact ⟨run, hrun.trans hsub, hdigits, hlong⟩

/-- What is left of a text is its end, and reading stops for a number only at a long run. -/
def Leaves {α : Type} (left : α → List Char) (cs : List Char) : Except Fault α → Prop
  | .ok a => left a <:+ cs
  | .error .malformed => True
  | .error .numeralTooLong => HasLongRun cs

namespace Leaves

variable {α β : Type} {left : α → List Char} {left' : β → List Char} {cs ds : List Char}
  {r : Except Fault α}

@[simp] theorem malformed : Leaves left cs Toml.malformed := trivial

@[simp] theorem ok {a : α} : Leaves left cs (.ok a) ↔ left a <:+ cs := Iff.rfl

theorem of_suffix (h : Leaves left ds r) (hsuffix : ds <:+ cs) : Leaves left cs r := by
  rcases r with (_ | _) | a
  · trivial
  · exact h.mono hsuffix.isInfix
  · exact List.IsSuffix.trans h hsuffix

theorem cons {c : Char} (h : Leaves left cs r) : Leaves left (c :: cs) r :=
  h.of_suffix (List.suffix_cons c cs)

theorem bind {f : α → Except Fault β} (h : Leaves left cs r)
    (hf : ∀ a, Leaves left' (left a) (f a)) : Leaves left' cs (r >>= f) := by
  rcases r with (_ | _) | a
  · trivial
  · exact h
  · exact (hf a).of_suffix h

theorem map {f : α → β} (h : Leaves left cs r) (hf : ∀ a, left' (f a) = left a) :
    Leaves left' cs (r.map f) := by
  rcases r with (_ | _) | a
  · trivial
  · exact h
  · show left' (f a) <:+ cs
    rw [hf a]
    exact h

/-- A step that reads nothing, and does not stop for a number. -/
theorem bind_of_ne {f : α → Except Fault β} (h : r ≠ .error .numeralTooLong)
    (hf : ∀ a, Leaves left' cs (f a)) : Leaves left' cs (r >>= f) := by
  rcases r with (_ | _) | a
  · trivial
  · exact absurd rfl h
  · exact hf a

end Leaves

/-! ## Strings -/

@[simp] theorem leaves_before {cs ds : List Char} {r : Reading (List Char)} :
    Leaves Prod.snd cs (before ds r) ↔ Leaves Prod.snd cs r := by
  rcases r with (_ | _) | _ <;> rfl

theorem suffix_lastQuotes (quote : Char) (cs : List Char) : (lastQuotes quote cs).2 <:+ cs := by
  fun_cases lastQuotes quote cs <;> simp [List.suffix_cons_iff]

theorem leaves_literalString (cs : List Char) : Leaves Prod.snd cs (literalString cs) := by
  fun_induction literalString cs with
  | case1 => exact .malformed
  | case2 cs => exact List.suffix_cons _ cs
  | case3 => exact .malformed
  | case4 c cs _ _ ih => exact leaves_before.2 ih.cons

theorem leaves_basicString (cs : List Char) : Leaves Prod.snd cs (basicString cs) := by
  fun_induction basicString cs with
  | case1 a b c d cs _ _ ih =>
    exact leaves_before.2 (ih.of_suffix (List.suffix_append ['\\', 'u', a, b, c, d] cs))
  | case3 a b c d e f g h cs _ _ ih =>
    exact leaves_before.2 (ih.of_suffix (List.suffix_append ['\\', 'U', a, b, c, d, e, f, g, h] cs))
  | case8 cs => exact List.suffix_cons _ cs
  | _ => simp [Leaves.cons, *]

theorem leaves_literalLines (cs : List Char) : Leaves Prod.snd cs (literalLines cs) := by
  fun_induction literalLines cs with
  | case1 cs => exact (suffix_lastQuotes _ cs).trans (List.suffix_append ['\'', '\'', '\''] cs)
  | _ => simp [Leaves.cons, *]

theorem leaves_basicLines (place : LinePlace) (cs : List Char) :
    Leaves Prod.snd cs (basicLines place cs) := by
  fun_induction basicLines place cs with
  | case4 a b c d cs _ _ ih | case6 a b c d cs _ _ ih =>
    exact leaves_before.2 (ih.of_suffix (List.suffix_append ['\\', 'u', a, b, c, d] cs))
  | case8 a b c d e f g h cs _ _ ih | case10 a b c d e f g h cs _ _ ih =>
    exact leaves_before.2 (ih.of_suffix (List.suffix_append ['\\', 'U', a, b, c, d, e, f, g, h] cs))
  | case12 cs | case13 cs =>
    exact (suffix_lastQuotes _ cs).trans (List.suffix_append ['"', '"', '"'] cs)
  | _ => simp [Leaves.cons, *]

theorem suffix_skipNewline (cs : List Char) : skipNewline cs <:+ cs := by
  fun_cases skipNewline cs <;> simp

theorem leaves_string (cs : List Char) : Leaves Prod.snd cs (string cs) := by
  fun_cases string cs with
  | case1 cs => exact ((leaves_basicLines _ _).of_suffix (suffix_skipNewline cs)).cons.cons.cons
  | case2 cs => exact (leaves_basicString cs).cons
  | case3 cs => exact ((leaves_literalLines _).of_suffix (suffix_skipNewline cs)).cons.cons.cons
  | case4 cs => exact (leaves_literalString cs).cons
  | case5 => exact .malformed

/-! ## White space and keys -/

theorem suffix_skipSpaces (cs : List Char) : skipSpaces cs <:+ cs := List.dropWhile_suffix _

theorem leaves_skipFiller (inComment : Bool) (cs : List Char) :
    Leaves id cs (skipFiller inComment cs) := by
  fun_induction skipFiller inComment cs with
  | case7 => exact List.suffix_refl _
  | _ => simp [Leaves.cons, *]

theorem leaves_skipComment (cs : List Char) : Leaves id cs (skipComment cs) := by
  fun_cases skipComment cs with
  | case1 => exact .malformed
  | case2 cs => exact (List.dropWhile_suffix _).trans (List.suffix_cons _ cs)
  | case3 => exact List.suffix_refl _

theorem leaves_keyPart (cs : List Char) : Leaves Prod.snd cs (keyPart cs) := by
  fun_cases keyPart cs with
  | case1 rest => exact Leaves.cons (Leaves.map (leaves_basicString rest) fun _ => rfl)
  | case2 rest => exact Leaves.cons (Leaves.map (leaves_literalString rest) fun _ => rfl)
  | case3 => exact List.dropWhile_suffix _
  | case4 => exact .malformed
  | case5 => exact .malformed

theorem leaves_keyParts (fuel : Nat) (cs : List Char) : Leaves Prod.snd cs (keyParts fuel cs) := by
  induction fuel generalizing cs with
  | zero => exact .malformed
  | succ fuel ih =>
    refine (leaves_keyPart cs).bind fun (part, rest) => Leaves.of_suffix ?_ (suffix_skipSpaces rest)
    dsimp only
    generalize skipSpaces rest = ds
    split
    · rename_i more
      refine Leaves.cons (Leaves.of_suffix ?_ (suffix_skipSpaces more))
      exact (ih _).bind fun _ => List.suffix_refl _
    · exact List.suffix_refl _

theorem leaves_key (cs : List Char) : Leaves Prod.snd cs (key cs) := leaves_keyParts _ cs

theorem leaves_keyAndEquals (cs : List Char) : Leaves Prod.snd cs (keyAndEquals cs) := by
  refine (leaves_key cs).bind fun (k, rest) => ?_
  dsimp only
  split
  · rename_i rest
    exact (suffix_skipSpaces rest).trans (List.suffix_cons _ rest)
  · exact .malformed

/-! ## Numbers -/

/-- What is left of a text, if anything, is its end. -/
def LeavesIf {α : Type} (left : α → List Char) (cs : List Char) (r : Option α) : Prop :=
  ∀ a, r = some a → left a <:+ cs

namespace LeavesIf

variable {α β : Type} {left : α → List Char} {left' : β → List Char} {cs ds : List Char}
  {r : Option α}

theorem of_suffix (h : LeavesIf left ds r) (hsuffix : ds <:+ cs) : LeavesIf left cs r :=
  fun a ha => (h a ha).trans hsuffix

theorem bind {f : α → Option β} (h : LeavesIf left cs r)
    (hf : ∀ a, LeavesIf left' (left a) (f a)) : LeavesIf left' cs (r >>= f) := by
  intro b hb
  obtain ⟨a, ha, hb⟩ := Option.bind_eq_some_iff.1 hb
  exact (hf a b hb).trans (h a ha)

theorem some {a : α} (h : left a <:+ cs) : LeavesIf left cs (some a) := by
  rintro _ ⟨⟩
  exact h

theorem none : LeavesIf left cs none := fun _ h => nomatch h

theorem getD (h : LeavesIf left cs r) {a : α} (ha : left a <:+ cs) : left (r.getD a) <:+ cs := by
  cases r with
  | none => exact ha
  | some b => exact h b rfl

end LeavesIf

section
variable {isDigit : Char → Bool} {cs ds rest : List Char}

/-- The run that a reader of digits takes, low lines included. -/
theorem digitRun_eq (hlow : isDigit '_' = false) (h : digitRun isDigit cs = (ds, rest)) :
    ∃ run, cs = run ++ rest ∧ (∀ c ∈ run, isDigit c = true ∨ c = '_') ∧
      run.countP isDigit = ds.length := by
  fun_induction digitRun isDigit cs generalizing ds rest with
  | case1 c cs hc ds' rest' hrun ih =>
    cases h
    obtain ⟨run, rfl, hall, hcount⟩ := ih hrun
    exact ⟨'_' :: c :: run, rfl, by simpa [hc] using hall, by simp [hlow, hc, hcount]⟩
  | case3 c cs _ hc ds' rest' hrun ih =>
    cases h
    obtain ⟨run, rfl, hall, hcount⟩ := ih hrun
    exact ⟨c :: run, rfl, by simpa [hc] using hall, by simp [hc, hcount]⟩
  | case2 | case4 | case5 =>
    cases h
    exact ⟨[], rfl, List.forall_mem_nil _, rfl⟩

theorem leavesIf_digits? (hlow : isDigit '_' = false) (cs : List Char) :
    LeavesIf Prod.snd cs (digits? isDigit cs) := by
  rintro ⟨ds, rest⟩ h
  unfold digits? at h
  split at h
  · obtain ⟨run, hrun, -⟩ := digitRun_eq hlow (Option.some.inj (Option.ite_none_right_eq_some.1 h).2)
    exact ⟨run, hrun.symm⟩
  · cases h

/-- The digits before a point stand in the text as a run. -/
theorem leadingDigits?_eq (h : leadingDigits? cs = some (ds, rest)) :
    rest <:+ cs ∧ (digitLimit < ds.length → HasLongRun cs) := by
  unfold leadingDigits? at h
  split at h
  · cases h
    exact ⟨List.suffix_cons _ _, fun hlong => absurd hlong (by decide)⟩
  · unfold digits? at h
    split at h
    · obtain ⟨run, hrun, hall, hcount⟩ :=
        digitRun_eq rfl (Option.some.inj (Option.ite_none_right_eq_some.1 h).2)
      rw [hrun]
      exact ⟨List.suffix_append _ _, fun hlong =>
        ⟨run, (List.prefix_append run rest).isInfix, hall, by rwa [hcount]⟩⟩
    · cases h

end

theorem suffix_of_sign {cs rest : List Char} {negative : Bool} (h : sign cs = (negative, rest)) :
    rest <:+ cs := by
  revert h
  fun_cases sign cs <;> rintro ⟨⟩ <;> simp

theorem leavesIf_fraction? (cs : List Char) : LeavesIf Prod.snd cs (fraction? cs) := by
  fun_cases fraction? cs with
  | case1 cs => exact (leavesIf_digits? rfl cs).of_suffix (List.suffix_cons _ cs)
  | case2 => exact .none

theorem leavesIf_exponent? (cs : List Char) : LeavesIf Prod.snd cs (exponent? cs) := by
  fun_cases exponent? cs with
  | case1 c cs _ negative more hsign =>
    refine LeavesIf.of_suffix ?_ ((suffix_of_sign hsign).trans (List.suffix_cons c cs))
    exact (leavesIf_digits? (by rfl) more).bind fun _ => .some (List.suffix_refl _)
  | case2 => exact .none
  | case3 => exact .none

theorem leavesIf_twoDigits? (low high : Nat) (cs : List Char) :
    LeavesIf Prod.snd cs (twoDigits? low high cs) := by
  fun_cases twoDigits? low high cs with
  | case1 a b cs => exact .some (List.suffix_append [a, b] cs)
  | case2 => exact .none
  | case3 => exact .none

theorem leavesIf_after? (c : Char) (cs : List Char) : LeavesIf id cs (after? c cs) := by
  fun_cases after? c cs with
  | case1 cs => exact .some (List.suffix_cons c cs)
  | case2 => exact .none
  | case3 => exact .none

theorem suffix_afterFraction (cs : List Char) : afterFraction cs <:+ cs := by
  fun_cases afterFraction cs with
  | case1 c cs => exact (List.dropWhile_suffix _).trans (List.suffix_append ['.', c] cs)
  | case2 => exact List.suffix_refl _
  | case3 => exact List.suffix_refl _

theorem leavesIf_afterTime? (cs : List Char) : LeavesIf id cs (afterTime? cs) := by
  refine (leavesIf_twoDigits? _ _ cs).bind fun _ => ?_
  refine (leavesIf_after? _ _).bind fun _ => (leavesIf_twoDigits? _ _ _).bind fun _ => ?_
  refine (leavesIf_after? _ _).bind fun _ => (leavesIf_twoDigits? _ _ _).bind fun _ => ?_
  exact .some (suffix_afterFraction _)

theorem suffix_afterOffset (cs : List Char) : afterOffset cs <:+ cs := by
  fun_cases afterOffset cs with
  | case1 c cs => exact List.suffix_cons c cs
  | case2 c cs _ _ offset =>
    have hoffset : LeavesIf id (c :: cs) offset := by
      refine LeavesIf.of_suffix ?_ (List.suffix_cons c cs)
      refine (leavesIf_twoDigits? _ _ cs).bind fun _ => ?_
      refine (leavesIf_after? _ _).bind fun _ => (leavesIf_twoDigits? _ _ _).bind fun _ => ?_
      exact .some (List.suffix_refl _)
    exact hoffset.getD (List.suffix_refl _)
  | case3 => exact List.suffix_refl _
  | case4 => exact List.suffix_refl _

theorem suffix_afterDateTime (cs : List Char) : afterDateTime cs <:+ cs := by
  fun_cases afterDateTime cs with
  | case1 c cs =>
    cases htime : afterTime? cs with
    | none => exact List.suffix_refl _
    | some rest =>
      have hrest : rest <:+ cs := leavesIf_afterTime? cs rest htime
      exact ((suffix_afterOffset rest).trans hrest).trans (List.suffix_cons c cs)
  | case2 => exact List.suffix_refl _
  | case3 => exact List.suffix_refl _

theorem leavesIf_time? (cs : List Char) : LeavesIf Prod.snd cs (time? cs) := by
  rintro _ h
  obtain ⟨rest, hrest, rfl⟩ := Option.map_eq_some_iff.1 h
  exact leavesIf_afterTime? cs rest hrest

theorem leavesIf_baseNumber? (cs : List Char) : LeavesIf Prod.snd cs (baseNumber? cs) := by
  fun_cases baseNumber? cs with
  | case1 letter cs =>
    intro found h
    obtain ⟨base, -, h⟩ := Option.bind_eq_some_iff.1 h
    refine LeavesIf.of_suffix ?_ (List.suffix_append ['0', letter] cs) found h
    exact (leavesIf_digits? (by rfl) cs).bind fun _ => .some (List.suffix_refl _)
  | case2 => exact .none

theorem leavesIf_specialNumber? (cs : List Char) : LeavesIf Prod.snd cs (specialNumber? cs) := by
  fun_cases specialNumber? cs with
  | case1 negative rest hsign =>
    exact .some ((List.suffix_append ['i', 'n', 'f'] rest).trans (suffix_of_sign hsign))
  | case2 negative rest hsign =>
    exact .some ((List.suffix_append ['n', 'a', 'n'] rest).trans (suffix_of_sign hsign))
  | case3 => exact .none

section
variable {cs : List Char} {r : Reading Value}

theorem leaves_date? (h : date? cs = some r) : Leaves Prod.snd cs r := by
  obtain ⟨⟨a, cs₁⟩, h₁, h⟩ := Option.bind_eq_some_iff.1 h
  obtain ⟨⟨b, cs₂⟩, h₂, h⟩ := Option.bind_eq_some_iff.1 h
  obtain ⟨cs₃, h₃, h⟩ := Option.bind_eq_some_iff.1 h
  obtain ⟨⟨month, cs₄⟩, h₄, h⟩ := Option.bind_eq_some_iff.1 h
  obtain ⟨cs₅, h₅, h⟩ := Option.bind_eq_some_iff.1 h
  obtain ⟨⟨day, cs₆⟩, h₆, h⟩ := Option.bind_eq_some_iff.1 h
  dsimp only at h
  split at h
  · cases h
    calc afterDateTime cs₆ <:+ cs₆ := suffix_afterDateTime cs₆
      _ <:+ cs₅ := leavesIf_twoDigits? _ _ _ _ h₆
      _ <:+ cs₄ := leavesIf_after? _ _ _ h₅
      _ <:+ cs₃ := leavesIf_twoDigits? _ _ _ _ h₄
      _ <:+ cs₂ := leavesIf_after? _ _ _ h₃
      _ <:+ cs₁ := leavesIf_twoDigits? _ _ _ _ h₂
      _ <:+ cs := leavesIf_twoDigits? _ _ _ _ h₁
  · cases h
    exact .malformed

/-- Only the digits of a whole number stop the reading. -/
theorem leaves_decimalNumber? (h : decimalNumber? cs = some r) : Leaves Prod.snd cs r := by
  rcases hsign : sign cs with ⟨negative, cs₁⟩
  unfold decimalNumber? at h
  rw [hsign] at h
  obtain ⟨⟨whole, cs₂⟩, hwhole, h⟩ := Option.bind_eq_some_iff.1 h
  obtain ⟨h₂, hlong⟩ := leadingDigits?_eq hwhole
  have h₁ := suffix_of_sign hsign
  dsimp only at h
  have h₃ := (leavesIf_fraction? cs₂).getD (a := ([], cs₂)) (List.suffix_refl cs₂)
  generalize ((fraction? cs₂).getD ([], cs₂)).2 = cs₃ at h h₃
  have h₄ := (leavesIf_exponent? cs₃).getD (a := (0, cs₃)) (List.suffix_refl cs₃)
  generalize ((exponent? cs₃).getD (0, cs₃)).2 = cs₄ at h h₄
  have hrest : cs₄ <:+ cs := ((h₄.trans h₃).trans h₂).trans h₁
  split at h
  · cases h
    exact hrest
  · split at h
    · rename_i hdigits
      cases h
      exact (hlong hdigits).mono h₁.isInfix
    · cases h
      exact hrest

end

theorem leaves_numberOrTime (cs : List Char) : Leaves Prod.snd cs (numberOrTime cs) := by
  fun_cases numberOrTime cs with
  | case1 r hdate => exact leaves_date? hdate
  | case2 found _ htime => exact leavesIf_time? cs _ htime
  | case3 n rest _ _ hbase => exact leavesIf_baseNumber? cs _ hbase
  | case4 r _ _ _ hdecimal => exact leaves_decimalNumber? hdecimal
  | case5 found _ _ _ _ hspecial => exact leavesIf_specialNumber? cs _ hspecial
  | case6 => exact .malformed

/-! ## Tables -/

section
variable {α β : Type} {r : Except Fault α} {through : Bool} {f : Table → Except Fault Table}

theorem ok_ne {a : α} : (.ok a : Except Fault α) ≠ .error .numeralTooLong := by
  intro h
  cases h

theorem malformed_ne : (malformed : Except Fault α) ≠ .error .numeralTooLong := by
  intro h
  cases h

theorem bind_ne {f : α → Except Fault β} (h : r ≠ .error .numeralTooLong)
    (hf : ∀ a, f a ≠ .error .numeralTooLong) : (r >>= f) ≠ .error .numeralTooLong := by
  intro heq
  rcases bind_eq_error_iff.1 heq with herror | ⟨a, -, herror⟩
  · exact h herror
  · exact hf a herror

/-- A change to a table may be refused, but not for a number. -/
theorem update_ne (hf : ∀ t, f t ≠ .error .numeralTooLong) (k : Key) (t : Table) :
    Table.update through f k t ≠ .error .numeralTooLong := by
  fun_induction Table.update through f k t with
  | case1 t => exact hf t
  | case2 _ _ _ _ ih => exact bind_ne ih fun _ => ok_ne
  | case3 _ _ _ _ _ ih => exact bind_ne ih fun _ => ok_ne
  | case4 _ _ _ _ _ _ _ hthrough ih =>
    rw [hthrough] at ih
    exact bind_ne ih fun _ => ok_ne
  | case5 | case6 => exact malformed_ne

theorem addNew_ne (key : String) (v : Value) (t : Table) :
    Table.addNew key v t ≠ .error .numeralTooLong := by
  unfold Table.addNew
  split
  · exact malformed_ne
  · exact ok_ne

theorem appendTable_ne (key : String) (t : Table) :
    Table.appendTable key t ≠ .error .numeralTooLong := by
  unfold Table.appendTable
  split
  · exact ok_ne
  · exact ok_ne
  · exact malformed_ne

theorem InlineTable.add_ne (t : InlineTable) (k : Key) (v : Value) :
    t.add k v ≠ .error .numeralTooLong := by
  unfold InlineTable.add
  split
  · exact malformed_ne
  · exact bind_ne (update_ne (addNew_ne _ v) _ _) fun _ => ok_ne

end

/-! ## Values -/

/-- Values, arrays and tables between braces, each read with the fuel that is left. -/
theorem leaves_with (fuel : Nat) :
    (∀ cs, Leaves Prod.snd cs (valueWith fuel cs)) ∧
      (∀ cs, Leaves Prod.snd cs (arrayWith fuel cs)) ∧
      ∀ t cs, Leaves Prod.snd cs (inlineWith fuel t cs) := by
  induction fuel with
  | zero => exact ⟨fun _ => .malformed, fun _ => .malformed, fun _ _ => .malformed⟩
  | succ fuel ih =>
    obtain ⟨hvalue, harray, hinline⟩ := ih
    refine ⟨fun cs => ?value, fun cs => ?array, fun t cs => ?inline⟩
    case value =>
      rw [valueWith.eq_def]
      dsimp only
      split
      · exact Leaves.map (leaves_string _) fun _ => rfl
      · exact Leaves.map (leaves_string _) fun _ => rfl
      · exact List.suffix_append ['t', 'r', 'u', 'e'] _
      · exact List.suffix_append ['f', 'a', 'l', 's', 'e'] _
      · refine Leaves.cons ((leaves_skipFiller false _).bind fun rest => ?_)
        exact (harray rest).bind fun _ => List.suffix_refl _
      · rename_i rest
        refine Leaves.cons (Leaves.of_suffix ?_ (suffix_skipSpaces rest))
        generalize skipSpaces rest = ds
        split
        · exact List.suffix_cons _ _
        · exact (hinline _ _).bind fun _ => List.suffix_refl _
      · exact leaves_numberOrTime cs
    case array =>
      rw [arrayWith.eq_def]
      dsimp only
      split
      · exact List.suffix_cons _ _
      · refine (hvalue cs).bind fun (v, rest) => (leaves_skipFiller false rest).bind fun rest => ?_
        dsimp only
        split
        · exact List.suffix_cons _ _
        · refine Leaves.cons ((leaves_skipFiller false _).bind fun rest => ?_)
          exact (harray rest).bind fun _ => List.suffix_refl _
        · exact .malformed
    case inline =>
      rw [inlineWith.eq_def]
      dsimp only
      refine (leaves_keyAndEquals cs).bind fun (k, rest) => (hvalue rest).bind fun (v, rest) => ?_
      refine .bind_of_ne (t.add_ne k v) fun t => .of_suffix ?_ (suffix_skipSpaces rest)
      dsimp only
      generalize skipSpaces rest = ds
      split
      · exact List.suffix_cons _ _
      · exact ((hinline t _).of_suffix (suffix_skipSpaces _)).cons
      · exact .malformed

theorem leaves_readValue (cs : List Char) : Leaves Prod.snd cs (readValue cs) :=
  (leaves_with _).1 cs

/-! ## Documents -/

theorem leaves_statement (cs : List Char) : Leaves Prod.snd cs (statement cs) := by
  have hheader : ∀ cs, Leaves Prod.snd cs (key (skipSpaces cs)) := fun cs =>
    (leaves_key _).of_suffix (suffix_skipSpaces cs)
  unfold statement
  split
  · exact List.suffix_refl _
  · exact List.suffix_refl _
  · exact List.suffix_refl _
  · rename_i rest
    refine ((hheader rest).bind fun (k, rest) => ?_).cons.cons
    dsimp only
    split
    · rename_i rest
      exact (suffix_skipSpaces rest).trans (List.suffix_append [']', ']'] rest)
    · exact .malformed
  · rename_i rest _
    refine ((hheader rest).bind fun (k, rest) => ?_).cons
    dsimp only
    split
    · rename_i rest
      exact (suffix_skipSpaces rest).trans (List.suffix_cons _ rest)
    · exact .malformed
  · refine (leaves_keyAndEquals cs).bind fun (k, rest) => (leaves_readValue rest).bind fun _ => ?_
    exact suffix_skipSpaces _

theorem Draft.apply_ne (d : Draft) (s : Statement) : d.apply s ≠ .error .numeralTooLong := by
  cases s with
  | blank => exact ok_ne
  | assign k v =>
    show d.assign k v ≠ _
    simp only [Draft.assign]
    split
    · exact malformed_ne
    · exact bind_ne (update_ne (addNew_ne _ v) _ _) fun _ => ok_ne
  | «open» k =>
    show d.openTable k ≠ _
    simp only [Draft.openTable]
    split
    · exact malformed_ne
    · exact bind_ne (update_ne (fun _ => ok_ne) _ _) fun _ => ok_ne
  | append k =>
    show d.appendTable k ≠ _
    simp only [Draft.appendTable]
    split
    · exact malformed_ne
    · exact bind_ne (update_ne (appendTable_ne _) _ _) fun _ => ok_ne

theorem leaves_readLines (fuel : Nat) (d : Draft) (cs : List Char) :
    Leaves (fun _ => []) cs (readLines fuel d cs) := by
  induction fuel generalizing d cs with
  | zero => exact .malformed
  | succ fuel ih =>
    refine Leaves.of_suffix ?_ (suffix_skipSpaces cs)
    refine (leaves_statement _).bind fun (s, rest) => .bind_of_ne (d.apply_ne s) fun d => ?_
    refine (leaves_skipComment rest).bind fun rest => ?_
    split
    · exact List.nil_suffix
    · exact (ih d _).cons
    · exact .malformed

/-- A run that a line begins with, after carriage returns are left out, is what it began with. -/
theorem prefix_of_prefix_joinLineEnds {run cs : List Char} (hline : '\n' ∉ run)
    (h : run <+: joinLineEnds cs) : run <+: cs := by
  fun_induction joinLineEnds cs generalizing run with
  | case1 cs ih =>
    rcases List.prefix_cons_iff.1 h with rfl | ⟨rest, rfl, -⟩
    · exact List.nil_prefix
    · exact absurd List.mem_cons_self hline
  | case2 c cs _ ih =>
    rcases List.prefix_cons_iff.1 h with rfl | ⟨rest, rfl, hrest⟩
    · exact List.nil_prefix
    · exact List.cons_prefix_cons.2 ⟨rfl, ih (List.not_mem_of_not_mem_cons hline) hrest⟩
  | case3 => exact h

theorem infix_of_infix_joinLineEnds {run cs : List Char} (hline : '\n' ∉ run)
    (h : run <:+: joinLineEnds cs) : run <:+: cs := by
  induction cs using joinLineEnds.induct with
  | case1 cs ih =>
    rw [joinLineEnds] at h
    rcases List.infix_cons_iff.1 h with hstart | hrest
    · rcases List.prefix_cons_iff.1 hstart with rfl | ⟨rest, rfl, -⟩
      · exact List.nil_infix
      · exact absurd List.mem_cons_self hline
    · exact (ih hrest).trans (List.suffix_append ['\r', '\n'] cs).isInfix
  | case2 c cs hne ih =>
    have hstart : run <+: joinLineEnds (c :: cs) → run <+: c :: cs :=
      prefix_of_prefix_joinLineEnds hline
    rw [joinLineEnds] at h hstart
    · rcases List.infix_cons_iff.1 h with hrun | hrest
      · exact (hstart hrun).isInfix
      · exact (ih hrest).trans (List.suffix_cons c cs).isInfix
    all_goals exact hne
  | case3 => exact h

/-- Reading stops for a number only at a run of digits that is too long. -/
theorem hasLongRun_of_read {text : String} (h : read text = .error .numeralTooLong) :
    HasLongRun text.toList := by
  have hleaves := leaves_readLines ((joinLineEnds text.toList).length + 1) {}
    (joinLineEnds text.toList)
  rcases hlines : readLines ((joinLineEnds text.toList).length + 1) {}
    (joinLineEnds text.toList) with (_ | _) | d
  · simp [read, hlines, Except.map] at h
  · rw [hlines] at hleaves
    obtain ⟨run, hrun, hall, hlong⟩ := hleaves
    have hline : '\n' ∉ run := fun hmem => by simpa using hall _ hmem
    exact ⟨run, infix_of_infix_joinLineEnds hline hrun, hall, hlong⟩
  · simp [read, hlines, Except.map] at h

end CronFire.Toml
