import CronFire.Proofs.Field.Grammar
/-!
# Numerals too long to convert

A run of more than `digitLimit` digits is never converted, whatever number it writes, and reading
ends there without a report.  Reading comes to such a run only past parts that are fine: in its
part it looks at the step first, then at the value, or at the ends of a range from the left.

Results:
* `readParts_eq_error_iff`: the first part that fails decides how reading ends.
* `readPart_eq_tooLong_iff`: the parts in which reading comes to a run that is too long.
* `read_eq_tooLong_iff`: the tokens.
-/
namespace CronFire

open Text

/-- A run of ASCII digits, too long to convert. -/
def IsLongNumeral (cs : List Char) : Prop :=
  (∀ c ∈ cs, c.isDigit = true) ∧ digitLimit < cs.length

/-- What stands before the slash of a part, if reading it comes to a run that is too long.  The
second end of a range is read only if the first one is a value. -/
inductive IsLongBody (d : Domain) : List Char → Prop
  | value {v : List Char} : IsLongNumeral v → IsLongBody d v
  | first {v w : List Char} : IsLongNumeral v → IsLongBody d (v ++ '-' :: w)
  | second {v w : List Char} {a : Int} : IsValue d v a → IsLongNumeral w →
      IsLongBody d (v ++ '-' :: w)

/-- A part, if reading it comes to a run that is too long.  The step is read first. -/
inductive IsLongPart (d : Domain) : List Char → Prop
  | alone {body : List Char} : '/' ∉ body → IsLongBody d body → IsLongPart d body
  | step {body n : List Char} : body ≠ [] → '/' ∉ body → IsLongNumeral n →
      IsLongPart d (body ++ '/' :: n)
  | stepped {body n : List Char} {k : Nat} : '/' ∉ body → IsLongBody d body → IsNumeral n k →
      IsLongPart d (body ++ '/' :: n)

/-- A token whose parts before one that comes to such a run are fine. -/
def IsLongToken (d : Domain) (cs : List Char) : Prop :=
  ∃ texts text later, cs.splitOn ',' = texts ++ text :: later ∧
    (∀ t ∈ texts, ∃ part, IsPart d t part) ∧ IsLongPart d text

/-! ## Numerals and values -/

theorem isBlank_of_isDigit {c : Char} (h : c.isDigit = true) : isBlank c = false := by
  have hc := Char.isDigit_iff_toNat.1 h
  simp only [isBlank]
  simp at hc ⊢
  omega

theorem IsLongNumeral.ne_nil {cs : List Char} (h : IsLongNumeral cs) : cs ≠ [] := by
  intro hnil
  subst hnil
  exact absurd h.2 (Nat.not_lt_zero _)

theorem IsLongNumeral.not_mem {cs : List Char} (h : IsLongNumeral cs) {m : Char}
    (hm : m ∈ [',', '/', '-', '*']) : m ∉ cs := by
  intro hmem
  have := (plain_of_mem_marks hm).1
  rw [h.1 m hmem] at this
  cases this

theorem readNumeral_eq_tooLong_iff {cs : List Char} (h : HasNoBlank cs) :
    readNumeral cs = .error .tooLong ↔ IsLongNumeral cs := by
  unfold readNumeral IsLongNumeral
  simp only [dropFinalNewline_of_hasNoBlank h]
  split
  · rename_i hbad
    simp only [Except.error.injEq, reduceCtorEq, false_iff]
    intro hx
    obtain ⟨hdigits, hlong⟩ := hx
    have hne : cs ≠ [] := List.ne_nil_of_length_pos (by omega)
    simp [hne, List.all_eq_true.2 hdigits] at hbad
  · rename_i hgood
    have hdigits : cs.all Char.isDigit = true := by
      cases hall : cs.all Char.isDigit with
      | true => rfl
      | false => exact absurd (by simp [hall]) hgood
    split
    · rename_i hlong
      exact iff_of_true rfl ⟨List.all_eq_true.1 hdigits, hlong⟩
    · rename_i hshort
      simp only [reduceCtorEq, false_iff]
      exact fun hx => hshort hx.2

namespace Token

theorem readStep_eq_tooLong_iff {text : List Char} (h : HasNoBlank text) :
    readStep text = .error .numeralTooLong ↔ IsLongNumeral text := by
  unfold readStep
  rw [← readNumeral_eq_tooLong_iff h]
  split
  · rename_i hr; simp [hr, reject]
  · rename_i hr; simp [hr]
  · rename_i hr; simp [hr]

theorem readValue_eq_tooLong_iff {d : Domain} {text : List Char} (h : HasNoBlank text) :
    readValue d text = .error .numeralTooLong ↔ IsLongNumeral text := by
  unfold readValue
  cases text with
  | nil =>
    rw [if_pos (by rfl)]
    exact iff_of_false (by simp [reject]) fun hx => hx.ne_nil rfl
  | cons c cs =>
    rw [isAllBlank_of_hasNoBlank h, if_neg (by simp)]
    by_cases hc : c.isDigit = true
    · rw [if_pos (by simpa using hc), ← readNumeral_eq_tooLong_iff h]
      split
      · rename_i hr; simp [hr, reject]
      · rename_i hr; simp [hr]
      · rename_i hr
        rw [hr]
        split <;> simp [reject]
    · rw [if_neg (by simpa using hc)]
      refine iff_of_false ?_ fun hx => hc (hx.1 c List.mem_cons_self)
      split
      · simp [reject]
      · split <;> simp [reject]

/-! ## Parts -/

/-- The first of a mark divides a text in one way. -/
theorem append_mark_inj {sep : Char} {a b a' b' : List Char} (ha : sep ∉ a) (ha' : sep ∉ a')
    (h : a ++ sep :: b = a' ++ sep :: b') : a = a' ∧ b = b' := by
  have h1 : cutAt sep (a ++ sep :: b) = some (a, b) := cutAt_eq_some_iff.2 ⟨rfl, ha⟩
  have h2 : cutAt sep (a ++ sep :: b) = some (a', b') := cutAt_eq_some_iff.2 ⟨h, ha'⟩
  rw [h1, Option.some.injEq, Prod.mk.injEq] at h2
  exact h2

section
variable {d : Domain} (hd : d.PlainNames)

theorem not_isLongBody_nil : ¬ IsLongBody d [] := by
  intro h
  generalize htext : ([] : List Char) = text at h
  cases h with
  | value hv => exact hv.ne_nil htext.symm
  | first _ => simp at htext
  | second _ _ => simp at htext

theorem isLongBody_iff_of_not_mem_dash {text : List Char} (h : '-' ∉ text) :
    IsLongBody d text ↔ IsLongNumeral text := by
  refine ⟨fun hb => ?_, .value⟩
  cases hb with
  | value hv => exact hv
  | first _ => simp at h
  | second _ _ => simp at h

include hd in
theorem isLongBody_iff_of_dash {v w : List Char} (hv : '-' ∉ v) : IsLongBody d (v ++ '-' :: w) ↔
    IsLongNumeral v ∨ ∃ a, IsValue d v a ∧ IsLongNumeral w := by
  constructor
  · intro hb
    generalize htext : v ++ '-' :: w = text at hb
    cases hb with
    | value hlong =>
      subst htext
      exact absurd (by simp) (hlong.not_mem (m := '-') (by decide))
    | first hlong =>
      obtain ⟨rfl, rfl⟩ := append_mark_inj hv (hlong.not_mem (by decide)) htext
      exact .inl hlong
    | second hvalue hlong =>
      obtain ⟨rfl, rfl⟩ := append_mark_inj hv (hvalue.not_mem hd (by decide)) htext
      exact .inr ⟨_, hvalue, hlong⟩
  · intro hx
    rcases hx with hlong | ⟨a, hvalue, hlong⟩
    · exact .first hlong
    · exact .second hvalue hlong

include hd in
theorem readStepped_eq_tooLong_iff {text : List Char} (h : HasNoBlank text) {step : Nat} :
    readStepped d text step = .error .numeralTooLong ↔ IsLongBody d text := by
  unfold readStepped
  split
  · rename_i hstar
    subst hstar
    refine iff_of_false (by simp) ?_
    rw [isLongBody_iff_of_not_mem_dash (by decide)]
    exact fun hx => hx.not_mem (m := '*') (by decide) List.mem_cons_self
  · split
    · rename_i c cs after hcut
      obtain ⟨rfl, hn⟩ := cutAt_eq_some_iff.1 hcut
      obtain ⟨hbefore, hafter⟩ := h.of_append
      simp only [bind_eq_error_iff, readValue_eq_tooLong_iff hbefore,
        readValue_eq_tooLong_iff hafter.of_cons, readValue_eq_ok_iff hd hbefore,
        isLongBody_iff_of_dash hd hn, reduceCtorEq, and_false, exists_false, or_false]
    · rename_i hcut
      have hbody : IsLongBody d text ↔ IsLongNumeral text := by
        rcases hc : cutAt '-' text with _ | ⟨v, w⟩
        · exact isLongBody_iff_of_not_mem_dash (cutAt_eq_none_iff.1 hc)
        · -- the dash is the first character: neither a range nor a value
          obtain ⟨rfl, hn⟩ := cutAt_eq_some_iff.1 hc
          have hv : v = [] := by
            cases v with
            | nil => rfl
            | cons x v => exact absurd hc (hcut x v w)
          subst hv
          rw [isLongBody_iff_of_dash hd hn]
          refine iff_of_false ?_ fun hx =>
            hx.not_mem (m := '-') (by decide) List.mem_cons_self
          intro hx
          rcases hx with hlong | ⟨a, hvalue, -⟩
          · exact hlong.ne_nil rfl
          · exact hvalue.ne_nil rfl
      rw [bind_eq_error_iff, readValue_eq_tooLong_iff h, hbody]
      -- a value that was read may lack a range for its step, but that is reported
      refine or_iff_left fun hx => ?_
      obtain ⟨a, -, hstep⟩ := hx
      split at hstep
      · cases hstep
      · cases hstep
      · cases hstep

include hd in
/-- The parts in which reading comes to a run that is too long. -/
theorem readPart_eq_tooLong_iff {text : List Char} (h : HasNoBlank text) :
    readPart d text = .error .numeralTooLong ↔ IsLongPart d text := by
  unfold readPart
  rw [isAllBlank_of_hasNoBlank h]
  split
  · rename_i hempty
    rw [List.isEmpty_iff.1 hempty]
    refine iff_of_false (by simp [reject]) fun hx => ?_
    generalize htext : ([] : List Char) = text at hx
    cases hx with
    | alone _ hb => subst htext; exact not_isLongBody_nil hb
    | step _ _ _ => simp at htext
    | stepped _ _ _ => simp at htext
  · rcases hc : cutAt '/' text with _ | ⟨before, after⟩
    · have hslash := cutAt_eq_none_iff.1 hc
      rw [readStepped_eq_tooLong_iff hd h]
      refine ⟨.alone hslash, fun hx => ?_⟩
      cases hx with
      | alone _ hb => exact hb
      | step _ _ _ => simp at hslash
      | stepped _ _ _ => simp at hslash
    · obtain ⟨rfl, hslash⟩ := cutAt_eq_some_iff.1 hc
      obtain ⟨hbefore, hafter⟩ := h.of_append
      have hpart : IsLongPart d (before ++ '/' :: after) ↔ before ≠ [] ∧
          (IsLongNumeral after ∨ ∃ k, IsNumeral after k ∧ IsLongBody d before) := by
        constructor
        · intro hx
          generalize htext : before ++ '/' :: after = text at hx
          cases hx with
          | alone hno _ => subst htext; simp at hno
          | step hne hno hlong =>
            obtain ⟨rfl, rfl⟩ := append_mark_inj hslash hno htext
            exact ⟨hne, .inl hlong⟩
          | stepped hno hb hn =>
            obtain ⟨rfl, rfl⟩ := append_mark_inj hslash hno htext
            exact ⟨fun he => not_isLongBody_nil (he ▸ hb), .inr ⟨_, hn, hb⟩⟩
        · intro hx
          obtain ⟨hne, hlong | ⟨k, hn, hb⟩⟩ := hx
          · exact .step hne hslash hlong
          · exact .stepped hslash hb hn
      rw [hpart]
      cases before with
      | nil => simp [reject]
      | cons c cs =>
        simp only [bind_eq_error_iff, readStep_eq_tooLong_iff hafter.of_cons,
          readStep_eq_ok_iff hafter.of_cons, readStepped_eq_tooLong_iff hd hbefore]
        simp

end

/-! ## Tokens -/

/-- The first part that fails decides how reading ends. -/
theorem readParts_eq_error_iff {d : Domain} {texts : List (List Char)} {failure : Failure Fault} :
    readParts d texts = .error failure ↔ ∃ before text after, texts = before ++ text :: after ∧
      (∀ t ∈ before, ∃ part, readPart d t = .ok part) ∧ readPart d text = .error failure := by
  induction texts with
  | nil => simp [readParts]
  | cons text texts ih =>
    simp only [readParts, bind_eq_error_iff, ih, reduceCtorEq, and_false, exists_false, or_false]
    constructor
    · intro hx
      rcases hx with hfail | ⟨part, hpart, before, t, after, rfl, hbefore, hfail⟩
      · exact ⟨[], text, texts, rfl, by simp, hfail⟩
      · exact ⟨text :: before, t, after, rfl,
          List.forall_mem_cons.2 ⟨⟨part, hpart⟩, hbefore⟩, hfail⟩
    · intro hx
      obtain ⟨before, t, after, htexts, hbefore, hfail⟩ := hx
      cases before with
      | nil =>
        obtain ⟨rfl, rfl⟩ := List.cons.inj htexts
        exact .inl hfail
      | cons b before =>
        obtain ⟨rfl, rfl⟩ := List.cons.inj htexts
        obtain ⟨⟨part, hpart⟩, hbefore⟩ := List.forall_mem_cons.1 hbefore
        exact .inr ⟨part, hpart, before, t, after, rfl, hbefore, hfail⟩

/-- The tokens in which reading comes to a run that is too long. -/
theorem read_eq_tooLong_iff {d : Domain} (hd : d.PlainNames) {token : String}
    (h : HasNoBlank token.toList) :
    read d (some token) = .error .numeralTooLong ↔ IsLongToken d token.toList := by
  unfold IsLongToken
  rw [read, readParts_eq_error_iff, pieces_eq_splitOn]
  refine exists_congr fun before => exists_congr fun text => exists_congr fun after =>
    and_congr_right fun htexts => ?_
  have hblank : ∀ t ∈ before ++ text :: after, HasNoBlank t := by
    rw [← htexts, ← pieces_eq_splitOn]
    exact fun t ht c hc => h c (mem_of_mem_pieces ht hc)
  have hbefore := fun t ht => hblank t (List.mem_append_left (text :: after) ht)
  have htext := hblank text (by simp)
  rw [readPart_eq_tooLong_iff hd htext]
  refine and_congr_left fun _ => forall₂_congr fun t ht => exists_congr fun part => ?_
  exact readPart_eq_ok_iff hd (hbefore t ht)

end Token

end CronFire
