import CronFire.Field.Token
import CronFire.Proofs.Fault
import CronFire.Proofs.Text.Digits
import CronFire.Proofs.Text.Words
import Mathlib.Data.List.Forall2
/-!
# The grammar of tokens

What a token may look like, said without the order in which the reader looks for commas,
slashes, the star, dashes, digits and names.  A token is a list of parts between commas; a part
is one of `*`, `*/n`, `v`, `v/n` with `n` equal to 0 or 1, `v-w` and `v-w/n`; a value is a
numeral of the domain or the beginning of a name in any case.

The reader decides by the first slash and the first dash.  That this is no choice of its own
rests on the names: they hold letters only (`PlainNames`), so no value contains a comma, a
slash, a dash or a star, and a text has at most one form.

Results:
* `readPart_eq_ok_iff`: the reader accepts exactly the parts of the grammar.
* `read_eq_ok_iff`: and exactly its tokens.
-/
namespace CronFire

open Text

/-! ## The grammar -/

/-- A run of ASCII digits, not too long to convert, and the number it writes. -/
def IsNumeral (cs : List Char) (n : Nat) : Prop :=
  cs ≠ [] ∧ (∀ c ∈ cs, c.isDigit = true) ∧ cs.length ≤ digitLimit ∧ value cs = n

/-- A text begins a name, in any case. -/
def Begins (cs : List Char) (name : String) : Prop := lower cs <+: lower name.toList

/-- A value of the domain.  A name's beginning stands for the first name that it begins. -/
inductive IsValue (d : Domain) : List Char → Int → Prop
  | number {cs : List Char} {n : Nat} : IsNumeral cs n → d.minimum ≤ n → n ≤ d.maximum →
      IsValue d cs n
  | name {cs : List Char} {i : Nat} {name : String} : cs ≠ [] → d.names[i]? = some name →
      Begins cs name → (∀ j < i, ∀ other, d.names[j]? = some other → ¬ Begins cs other) →
      IsValue d cs (d.minimum + i)

inductive IsPart (d : Domain) : List Char → Part → Prop
  | star : IsPart d ['*'] (.every 1)
  | starStep {n : List Char} {k : Nat} : IsNumeral n k → IsPart d ('*' :: '/' :: n) (.every k)
  | only {v : List Char} {a : Int} : IsValue d v a → IsPart d v (.only a)
  | onlyStep {v n : List Char} {a : Int} : IsValue d v a → IsNumeral n 1 →
      IsPart d (v ++ '/' :: n) (.only a)
  | onward {v n : List Char} {a : Int} : IsValue d v a → IsNumeral n 0 →
      IsPart d (v ++ '/' :: n) (.onward a)
  | range {v w : List Char} {a b : Int} : IsValue d v a → IsValue d w b →
      IsPart d (v ++ '-' :: w) (.range a b 1)
  | rangeStep {v w n : List Char} {a b : Int} {k : Nat} : IsValue d v a → IsValue d w b →
      IsNumeral n k → IsPart d (v ++ '-' :: w ++ '/' :: n) (.range a b k)

/-- A token: one part or more, with commas between them. -/
def IsToken (d : Domain) (cs : List Char) (parts : List Part) : Prop :=
  ∃ texts : List (List Char), texts ≠ [] ∧ [','].intercalate texts = cs ∧
    List.Forall₂ (IsPart d) texts parts

/-- The values that a part allows.  A step of 0 counts as 1. -/
def Part.Allows (d : Domain) (v : Int) : Part → Prop
  | .every n => ∃ k : Nat, v = d.minimum + k * max n 1 ∧ v ≤ d.maximum
  | .only a => v = a
  | .onward a => a ≤ v ∧ v ≤ d.maximum
  | .range a b n => ∃ k : Nat, v = min a b + k * max n 1 ∧ v ≤ max a b

/-- In lower case, the names hold the letters from a to z only. -/
def Domain.PlainNames (d : Domain) : Prop :=
  ∀ name ∈ d.names, ∀ c ∈ lower name.toList, c.isLower = true

/-! ## Numerals -/

theorem dropFinalNewline_of_hasNoBlank {cs : List Char} (h : HasNoBlank cs) :
    dropFinalNewline cs = cs := by
  unfold dropFinalNewline
  split
  · rename_i hl
    have := h _ (List.mem_of_getLast? hl)
    exact absurd this (by decide)
  · rfl

theorem readNumeral_eq_ok_iff {cs : List Char} (h : HasNoBlank cs) {n : Nat} :
    readNumeral cs = .ok n ↔ IsNumeral cs n := by
  unfold readNumeral IsNumeral
  simp only [dropFinalNewline_of_hasNoBlank h]
  split
  · rename_i hbad
    simp only [reduceCtorEq, false_iff]
    intro hx
    obtain ⟨hne, hd, -, -⟩ := hx
    simp [hne, List.all_eq_true.2 hd] at hbad
  · rename_i hgood
    simp only [Bool.or_eq_true, List.isEmpty_iff, Bool.not_eq_true', Bool.not_eq_false,
      not_or] at hgood
    split
    · simp only [reduceCtorEq, false_iff]
      intro hx
      obtain ⟨-, -, hl, -⟩ := hx
      omega
    · simp only [Except.ok.injEq]
      have hd := List.all_eq_true.1 (by simpa using hgood.2)
      exact ⟨fun hv => ⟨hgood.1, hd, by omega, hv⟩, fun hv => hv.2.2.2⟩

/-! ## What no value contains -/

theorem not_isLower_of_isDigit {c : Char} (h : c.isDigit = true) : c.isLower = false := by
  have hle := (Char.isDigit_iff_toNat.1 h).2
  have hlt : decide (c.val ≥ 'a'.val) = false := by
    refine decide_eq_false fun hge => ?_
    have := Nat.le_trans (UInt32.le_iff_toNat_le.1 hge) hle
    exact absurd this (by decide)
  show (decide (c.val ≥ 'a'.val) && decide (c.val ≤ 'z'.val)) = false
  rw [hlt]
  rfl

/-- A character without another lower case stays, whatever stands before it. -/
theorem mem_lowerAfter {c : Char} (hself : lowerChar c = [c]) {cs : List Char} (hc : c ∈ cs)
    (before : List Char) : c ∈ lowerAfter before cs := by
  have hsigma : c ≠ capitalSigma := by
    rintro rfl
    revert hself
    decide
  induction cs generalizing before with
  | nil => cases hc
  | cons x cs ih =>
    rw [lowerAfter, List.mem_append]
    rcases List.mem_cons.1 hc with rfl | hc
    · left
      simp [hsigma, hself]
    · exact .inr (ih hc _)

/-- A character without another lower case is a letter if it stands in a beginning of a name. -/
theorem isLower_of_begins {d : Domain} (hd : d.PlainNames) {cs : List Char} {name : String}
    (hn : name ∈ d.names) (hb : Begins cs name) {c : Char} (hc : c ∈ cs)
    (hself : lowerChar c = [c]) : c.isLower = true :=
  hd name hn c (hb.subset (mem_lowerAfter hself hc []))

theorem IsValue.ne_nil {d : Domain} {cs : List Char} {a : Int} (h : IsValue d cs a) :
    cs ≠ [] := by
  cases h with
  | number hn _ _ => exact hn.1
  | name hne _ _ _ => exact hne

/-- The characters that divide a token stand for themselves and are neither digits nor letters. -/
theorem plain_of_mem_marks {m : Char} (hm : m ∈ [',', '/', '-', '*']) :
    m.isDigit = false ∧ lowerChar m = [m] ∧ m.isLower = false := by
  simp only [List.mem_cons, List.not_mem_nil, or_false] at hm
  rcases hm with rfl | rfl | rfl | rfl <;> decide

theorem IsValue.not_mem {d : Domain} (hd : d.PlainNames) {cs : List Char} {a : Int}
    (h : IsValue d cs a) {m : Char} (hm : m ∈ [',', '/', '-', '*']) : m ∉ cs := by
  intro hmem
  obtain ⟨hdigit, hself, hlower⟩ := plain_of_mem_marks hm
  cases h with
  | number hn _ _ => rw [hn.2.1 m hmem] at hdigit; cases hdigit
  | name _ hi hb _ =>
    rw [isLower_of_begins hd (List.mem_of_getElem? hi) hb hmem hself] at hlower
    cases hlower

theorem IsNumeral.not_mem {cs : List Char} {n : Nat} (h : IsNumeral cs n) {m : Char}
    (hm : m ∈ [',', '/', '-', '*']) : m ∉ cs := by
  intro hmem
  have := (plain_of_mem_marks hm).1
  rw [h.2.1 m hmem] at this
  cases this

theorem IsPart.not_mem_comma {d : Domain} (hd : d.PlainNames) {text : List Char} {part : Part}
    (h : IsPart d text part) : ',' ∉ text := by
  have hv : ∀ {v a}, IsValue d v a → ',' ∉ v := fun h => h.not_mem hd (by decide)
  have hn : ∀ {n k}, IsNumeral n k → ',' ∉ n := fun h => h.not_mem (by decide)
  cases h with
  | star => decide
  | starStep h => simp [hn h]
  | only h => exact hv h
  | onlyStep h h' => simp [hv h, hn h']
  | onward h h' => simp [hv h, hn h']
  | range h h' => simp [hv h, hv h']
  | rangeStep h h' h'' => simp [hv h, hv h', hn h'']

/-! ## Values -/

theorem nameIndex?_eq_some_iff {names : List String} {cs : List Char} {i : Nat} :
    Token.nameIndex? names cs = some i ↔ (∃ name, names[i]? = some name ∧ Begins cs name) ∧
      ∀ j < i, ∀ other, names[j]? = some other → ¬ Begins cs other := by
  unfold Token.nameIndex? Begins
  rw [List.findIdx?_eq_some_iff_getElem]
  simp only [List.isPrefixOf_iff_prefix]
  constructor
  · intro h
    obtain ⟨hi, hp, hfirst⟩ := h
    refine ⟨⟨names[i], List.getElem?_eq_getElem hi, hp⟩, fun j hj other ho => ?_⟩
    obtain ⟨hjl, rfl⟩ := List.getElem?_eq_some_iff.1 ho
    exact hfirst j hj
  · intro h
    obtain ⟨⟨name, hn, hp⟩, hfirst⟩ := h
    obtain ⟨hi, rfl⟩ := List.getElem?_eq_some_iff.1 hn
    refine ⟨hi, hp, fun j hj => ?_⟩
    exact hfirst j hj _ (List.getElem?_eq_getElem (by omega))

namespace Token

section
variable {d : Domain} {c : Char} {cs : List Char} {a : Int}

/-- A digit begins no name, so a text that starts with one can only be a numeral. -/
theorem isValue_iff_of_isDigit (hd : d.PlainNames) (hc : c.isDigit = true) :
    IsValue d (c :: cs) a ↔
      ∃ n : Nat, IsNumeral (c :: cs) n ∧ d.minimum ≤ n ∧ n ≤ d.maximum ∧ a = n := by
  constructor
  · intro h
    rcases h with ⟨hn, hlo, hhi⟩ | ⟨-, hi, hb, -⟩
    · exact ⟨_, hn, hlo, hhi, rfl⟩
    · have := isLower_of_begins hd (List.mem_of_getElem? hi) hb List.mem_cons_self
        (lowerChar_of_isDigit hc)
      rw [not_isLower_of_isDigit hc] at this
      cases this
  · intro h
    obtain ⟨n, hn, hlo, hhi, rfl⟩ := h
    exact .number hn hlo hhi

theorem isValue_iff_of_not_isDigit (hc : ¬ c.isDigit = true) :
    IsValue d (c :: cs) a ↔
      ∃ i : Nat, nameIndex? d.names (c :: cs) = some i ∧ a = d.minimum + i := by
  simp only [nameIndex?_eq_some_iff]
  constructor
  · intro h
    rcases h with ⟨hn, -, -⟩ | ⟨-, hi, hb, hfirst⟩
    · exact absurd (hn.2.1 c List.mem_cons_self) hc
    · exact ⟨_, ⟨⟨_, hi, hb⟩, hfirst⟩, rfl⟩
  · intro h
    obtain ⟨i, ⟨⟨name, hi, hb⟩, hfirst⟩, rfl⟩ := h
    exact .name (List.cons_ne_nil c cs) hi hb hfirst

end

theorem readValue_eq_ok_iff {d : Domain} (hd : d.PlainNames) {cs : List Char}
    (h : HasNoBlank cs) {a : Int} : readValue d cs = .ok a ↔ IsValue d cs a := by
  cases cs with
  | nil => simpa [readValue, isAllBlank, reject] using fun hv : IsValue d [] a => hv.ne_nil rfl
  | cons c cs =>
    unfold readValue
    rw [isAllBlank_of_hasNoBlank h, if_neg (by simp)]
    by_cases hc : c.isDigit = true
    · rw [if_pos (by simpa using hc), isValue_iff_of_isDigit hd hc]
      simp only [← readNumeral_eq_ok_iff h]
      split
      · rename_i hr; simp [hr, reject]
      · rename_i hr; simp [hr]
      · rename_i n hr
        simp only [hr, Except.ok.injEq, Bool.or_eq_true, decide_eq_true_eq, reject]
        split
        · simp only [reduceCtorEq, false_iff]
          intro hx
          obtain ⟨k, rfl, hlo, hhi, -⟩ := hx
          omega
        · rw [Except.ok.injEq]
          constructor
          · intro ha
            exact ⟨n, rfl, by omega, by omega, ha.symm⟩
          · intro hx
            obtain ⟨k, hk, -, -, ha⟩ := hx
            rw [hk, ha]
    · rw [if_neg (by simpa using hc), isValue_iff_of_not_isDigit hc]
      split
      · rename_i hempty
        simp [reject, List.isEmpty_iff.1 hempty, nameIndex?]
      · cases hi : nameIndex? d.names (c :: cs) with
        | none => simp [reject]
        | some i => simp [eq_comm]

/-! ## Parts -/

theorem cutAt_eq_none_iff {sep : Char} {cs : List Char} : cutAt sep cs = none ↔ sep ∉ cs := by
  induction cs with
  | nil => simp [cutAt]
  | cons c cs ih =>
    by_cases hc : c = sep
    · simp [cutAt, hc]
    · simp [cutAt, hc, ih, Ne.symm hc]

theorem cutAt_eq_some_iff {sep : Char} {cs a b : List Char} :
    cutAt sep cs = some (a, b) ↔ cs = a ++ sep :: b ∧ sep ∉ a := by
  induction cs generalizing a b with
  | nil => simp [cutAt]
  | cons c cs ih =>
    by_cases hc : c = sep
    · subst hc
      cases a with
      | nil => simp [cutAt]
      | cons x a => simp [cutAt]; rintro rfl - h; exact absurd rfl h
    · simp only [cutAt, hc, if_false, Option.map_eq_some_iff, Prod.exists, Prod.mk.injEq, ih]
      cases a with
      | nil => simp [hc]
      | cons x a =>
        simp only [List.cons_append, List.cons.injEq, List.mem_cons, not_or]
        constructor
        · intro hx
          obtain ⟨a', b', ⟨rfl, hn⟩, ⟨rfl, rfl⟩, rfl⟩ := hx
          exact ⟨⟨rfl, rfl⟩, Ne.symm hc, hn⟩
        · intro hx
          obtain ⟨⟨rfl, rfl⟩, -, hn⟩ := hx
          exact ⟨a, b, ⟨rfl, hn⟩, ⟨rfl, rfl⟩, rfl⟩

theorem readStep_eq_ok_iff {text : List Char} (h : HasNoBlank text) {n : Nat} :
    readStep text = .ok n ↔ IsNumeral text n := by
  unfold readStep
  rw [← readNumeral_eq_ok_iff h]
  split
  · rename_i hr; simp [hr, reject]
  · rename_i hr; simp [hr]
  · rename_i hr; simp [hr]

/-- What stands before the slash of a part, for a given step. -/
inductive IsBody (d : Domain) (step : Nat) : List Char → Part → Prop
  | star : IsBody d step ['*'] (.every step)
  | range {v w : List Char} {a b : Int} : IsValue d v a → IsValue d w b →
      IsBody d step (v ++ '-' :: w) (.range a b step)
  | only {v : List Char} {a : Int} : step = 1 → IsValue d v a → IsBody d step v (.only a)
  | onward {v : List Char} {a : Int} : step = 0 → IsValue d v a → IsBody d step v (.onward a)

section
variable {d : Domain} {text : List Char} {part : Part} {step : Nat}

theorem IsBody.not_mem_slash (hd : d.PlainNames) (h : IsBody d step text part) :
    '/' ∉ text := by
  cases h with
  | star => decide
  | range hv hw =>
    simp [hv.not_mem hd (m := '/') (by decide), hw.not_mem hd (m := '/') (by decide)]
  | only _ hv => exact hv.not_mem hd (by decide)
  | onward _ hv => exact hv.not_mem hd (by decide)

theorem IsBody.ne_nil (h : IsBody d step text part) : text ≠ [] := by
  cases h with
  | star => simp
  | range _ _ => simp
  | only _ hv => exact hv.ne_nil
  | onward _ hv => exact hv.ne_nil

theorem IsBody.eq_every (hd : d.PlainNames) (h : IsBody d step ['*'] part) :
    part = .every step := by
  generalize htext : ['*'] = text at h
  cases h with
  | star => rfl
  | range _ _ => simp [eq_comm, List.append_eq_singleton_iff] at htext
  | only _ hv => exact absurd (htext ▸ List.mem_cons_self) (hv.not_mem hd (m := '*') (by decide))
  | onward _ hv => exact absurd (htext ▸ List.mem_cons_self) (hv.not_mem hd (m := '*') (by decide))

/-- A part is a body alone, with a step of 1, or a body, a slash and a step. -/
theorem isPart_iff : IsPart d text part ↔ IsBody d 1 text part ∨
    ∃ body n k, text = body ++ '/' :: n ∧ IsBody d k body part ∧ IsNumeral n k := by
  constructor
  · intro hx
    rcases hx with _ | hn | hv | ⟨hv, hn⟩ | ⟨hv, hn⟩ | ⟨hv, hw⟩ | ⟨hv, hw, hn⟩
    · exact .inl .star
    · exact .inr ⟨['*'], _, _, rfl, .star, hn⟩
    · exact .inl (.only rfl hv)
    · exact .inr ⟨_, _, 1, rfl, .only rfl hv, hn⟩
    · exact .inr ⟨_, _, 0, rfl, .onward rfl hv, hn⟩
    · exact .inl (.range hv hw)
    · exact .inr ⟨_, _, _, rfl, .range hv hw, hn⟩
  · intro hx
    rcases hx with h | ⟨body, n, k, rfl, h, hn⟩
    · cases h with
      | star => exact .star
      | range hv hw => exact .range hv hw
      | only _ hv => exact .only hv
      | onward h0 _ => cases h0
    · cases h with
      | star => exact .starStep hn
      | range hv hw => exact .rangeStep hv hw hn
      | only h1 hv => exact .onlyStep hv (h1 ▸ hn)
      | onward h0 hv => exact .onward hv (h0 ▸ hn)

theorem isBody_iff_of_not_mem_dash (h : '-' ∉ text) (hs : text ≠ ['*']) :
    IsBody d step text part ↔ ∃ a, IsValue d text a ∧
      (step = 0 ∧ part = .onward a ∨ step = 1 ∧ part = .only a) := by
  constructor
  · intro hb
    cases hb with
    | star => exact absurd rfl hs
    | range _ _ => simp at h
    | only h1 hv => exact ⟨_, hv, .inr ⟨h1, rfl⟩⟩
    | onward h0 hv => exact ⟨_, hv, .inl ⟨h0, rfl⟩⟩
  · intro hx
    obtain ⟨a, hv, ⟨h0, rfl⟩ | ⟨h1, rfl⟩⟩ := hx
    · exact .onward h0 hv
    · exact .only h1 hv

/-- The first dash divides a range. -/
theorem isBody_iff_of_dash (hd : d.PlainNames) {v w : List Char} (hv : '-' ∉ v) :
    IsBody d step (v ++ '-' :: w) part ↔ ∃ a b, IsValue d v a ∧ IsValue d w b ∧
      part = .range a b step := by
  have hdash : ∀ {a}, ¬ IsValue d (v ++ '-' :: w) a := fun h => by
    simpa using h.not_mem hd (m := '-') (by decide)
  constructor
  · intro hb
    generalize htext : v ++ '-' :: w = text at hb
    cases hb with
    | star => rw [List.append_eq_singleton_iff] at htext; simp at htext
    | range hv' hw' =>
      have h1 := (cutAt_eq_some_iff (b := w)).2 ⟨rfl, hv⟩
      rw [htext, cutAt_eq_some_iff.2 ⟨rfl, hv'.not_mem hd (by decide)⟩] at h1
      simp only [Option.some.injEq, Prod.mk.injEq] at h1
      exact ⟨_, _, h1.1 ▸ hv', h1.2 ▸ hw', rfl⟩
    | only _ h => exact absurd (htext ▸ h) hdash
    | onward _ h => exact absurd (htext ▸ h) hdash
  · intro hx
    obtain ⟨a, b, ha, hb, rfl⟩ := hx
    exact .range ha hb

end

section
variable {d : Domain} (hd : d.PlainNames) {text : List Char} (h : HasNoBlank text) {part : Part}

include hd h in
theorem readStepped_eq_ok_iff {step : Nat} :
    readStepped d text step = .ok part ↔ IsBody d step text part := by
  unfold readStepped
  split
  · rename_i hstar
    subst hstar
    rw [Except.ok.injEq]
    exact ⟨fun hp => hp ▸ .star, fun hb => (hb.eq_every hd).symm⟩
  · rename_i hstar
    split
    · rename_i c cs after hcut
      obtain ⟨rfl, hn⟩ := cutAt_eq_some_iff.1 hcut
      obtain ⟨hbefore, hafter⟩ := h.of_append
      simp only [bind_eq_ok_iff, readValue_eq_ok_iff hd hbefore,
        readValue_eq_ok_iff hd hafter.of_cons, Except.ok.injEq, isBody_iff_of_dash hd hn]
      exact ⟨fun ⟨a, ha, b, hb, hp⟩ => ⟨a, b, ha, hb, hp.symm⟩,
        fun ⟨a, b, ha, hb, hp⟩ => ⟨a, ha, b, hb, hp.symm⟩⟩
    · rename_i hcut
      have hvalue : IsBody d step text part ↔ ∃ a, IsValue d text a ∧
          (step = 0 ∧ part = .onward a ∨ step = 1 ∧ part = .only a) := by
        rcases hc : cutAt '-' text with _ | ⟨v, w⟩
        · exact isBody_iff_of_not_mem_dash (cutAt_eq_none_iff.1 hc) hstar
        · -- the dash is the first character: neither a range nor a value
          obtain ⟨rfl, hn⟩ := cutAt_eq_some_iff.1 hc
          have hv : v = [] := by
            cases v with
            | nil => rfl
            | cons x v => exact absurd hc (hcut x v w)
          subst hv
          rw [isBody_iff_of_dash hd hn]
          exact ⟨fun ⟨_, _, ha, _⟩ => absurd rfl ha.ne_nil,
            fun ⟨_, ha, _⟩ => absurd List.mem_cons_self (ha.not_mem hd (m := '-') (by decide))⟩
      rw [bind_eq_ok_iff, hvalue]
      simp only [readValue_eq_ok_iff hd h]
      refine exists_congr fun a => and_congr_right fun _ => ?_
      split
      · simp [eq_comm]
      · simp [eq_comm]
      · rename_i h0 h1
        simp only [reject, reduceCtorEq, false_iff, not_or, not_and]
        exact ⟨fun h => (h0 h).elim, fun h => (h1 h).elim⟩

include hd h in
/-- The reader accepts exactly the parts of the grammar. -/
theorem readPart_eq_ok_iff : readPart d text = .ok part ↔ IsPart d text part := by
  unfold readPart
  rw [isAllBlank_of_hasNoBlank h, isPart_iff]
  have hslash : ∀ {body n k}, IsBody d k body part →
      cutAt '/' (body ++ '/' :: n) = some (body, n) :=
    fun hb => cutAt_eq_some_iff.2 ⟨rfl, hb.not_mem_slash hd⟩
  split
  · rename_i hempty
    rw [List.isEmpty_iff.1 hempty]
    simp only [reject, reduceCtorEq, false_iff]
    intro hx
    rcases hx with hb | ⟨body, n, k, he, -, -⟩
    · exact hb.ne_nil rfl
    · simp at he
  · split
    · rename_i hcut
      rw [readStepped_eq_ok_iff hd h]
      refine ⟨.inl, fun hp => hp.resolve_right ?_⟩
      intro hx
      obtain ⟨body, n, k, rfl, hb, -⟩ := hx
      rw [hslash hb] at hcut
      cases hcut
    · rename_i n hcut
      simp only [reject, reduceCtorEq, false_iff]
      intro hx
      rcases hx with hb | ⟨body, n', k, rfl, hb, -⟩
      · have := hb.not_mem_slash hd
        rw [← cutAt_eq_none_iff, hcut] at this
        cases this
      · rw [hslash hb] at hcut
        simp only [Option.some.injEq, Prod.mk.injEq] at hcut
        exact hb.ne_nil hcut.1
    · rename_i before after _ hcut
      obtain ⟨rfl, hn⟩ := cutAt_eq_some_iff.1 hcut
      obtain ⟨hbefore, hafter⟩ := h.of_append
      simp only [bind_eq_ok_iff, readStep_eq_ok_iff hafter.of_cons,
        readStepped_eq_ok_iff hd hbefore]
      constructor
      · intro hx
        obtain ⟨k, hk, hb⟩ := hx
        exact .inr ⟨before, after, k, rfl, hb, hk⟩
      · intro hx
        rcases hx with hb | ⟨body, n, k, he, hb, hk⟩
        · exact absurd (by simp) (hb.not_mem_slash hd)
        · rw [he, hslash hb] at hcut
          simp only [Option.some.injEq, Prod.mk.injEq] at hcut
          obtain ⟨rfl, rfl⟩ := hcut
          exact ⟨k, hk, hb⟩

end

/-! ## Tokens -/

theorem pieces_eq_splitOn (sep : Char) (cs : List Char) : pieces sep cs = cs.splitOn sep := by
  induction cs with
  | nil => simp [pieces]
  | cons c cs ih =>
    rw [pieces, List.splitOn_cons_eq_if_modifyHead, ih]
    by_cases hc : c = sep
    · simp [hc]
    · simp only [hc, if_false, beq_iff_eq]
      cases hsp : cs.splitOn sep with
      | nil => exact absurd hsp (List.splitOn_ne_nil _ _)
      | cons p ps => rfl

theorem mem_of_mem_pieces {sep c : Char} {cs piece : List Char} (hp : piece ∈ pieces sep cs)
    (hc : c ∈ piece) : c ∈ cs := by
  induction cs generalizing piece with
  | nil => simp [pieces] at hp; simp [hp] at hc
  | cons x cs ih =>
    rw [pieces] at hp
    split at hp
    · rcases List.mem_cons.1 hp with rfl | hp
      · cases hc
      · exact List.mem_cons_of_mem x (ih hp hc)
    · split at hp
      · simp only [List.mem_singleton] at hp
        subst hp
        exact List.mem_cons.2 (.inl (List.mem_singleton.1 hc))
      · rename_i p ps hps
        rcases List.mem_cons.1 hp with rfl | hp
        · rcases List.mem_cons.1 hc with rfl | hc
          · exact List.mem_cons_self
          · exact List.mem_cons_of_mem x (ih (by rw [hps]; exact List.mem_cons_self) hc)
        · exact List.mem_cons_of_mem x (ih (by rw [hps]; exact List.mem_cons_of_mem p hp) hc)

theorem readParts_eq_ok_iff {d : Domain} (hd : d.PlainNames) {texts : List (List Char)}
    (h : ∀ text ∈ texts, HasNoBlank text) {parts : List Part} :
    readParts d texts = .ok parts ↔ List.Forall₂ (IsPart d) texts parts := by
  induction texts generalizing parts with
  | nil => simp [readParts, eq_comm]
  | cons text texts ih =>
    rw [List.forall_mem_cons] at h
    simp only [readParts, bind_eq_ok_iff, readPart_eq_ok_iff hd h.1, ih h.2, Except.ok.injEq]
    rw [List.forall₂_cons_left_iff]
    constructor
    · intro hx
      obtain ⟨p, hp, ps, hps, rfl⟩ := hx
      exact ⟨p, ps, hp, hps, rfl⟩
    · intro hx
      obtain ⟨p, ps, hp, hps, rfl⟩ := hx
      exact ⟨p, hp, ps, hps, rfl⟩

/-- The reader accepts exactly the tokens of the grammar. -/
theorem read_eq_ok_iff {d : Domain} (hd : d.PlainNames) {token : String}
    (h : HasNoBlank token.toList) {parts : List Part} :
    read d (some token) = .ok parts ↔ IsToken d token.toList parts := by
  have hpieces : ∀ text ∈ pieces ',' token.toList, HasNoBlank text :=
    fun text ht c hc => h c (mem_of_mem_pieces ht hc)
  rw [read, readParts_eq_ok_iff hd hpieces, pieces_eq_splitOn]
  constructor
  · intro hp
    exact ⟨_, List.splitOn_ne_nil _ _, List.intercalate_splitOn _, hp⟩
  · intro hx
    obtain ⟨texts, hne, hjoin, hp⟩ := hx
    have hcomma := ((List.forall₂_and_left _ _).1 (hp.imp fun _ _ h => ⟨h.not_mem_comma hd, h⟩)).1
    rwa [← hjoin, List.splitOn_intercalate _ hcomma hne]

end Token

end CronFire
