import CronFire.Proofs.Settings.WrittenNumbers
import Mathlib.Algebra.Group.Nat.Defs
import Mathlib.Algebra.Ring.Int.Defs
/-!
# What the settings of a table are

What a value stands for is said here without a rule for finding it: a whole number by the number
that it is or is written as, a switch by the words and numbers for it.  A table is faulty if one of
its sections is no table, or a known key has a value that stands for nothing.  A table that is not
faulty reflects exactly one settings: every known key that is there has what its value stands for,
and every one that is missing its default.

Results:
* `acceptCount?_eq_some_iff`, `acceptSwitch?_eq_some_iff`: what counts and switches accept.
* `ofTable?_eq_some_iff`, `ofTable?_eq_none_iff`: the settings of a table.
* `SaysSame.ofTable?_eq`: keys that are not known do not matter.
-/
namespace CronFire

open CronFire.Toml

namespace Settings

/-! ## What values stand for -/

/-- A number, with a minus sign or without. -/
def signed (negative : Bool) (m : Nat) : Int := if negative then -(m : Int) else m

/-- The value is a number that is whole. -/
inductive IsNumber : Value → Int → Prop
  | integer (n : Int) : IsNumber (.integer n) n
  /-- A number of limited precision, `m * 2 ^ q` or its negative, that is not too great. -/
  | real {negative : Bool} {m : Nat} {q n : Int} :
      signed negative m * 2 ^ q.toNat = n * 2 ^ (-q).toNat → n.natAbs < 2 ^ 63 →
      IsNumber (.real (.finite negative m q)) n

inductive IsWhole : Value → Int → Prop
  | number {v : Value} {n : Int} : IsNumber v n → IsWhole v n
  | boolean (b : Bool) : IsWhole (.boolean b) (if b then 1 else 0)
  | written {s : String} {n : Int} : WritesNumber s n → IsWhole (.string s) n

def IsCount (v : Value) (count : Nat) : Prop := IsWhole v count ∧ 1 ≤ count

inductive IsSwitch : Value → Bool → Prop
  | boolean (b : Bool) : IsSwitch (.boolean b) b
  | one {v : Value} : IsNumber v 1 → IsSwitch v true
  | zero {v : Value} : IsNumber v 0 → IsSwitch v false
  | onWord {s : String} : smallAscii s ∈ onWords → IsSwitch (.string s) true
  | offWord {s : String} : smallAscii s ∈ offWords → IsSwitch (.string s) false

inductive IsText : Value → String → Prop
  | string (s : String) : IsText (.string s) s

theorem signed_mul (negative : Bool) (m p : Nat) :
    signed negative (m * p) = signed negative m * p := by
  cases negative with
  | false => exact Int.natCast_mul m p
  | true => exact (congrArg Neg.neg (Int.natCast_mul m p)).trans (Int.neg_mul _ _).symm

theorem signed_eq_mul_iff {negative : Bool} {m p : Nat} (hp : 0 < p) {n : Int} :
    signed negative m = n * p ↔ m % p = 0 ∧ signed negative (m / p) = n := by
  have hp' : (p : Int) ≠ 0 := by omega
  constructor
  · intro h
    have hdvd : (p : Int) ∣ signed negative m := ⟨n, by rw [h, Int.mul_comm]⟩
    have hmod : m % p = 0 := by
      cases negative <;> simpa [signed, Int.natCast_dvd_natCast, Nat.dvd_iff_mod_eq_zero] using hdvd
    refine ⟨hmod, Int.eq_of_mul_eq_mul_right hp' ?_⟩
    rw [← signed_mul, Nat.div_mul_cancel (Nat.dvd_of_mod_eq_zero hmod), h]
  · rintro ⟨hmod, rfl⟩
    rw [← signed_mul, Nat.div_mul_cancel (Nat.dvd_of_mod_eq_zero hmod)]

theorem whole?_eq_some_iff {negative : Bool} {m : Nat} {q n : Int} :
    (Binary.finite negative m q).whole? = some n ↔
      signed negative m * 2 ^ q.toNat = n * 2 ^ (-q).toNat := by
  have hwhole : (Binary.finite negative m q).whole? =
      if 0 ≤ q then some (signed negative (m * 2 ^ q.toNat))
      else if m % 2 ^ (-q).toNat = 0 then some (signed negative (m / 2 ^ (-q).toNat))
      else none := rfl
  have hpower : ∀ k : Nat, ((2 ^ k : Nat) : Int) = 2 ^ k := by simp
  rw [hwhole, ← hpower, ← hpower, ← signed_mul]
  by_cases hq : 0 ≤ q
  · have hnone : (-q).toNat = 0 := by omega
    rw [if_pos hq, hnone]
    simp
  · have hnone : q.toNat = 0 := by omega
    rw [if_neg hq, hnone, Nat.pow_zero, Nat.mul_one, signed_eq_mul_iff (Nat.two_pow_pos _)]
    simp [Option.ite_none_right_eq_some]

theorem wholeReal?_eq_some_iff {x : Binary} {n : Int} :
    wholeReal? x = some n ↔ IsNumber (.real x) n := by
  unfold wholeReal?
  rw [Option.filter_eq_some_iff]
  constructor
  · rintro ⟨hwhole, hsmall⟩
    cases x with
    | finite negative m q =>
      exact .real (whole?_eq_some_iff.1 hwhole) (by simpa using hsmall)
    | infinite negative => cases hwhole
    | notANumber => cases hwhole
  · intro h
    cases h with
    | real heq hsmall => exact ⟨whole?_eq_some_iff.2 heq, by simpa using hsmall⟩

theorem wholeNumber?_eq_some_iff {v : Value} {n : Int} :
    wholeNumber? v = some n ↔ IsWhole v n := by
  constructor
  · intro h
    cases v with
    | integer k =>
      cases h
      exact .number (.integer n)
    | real x => exact .number (wholeReal?_eq_some_iff.1 h)
    | boolean b =>
      cases h
      exact .boolean b
    | string s => exact .written (numberInText?_eq_some_iff.1 h)
    | _ => cases h
  · intro h
    cases h with
    | number hnumber =>
      cases hnumber with
      | integer => rfl
      | real heq hsmall => exact wholeReal?_eq_some_iff.2 (.real heq hsmall)
    | boolean b => rfl
    | written hwritten => exact numberInText?_eq_some_iff.2 hwritten

theorem acceptCount?_eq_some_iff {v : Value} {count : Nat} :
    acceptCount? v = some count ↔ IsCount v count := by
  unfold acceptCount? IsCount
  rw [Option.bind_eq_some_iff]
  constructor
  · rintro ⟨n, hn, hcount⟩
    obtain ⟨hone, hcount⟩ := Option.ite_none_right_eq_some.1 hcount
    cases hcount
    rw [wholeNumber?_eq_some_iff] at hn
    refine ⟨?_, by omega⟩
    rwa [Int.toNat_of_nonneg (by omega)]
  · rintro ⟨hwhole, hone⟩
    exact ⟨count, wholeNumber?_eq_some_iff.2 hwhole, by
      rw [if_pos (by omega), Int.toNat_natCast]⟩

theorem switchOfNumber?_eq_some_iff {n : Int} {b : Bool} :
    switchOfNumber? n = some b ↔ n = 1 ∧ b = true ∨ n = 0 ∧ b = false := by
  unfold switchOfNumber?
  cases b <;> grind

theorem acceptSwitch?_of_isNumber {v : Value} {n : Int} (h : IsNumber v n) :
    acceptSwitch? v = switchOfNumber? n := by
  cases h with
  | integer => rfl
  | real heq hsmall =>
    rw [acceptSwitch?, wholeReal?_eq_some_iff.2 (.real heq hsmall), Option.bind_some]

theorem IsSwitch.of_isNumber {v : Value} {n : Int} {b : Bool} (hn : IsNumber v n)
    (hb : switchOfNumber? n = some b) : IsSwitch v b := by
  rcases switchOfNumber?_eq_some_iff.1 hb with ⟨rfl, rfl⟩ | ⟨rfl, rfl⟩
  · exact .one hn
  · exact .zero hn

/-- No word switches both on and off. -/
theorem not_mem_onWords {word : String} (hoff : word ∈ offWords) : word ∉ onWords := by
  intro hon
  simp only [onWords, offWords, List.mem_cons, List.not_mem_nil, or_false] at hon hoff
  rcases hoff with h | h | h | h | h | h <;> rw [h] at hon <;> revert hon <;> decide

theorem acceptSwitch?_eq_some_iff {v : Value} {b : Bool} :
    acceptSwitch? v = some b ↔ IsSwitch v b := by
  constructor
  · intro h
    cases v with
    | boolean b =>
      cases h
      exact .boolean b
    | integer n => exact .of_isNumber (.integer n) h
    | real x =>
      obtain ⟨n, hn, hb⟩ := Option.bind_eq_some_iff.1 h
      exact .of_isNumber (wholeReal?_eq_some_iff.1 hn) hb
    | string s =>
      replace h : (if smallAscii s ∈ onWords then some true
        else if smallAscii s ∈ offWords then some false else none) = some b := h
      split at h
      · rename_i hon
        cases h
        exact .onWord hon
      · split at h
        · rename_i hoff
          cases h
          exact .offWord hoff
        · cases h
    | _ => cases h
  · intro h
    cases h with
    | boolean b => rfl
    | one hn => rw [acceptSwitch?_of_isNumber hn, switchOfNumber?_eq_some_iff.2 (.inl ⟨rfl, rfl⟩)]
    | zero hn => rw [acceptSwitch?_of_isNumber hn, switchOfNumber?_eq_some_iff.2 (.inr ⟨rfl, rfl⟩)]
    | onWord hon => exact if_pos hon
    | offWord hoff => rw [acceptSwitch?, if_neg (not_mem_onWords hoff), if_pos hoff]

theorem acceptText?_eq_some_iff {v : Value} {s : String} : acceptText? v = some s ↔ IsText v s := by
  constructor
  · intro h
    cases v with
    | string s =>
      cases h
      exact .string s
    | _ => cases h
  · intro h
    cases h
    rfl

/-! ## What tables say about settings -/

/-- The keys of a section; none if it is missing, or no table. -/
def section? (t : Table) (name : String) : Table :=
  match t.lookup name with
  | some (.table inner) => inner
  | _ => []

/-- There is something in the place of a section that is no table. -/
def IsMisplaced (t : Table) (name : String) : Prop :=
  ∃ v, t.lookup name = some v ∧ ∀ inner, v ≠ .table inner

/-- A value, if there is one, stands for nothing. -/
def Refused {α : Type} (stands : Value → α → Prop) (said : Option Value) : Prop :=
  ∃ v, said = some v ∧ ∀ a, ¬ stands v a

/-- A setting has what a value stands for, or the default if there is none. -/
def Settled {α : Type} (stands : Value → α → Prop) (default : α) (said : Option Value) (a : α) :
    Prop :=
  (said = none → a = default) ∧ ∀ v, said = some v → stands v a

/-- A section of the table is no table, or a known key has a value that stands for nothing. -/
inductive Faulty (t : Table) : Prop
  | misplaced {name : String} : name ∈ ["output", "search"] → IsMisplaced t name → Faulty t
  | title : Refused IsText (t.lookup "title") → Faulty t
  | pattern : Refused IsText ((section? t "output").lookup "datetime_format") → Faulty t
  | showWeekday : Refused IsSwitch ((section? t "output").lookup "show_weekday") → Faulty t
  | count : Refused IsCount ((section? t "search").lookup "count") → Faulty t
  | expression : Refused IsText ((section? t "search").lookup "expression") → Faulty t

/-- Every known key that is there has what its value stands for, and every other one its default. -/
structure Reflects (t : Table) (c : Settings) : Prop where
  title : Settled IsText ({} : Settings).title (t.lookup "title") c.title
  pattern : Settled IsText ({} : Settings).pattern
    ((section? t "output").lookup "datetime_format") c.pattern
  showWeekday : Settled IsSwitch ({} : Settings).showWeekday
    ((section? t "output").lookup "show_weekday") c.showWeekday
  count : Settled IsCount ({} : Settings).count ((section? t "search").lookup "count") c.count
  expression : Settled IsText ({} : Settings).expression
    ((section? t "search").lookup "expression") c.expression

/-- Two tables say the same about every known key, and about the places of the sections. -/
structure SaysSame (t t' : Table) : Prop where
  misplaced : ∀ name ∈ ["output", "search"], (IsMisplaced t name ↔ IsMisplaced t' name)
  title : t.lookup "title" = t'.lookup "title"
  output : ∀ key ∈ ["datetime_format", "show_weekday"],
    (section? t "output").lookup key = (section? t' "output").lookup key
  search : ∀ key ∈ ["count", "expression"],
    (section? t "search").lookup key = (section? t' "search").lookup key

/-! ## The settings of a table -/

section
variable {α : Type} {accept? : Value → Option α} {stands : Value → α → Prop} {default a b : α}
  {t t' : Table} {key name : String} {inner : Table} {c c' : Settings}

theorem setting?_eq_some_iff (haccept : ∀ {v a}, accept? v = some a ↔ stands v a) :
    setting? accept? default t key = some a ↔ Settled stands default (t.lookup key) a := by
  unfold setting? Settled
  cases t.lookup key with
  | none => simp [eq_comm]
  | some v => simp [haccept]

theorem setting?_eq_none_iff (haccept : ∀ {v a}, accept? v = some a ↔ stands v a) :
    setting? accept? default t key = none ↔ Refused stands (t.lookup key) := by
  unfold setting? Refused
  cases t.lookup key with
  | none => simp
  | some v => simp [Option.eq_none_iff_forall_ne_some, haccept]

theorem exists_setting? (default : α) (haccept : ∀ {v a}, accept? v = some a ↔ stands v a)
    (h : ¬ Refused stands (t.lookup key)) : ∃ a, setting? accept? default t key = some a :=
  Option.ne_none_iff_exists'.1 (mt (setting?_eq_none_iff haccept).1 h)

/-- What is settled is settled once. -/
theorem Settled.eq (haccept : ∀ {v a}, accept? v = some a ↔ stands v a)
    (h : Settled stands default (t.lookup key) a) (h' : Settled stands default (t.lookup key) b) :
    a = b :=
  Option.some.inj (((setting?_eq_some_iff haccept).2 h).symm.trans
    ((setting?_eq_some_iff haccept).2 h'))

theorem acceptTable?_eq_some_iff {v : Value} : acceptTable? v = some inner ↔ v = .table inner := by
  cases v <;> simp [acceptTable?]

theorem section_eq_none_iff : setting? acceptTable? [] t name = none ↔ IsMisplaced t name :=
  setting?_eq_none_iff fun {v inner} => (acceptTable?_eq_some_iff : _ ↔ v = .table inner)

theorem section_eq_some_iff :
    setting? acceptTable? [] t name = some inner ↔ ¬ IsMisplaced t name ∧ section? t name = inner := by
  rw [← section_eq_none_iff]
  unfold setting? section?
  cases t.lookup name with
  | none => simp
  | some v => cases v <;> simp [acceptTable?]

/-- The settings of a table are those that it reflects, if its sections are tables. -/
theorem ofTable?_eq_some_iff_placed : ofTable? t = some c ↔
    ¬ IsMisplaced t "output" ∧ ¬ IsMisplaced t "search" ∧ Reflects t c := by
  simp only [ofTable?, Option.bind_eq_bind, Option.bind_eq_some_iff, section_eq_some_iff,
    setting?_eq_some_iff acceptText?_eq_some_iff, setting?_eq_some_iff acceptSwitch?_eq_some_iff,
    setting?_eq_some_iff acceptCount?_eq_some_iff, Option.some.injEq]
  constructor
  · rintro ⟨title, htitle, _, ⟨houtput, rfl⟩, pattern, hpattern, showWeekday, hshow, _,
      ⟨hsearch, rfl⟩, count, hcount, expression, hexpression, rfl⟩
    exact ⟨houtput, hsearch, htitle, hpattern, hshow, hcount, hexpression⟩
  · rintro ⟨houtput, hsearch, htitle, hpattern, hshow, hcount, hexpression⟩
    exact ⟨c.title, htitle, _, ⟨houtput, rfl⟩, c.pattern, hpattern, c.showWeekday, hshow, _,
      ⟨hsearch, rfl⟩, c.count, hcount, c.expression, hexpression, rfl⟩

/-- A faulty table has no settings, and every other one has some. -/
theorem ofTable?_eq_none_iff : ofTable? t = none ↔ Faulty t := by
  constructor
  · intro hnone
    by_contra hfaulty
    obtain ⟨title, htitle⟩ := exists_setting? ({} : Settings).title
      acceptText?_eq_some_iff fun h => hfaulty (.title h)
    obtain ⟨pattern, hpattern⟩ := exists_setting? ({} : Settings).pattern
      acceptText?_eq_some_iff fun h => hfaulty (.pattern h)
    obtain ⟨showWeekday, hshow⟩ := exists_setting? ({} : Settings).showWeekday
      acceptSwitch?_eq_some_iff fun h => hfaulty (.showWeekday h)
    obtain ⟨count, hcount⟩ := exists_setting? ({} : Settings).count
      acceptCount?_eq_some_iff fun h => hfaulty (.count h)
    obtain ⟨expression, hexpression⟩ := exists_setting? ({} : Settings).expression
      acceptText?_eq_some_iff fun h => hfaulty (.expression h)
    have hplaced : ∀ name ∈ ["output", "search"], ¬ IsMisplaced t name :=
      fun name hname h => hfaulty (.misplaced hname h)
    rw [setting?_eq_some_iff acceptText?_eq_some_iff] at htitle hpattern hexpression
    rw [setting?_eq_some_iff acceptSwitch?_eq_some_iff] at hshow
    rw [setting?_eq_some_iff acceptCount?_eq_some_iff] at hcount
    have hsome := ofTable?_eq_some_iff_placed (c := ⟨title, pattern, showWeekday, count, expression⟩).2
      ⟨hplaced _ (by decide), hplaced _ (by decide), htitle, hpattern, hshow, hcount, hexpression⟩
    rw [hnone] at hsome
    cases hsome
  · intro hfaulty
    by_contra hsome
    obtain ⟨c, hc⟩ := Option.ne_none_iff_exists'.1 hsome
    obtain ⟨houtput, hsearch, hreflects⟩ := ofTable?_eq_some_iff_placed.1 hc
    have hrefused : ∀ {α : Type} {stands : Value → α → Prop} {default a : α} {said},
        Settled stands default said a → ¬ Refused stands said := by
      rintro α stands default a said ⟨-, hstands⟩ ⟨v, hv, hno⟩
      exact hno a (hstands v hv)
    cases hfaulty with
    | misplaced hname hmisplaced =>
      rw [List.mem_cons, List.mem_singleton] at hname
      rcases hname with rfl | rfl
      · exact houtput hmisplaced
      · exact hsearch hmisplaced
    | title h => exact hrefused hreflects.title h
    | pattern h => exact hrefused hreflects.pattern h
    | showWeekday h => exact hrefused hreflects.showWeekday h
    | count h => exact hrefused hreflects.count h
    | expression h => exact hrefused hreflects.expression h

/-- The settings of a table are those that it reflects, if it is not faulty. -/
theorem ofTable?_eq_some_iff : ofTable? t = some c ↔ ¬ Faulty t ∧ Reflects t c := by
  rw [← ofTable?_eq_none_iff]
  constructor
  · intro hc
    exact ⟨by simp [hc], (ofTable?_eq_some_iff_placed.1 hc).2.2⟩
  · rintro ⟨hsome, hreflects⟩
    obtain ⟨c', hc'⟩ := Option.ne_none_iff_exists'.1 hsome
    obtain ⟨houtput, hsearch, -⟩ := ofTable?_eq_some_iff_placed.1 hc'
    exact ofTable?_eq_some_iff_placed.2 ⟨houtput, hsearch, hreflects⟩

/-- A table reflects one settings at most. -/
theorem Reflects.eq (h : Reflects t c) (h' : Reflects t c') : c = c' := by
  obtain ⟨htitle, hpattern, hshow, hcount, hexpression⟩ := h
  obtain ⟨htitle', hpattern', hshow', hcount', hexpression'⟩ := h'
  cases c
  cases c'
  congr
  · exact htitle.eq acceptText?_eq_some_iff htitle'
  · exact hpattern.eq acceptText?_eq_some_iff hpattern'
  · exact hshow.eq acceptSwitch?_eq_some_iff hshow'
  · exact hcount.eq acceptCount?_eq_some_iff hcount'
  · exact hexpression.eq acceptText?_eq_some_iff hexpression'

theorem SaysSame.symm (h : SaysSame t t') : SaysSame t' t where
  misplaced name hname := (h.misplaced name hname).symm
  title := h.title.symm
  output key hkey := (h.output key hkey).symm
  search key hkey := (h.search key hkey).symm

theorem SaysSame.reflects (h : SaysSame t t') (hc : Reflects t c) : Reflects t' c where
  title := h.title ▸ hc.title
  pattern := h.output "datetime_format" (by decide) ▸ hc.pattern
  showWeekday := h.output "show_weekday" (by decide) ▸ hc.showWeekday
  count := h.search "count" (by decide) ▸ hc.count
  expression := h.search "expression" (by decide) ▸ hc.expression

/-- What is not said about known keys does not change the settings. -/
theorem SaysSame.ofTable?_eq (h : SaysSame t t') : ofTable? t = ofTable? t' := by
  refine Option.ext fun c => ?_
  rw [ofTable?_eq_some_iff_placed, ofTable?_eq_some_iff_placed, h.misplaced _ (by decide),
    h.misplaced _ (by decide)]
  exact and_congr_right' (and_congr_right' ⟨h.reflects, h.symm.reflects⟩)

end

end Settings

end CronFire
