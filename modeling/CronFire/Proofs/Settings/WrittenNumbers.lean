import CronFire.Settings.Accept
import Mathlib.Data.List.TakeWhile
/-!
# Whole numbers that are written as texts

A string may stand for a whole number: decimal digits with a low line between some of them,
perhaps a sign before them and a point with zeros behind them, and white space around it all.  The
grammar says so without a rule for reading; the reader accepts exactly its texts, and finds the
number of the digits.

Results:
* `groupedDigits?_eq_some_iff`: the digits of a text.
* `numberInText?_eq_some_iff`: the number of a string.
-/
namespace CronFire.Text

/-- A text is what is left of it without white space at its ends, and that white space. -/
theorem exists_eq_trimSpace (cs : List Char) : ∃ front back, cs = front ++ trimSpace cs ++ back ∧
    (∀ c ∈ front, isSpace c = true) ∧ ∀ c ∈ back, isSpace c = true := by
  refine ⟨cs.takeWhile isSpace, ((cs.dropWhile isSpace).reverse.takeWhile isSpace).reverse, ?_,
    List.all_eq_true.1 List.all_takeWhile, fun c hc => ?_⟩
  · rw [trimSpace, List.append_assoc, ← List.reverse_append, List.takeWhile_append_dropWhile,
      List.reverse_reverse, List.takeWhile_append_dropWhile]
  · rw [List.mem_reverse] at hc
    exact List.all_eq_true.1 List.all_takeWhile c hc

theorem dropWhile_isSpace_append {front cs : List Char} (hfront : ∀ c ∈ front, isSpace c = true)
    (hne : cs ≠ []) (hcs : ∀ c ∈ cs, isSpace c = false) (back : List Char) :
    (front ++ (cs ++ back)).dropWhile isSpace = cs ++ back := by
  rw [List.dropWhile_append_of_pos hfront]
  cases cs with
  | nil => exact absurd rfl hne
  | cons c cs => exact List.dropWhile_cons_of_neg (by simp [hcs c List.mem_cons_self])

theorem trimSpace_append {front cs back : List Char} (hfront : ∀ c ∈ front, isSpace c = true)
    (hback : ∀ c ∈ back, isSpace c = true) (hne : cs ≠ [])
    (hcs : ∀ c ∈ cs, isSpace c = false) : trimSpace (front ++ cs ++ back) = cs := by
  have hreverse : ∀ {p : Char → Prop} {ds : List Char}, (∀ c ∈ ds, p c) → ∀ c ∈ ds.reverse, p c :=
    fun h c hc => h c (List.mem_reverse.1 hc)
  rw [trimSpace, List.append_assoc, dropWhile_isSpace_append hfront hne hcs, List.reverse_append]
  have hend := dropWhile_isSpace_append (hreverse hback) (mt List.reverse_eq_nil_iff.1 hne)
    (hreverse hcs) []
  rw [List.append_nil] at hend
  rw [hend, List.reverse_reverse]

end CronFire.Text

namespace CronFire.Settings

/-- Digits, and the text that they are written as with a low line between some of them. -/
inductive Grouped : List Char → List Char → Prop
  | last {d : Char} : d.isDigit = true → Grouped [d] [d]
  | next {d : Char} {cs ds : List Char} : d.isDigit = true → Grouped cs ds →
      Grouped (d :: cs) (d :: ds)
  | lowLine {d : Char} {cs ds : List Char} : d.isDigit = true → Grouped cs ds →
      Grouped (d :: '_' :: cs) (d :: ds)

/-- The text of a number without a sign: grouped digits, and perhaps a point with zeros. -/
inductive WritesUnsigned : List Char → Nat → Prop
  | whole {cs ds : List Char} : Grouped cs ds → WritesUnsigned cs (Text.value ds)
  | zeros {cs ds zeros : List Char} : Grouped cs ds → (∀ c ∈ zeros, c = '0') →
      WritesUnsigned (cs ++ '.' :: zeros) (Text.value ds)

/-- The text of a number, perhaps with a sign. -/
inductive WritesSigned : List Char → Int → Prop
  | unsigned {cs : List Char} {n : Nat} : WritesUnsigned cs n → WritesSigned cs n
  | plus {cs : List Char} {n : Nat} : WritesUnsigned cs n → WritesSigned ('+' :: cs) n
  | minus {cs : List Char} {n : Nat} : WritesUnsigned cs n → WritesSigned ('-' :: cs) (-n)

/-- The string is a number in decimal that is not too long, perhaps with white space around it. -/
def WritesNumber (s : String) (n : Int) : Prop :=
  ∃ front cs back, s.toList = front ++ cs ++ back ∧ (∀ c ∈ front, Text.isSpace c = true) ∧
    (∀ c ∈ back, Text.isSpace c = true) ∧ (String.ofList cs).utf8ByteSize ≤ Text.digitLimit ∧
    WritesSigned cs n

/-! ## Digits -/

section
variable {cs ds : List Char} {n : Nat} {c d : Char}

theorem ne_lowLine_of_isDigit (hd : d.isDigit = true) : d ≠ '_' := by
  rintro rfl
  cases hd

theorem Grouped.exists_head (h : Grouped cs ds) : ∃ d rest, cs = d :: rest ∧ d.isDigit = true := by
  cases h with
  | last hd => exact ⟨_, _, rfl, hd⟩
  | next hd _ => exact ⟨_, _, rfl, hd⟩
  | lowLine hd _ => exact ⟨_, _, rfl, hd⟩

theorem groupedDigits?_cons (hd : d.isDigit = true) (cs : List Char) :
    groupedDigits? (d :: cs) = (groupedDigits? cs).map (d :: ·) := by
  rw [groupedDigits?]
  · exact if_pos hd
  · intro _ _ hline
    exact absurd hline (ne_lowLine_of_isDigit hd)

theorem groupedDigits?_lowLine (hd : d.isDigit = true) (cs : List Char) :
    groupedDigits? ('_' :: d :: cs) = groupedDigits? (d :: cs) := by
  rw [groupedDigits?_cons hd, groupedDigits?]
  exact if_pos hd

theorem Grouped.digits_eq (h : Grouped cs ds) : groupedDigits? cs = some ds := by
  induction h with
  | last hd => rw [groupedDigits?_cons hd, groupedDigits?, Option.map_some]
  | next hd _ ih => rw [groupedDigits?_cons hd, ih, Option.map_some]
  | lowLine hd hrest ih =>
    obtain ⟨d, rest, rfl, hd'⟩ := hrest.exists_head
    rw [groupedDigits?_cons hd, groupedDigits?_lowLine hd', ih, Option.map_some]

theorem grouped_of_digits (hd : d.isDigit = true) (h : groupedDigits? (d :: cs) = some ds) :
    Grouped (d :: cs) ds := by
  induction hlength : cs.length using Nat.strongRecOn generalizing cs ds d with
  | ind length ih =>
    rw [groupedDigits?_cons hd] at h
    obtain ⟨rest, hrest, rfl⟩ := Option.map_eq_some_iff.1 h
    cases cs with
    | nil =>
      cases hrest
      exact .last hd
    | cons c cs =>
      by_cases hc : c.isDigit = true
      · exact .next hd (ih cs.length (by simp at hlength; omega) hc hrest rfl)
      · -- what is no digit is a low line, and a digit follows it
        have hline := hrest
        rw [groupedDigits?.eq_def] at hline
        split at hline
        · rename_i heq
          cases heq
        · rename_i d cs' heq
          obtain ⟨rfl, rfl⟩ := List.cons.inj heq
          obtain ⟨hd', -⟩ := Option.ite_none_right_eq_some.1 hline
          rw [groupedDigits?_lowLine hd'] at hrest
          exact .lowLine hd (ih cs'.length (by simp at hlength; omega) hd' hrest rfl)
        · rename_i heq
          obtain ⟨rfl, rfl⟩ := List.cons.inj heq
          exact absurd (Option.ite_none_right_eq_some.1 hline).1 hc

/-- The digits of a text that begins with one. -/
theorem groupedDigits?_eq_some_iff :
    (cs.head?.any Char.isDigit = true ∧ groupedDigits? cs = some ds) ↔ Grouped cs ds := by
  constructor
  · rintro ⟨hhead, h⟩
    cases cs with
    | nil => cases hhead
    | cons d cs => exact grouped_of_digits (by simpa using hhead) h
  · intro h
    obtain ⟨d, rest, rfl, hd⟩ := h.exists_head
    exact ⟨by simpa using hd, h.digits_eq⟩

/-! ## Numbers -/

theorem Grouped.not_mem (h : Grouped cs ds) (hc : c.isDigit = false) (hline : c ≠ '_') : c ∉ cs := by
  induction h with
  | last hd =>
    rw [List.mem_singleton]
    rintro rfl
    rw [hd] at hc
    cases hc
  | next hd _ ih =>
    rw [List.mem_cons, not_or]
    refine ⟨?_, ih⟩
    rintro rfl
    rw [hd] at hc
    cases hc
  | lowLine hd _ ih =>
    rw [List.mem_cons, List.mem_cons, not_or, not_or]
    refine ⟨?_, hline, ih⟩
    rintro rfl
    rw [hd] at hc
    cases hc

theorem unsignedNumber?_of_grouped (h : Grouped cs ds) {tail : List Char}
    (hpoint : ∀ c ∈ tail.head?, c = '.') (hzeros : ∀ c ∈ tail.drop 1, c = '0') :
    unsignedNumber? (cs ++ tail) = some (Text.value ds) := by
  obtain ⟨hhead, hds⟩ := groupedDigits?_eq_some_iff.2 h
  have hbefore : ∀ c ∈ cs, decide (c ≠ '.') = true := by
    intro c hc
    rw [decide_eq_true_eq]
    rintro rfl
    exact h.not_mem (by decide) (by decide) hc
  have htail : tail.takeWhile (· ≠ '.') = [] ∧ tail.dropWhile (· ≠ '.') = tail := by
    cases tail with
    | nil => exact ⟨rfl, rfl⟩
    | cons c tail =>
      obtain rfl := hpoint c rfl
      exact ⟨List.takeWhile_cons_of_neg (by decide), List.dropWhile_cons_of_neg (by decide)⟩
  have hall : (tail.drop 1).all (· = '0') = true :=
    List.all_eq_true.2 fun c hc => decide_eq_true (hzeros c hc)
  simp only [unsignedNumber?, List.takeWhile_append_of_pos hbefore,
    List.dropWhile_append_of_pos hbefore, htail, List.append_nil, hhead, hall, hds]
  rfl

/-- The number of a text without a sign. -/
theorem unsignedNumber?_eq_some_iff : unsignedNumber? cs = some n ↔ WritesUnsigned cs n := by
  constructor
  · intro h
    have hsplit := List.takeWhile_append_dropWhile (p := (· ≠ '.')) (l := cs)
    obtain ⟨hcond, h⟩ := Option.ite_none_right_eq_some.1 h
    obtain ⟨ds, hds, rfl⟩ := Option.map_eq_some_iff.1 h
    rw [Bool.and_eq_true] at hcond
    have hgrouped := groupedDigits?_eq_some_iff.1 ⟨hcond.1, hds⟩
    cases hrest : cs.dropWhile (· ≠ '.') with
    | nil =>
      rw [hrest, List.append_nil] at hsplit
      rw [hsplit] at hgrouped
      exact .whole hgrouped
    | cons c zeros =>
      have hpoint : c = '.' := by
        have hhead := List.head?_dropWhile_not (fun x => decide (x ≠ '.')) cs
        rw [hrest] at hhead
        simpa using hhead
      have hzeros := hcond.2
      rw [hrest, List.drop_one, List.tail_cons, List.all_eq_true] at hzeros
      rw [← hsplit, hrest, hpoint]
      exact .zeros hgrouped fun c hc => by simpa using hzeros c hc
  · intro h
    cases h with
    | whole hgrouped =>
      rw [← List.append_nil cs]
      exact unsignedNumber?_of_grouped hgrouped (by simp) (by simp)
    | zeros hgrouped hzeros => exact unsignedNumber?_of_grouped hgrouped (by simp) hzeros

theorem WritesUnsigned.exists_head (h : WritesUnsigned cs n) :
    ∃ d rest, cs = d :: rest ∧ d.isDigit = true := by
  cases h with
  | whole hgrouped => exact hgrouped.exists_head
  | zeros hgrouped _ =>
    obtain ⟨d, rest, rfl, hd⟩ := hgrouped.exists_head
    exact ⟨d, _, rfl, hd⟩

/-- The number of a text after its sign, if it has one. -/
def signedNumber? : List Char → Option Int
  | '-' :: cs => (unsignedNumber? cs).map fun n => -(n : Int)
  | '+' :: cs => (unsignedNumber? cs).map Int.ofNat
  | cs => (unsignedNumber? cs).map Int.ofNat

theorem signedNumber?_eq_some_iff {n : Int} : signedNumber? cs = some n ↔ WritesSigned cs n := by
  constructor
  · intro h
    unfold signedNumber? at h
    split at h
    · obtain ⟨m, hm, rfl⟩ := Option.map_eq_some_iff.1 h
      obtain ⟨n, hn, hcast⟩ := Option.bind_eq_some_iff.1 hm
      cases hcast
      exact .minus (unsignedNumber?_eq_some_iff.1 hn)
    · obtain ⟨n, hn, rfl⟩ := Option.map_eq_some_iff.1 h
      exact .plus (unsignedNumber?_eq_some_iff.1 hn)
    · obtain ⟨n, hn, rfl⟩ := Option.map_eq_some_iff.1 h
      exact .unsigned (unsignedNumber?_eq_some_iff.1 hn)
  · intro h
    cases h with
    | minus hunsigned =>
      rw [signedNumber?, unsignedNumber?_eq_some_iff.2 hunsigned]
      rfl
    | plus hunsigned =>
      rw [signedNumber?, unsignedNumber?_eq_some_iff.2 hunsigned]
      rfl
    | unsigned hunsigned =>
      obtain ⟨d, rest, hcs, hd⟩ := hunsigned.exists_head
      rw [signedNumber?, unsignedNumber?_eq_some_iff.2 hunsigned]
      · rfl
      all_goals
        rintro more hmore
        rw [hmore] at hcs
        rw [← (List.cons.inj hcs).1] at hd
        cases hd

/-! ## White space around a number -/

theorem isSpace_of_isDigit (hd : d.isDigit = true) : Text.isSpace d = false := by
  simp only [Char.isDigit, Bool.and_eq_true, decide_eq_true_eq, UInt32.le_iff_toNat_le] at hd
  have hlow : 48 ≤ d.toNat := hd.1
  have hhigh : d.toNat ≤ 57 := hd.2
  simp [Text.isSpace, Text.isBlank]
  omega

theorem WritesUnsigned.isSpace_eq_false (h : WritesUnsigned cs n) :
    ∀ c ∈ cs, Text.isSpace c = false := by
  have hdigits : ∀ {cs ds : List Char}, Grouped cs ds → ∀ c ∈ cs, Text.isSpace c = false := by
    intro cs ds hgrouped c hc
    cases hspace : Text.isSpace c with
    | false => rfl
    | true =>
      refine absurd hc (hgrouped.not_mem ?_ ?_)
      · rw [← Bool.not_eq_true]
        intro hd
        rw [isSpace_of_isDigit hd] at hspace
        cases hspace
      · rintro rfl
        revert hspace
        decide
  cases h with
  | whole hgrouped => exact hdigits hgrouped
  | zeros hgrouped hzeros =>
    intro c hc
    rcases List.mem_append.1 hc with hc | hc
    · exact hdigits hgrouped c hc
    · rcases List.mem_cons.1 hc with rfl | hc
      · decide
      · rw [hzeros c hc]
        decide

/-- No white space stands in the text of a number, and there is some text. -/
theorem WritesSigned.noSpace {n : Int} (h : WritesSigned cs n) :
    cs ≠ [] ∧ ∀ c ∈ cs, Text.isSpace c = false := by
  cases h with
  | unsigned hunsigned =>
    obtain ⟨d, rest, rfl, -⟩ := hunsigned.exists_head
    exact ⟨List.cons_ne_nil _ _, hunsigned.isSpace_eq_false⟩
  | plus hunsigned =>
    exact ⟨List.cons_ne_nil _ _, List.forall_mem_cons.2 ⟨by decide, hunsigned.isSpace_eq_false⟩⟩
  | minus hunsigned =>
    exact ⟨List.cons_ne_nil _ _, List.forall_mem_cons.2 ⟨by decide, hunsigned.isSpace_eq_false⟩⟩

end

/-- A number that a string stands for is written in it. -/
theorem numberInText?_eq_some_iff {s : String} {n : Int} :
    numberInText? s = some n ↔ WritesNumber s n := by
  have heq : numberInText? s =
      if Text.digitLimit < (String.ofList (Text.trimSpace s.toList)).utf8ByteSize then none
      else signedNumber? (Text.trimSpace s.toList) := rfl
  rw [heq, Option.ite_none_left_eq_some, Nat.not_lt, signedNumber?_eq_some_iff]
  constructor
  · rintro ⟨hsize, hsigned⟩
    obtain ⟨front, back, hs, hfront, hback⟩ := Text.exists_eq_trimSpace s.toList
    exact ⟨front, _, back, hs, hfront, hback, hsize, hsigned⟩
  · rintro ⟨front, cs, back, hs, hfront, hback, hsize, hsigned⟩
    obtain ⟨hne, hcs⟩ := hsigned.noSpace
    rw [hs, Text.trimSpace_append hfront hback hne hcs]
    exact ⟨hsize, hsigned⟩

end CronFire.Settings
