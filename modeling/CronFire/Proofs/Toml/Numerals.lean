import CronFire.Proofs.Text.Digits
import CronFire.Toml.Reader
/-!
# Whole numbers that are written in decimal

Digits up to the end of their line are read as a whole number, and not as the beginning of a date,
of a time or of a number in another base, whatever the next line says; if they are too many, they
are not read at all.

* `readValue_run`: digits that do not begin with a zero.
* `readValue_digits`: the digits of a number, up to the end of their line, are that number.
-/
namespace CronFire.Toml

open CronFire.Text (digits all_isDigit_digits value_digits digitLimit exists_digits_eq_cons)

/-- What follows a numeral does not go on with a digit. -/
theorem digitRun_append {ds : List Char} (h : ds.all Char.isDigit = true) (rest : List Char) :
    digitRun Char.isDigit (ds ++ '\n' :: rest) = (ds, '\n' :: rest) := by
  induction ds with
  | nil => simp [digitRun]
  | cons d ds ih =>
    obtain ⟨hd, hds⟩ := Bool.and_eq_true_iff.mp h
    have hline : d ≠ '_' := by rintro rfl; cases hd
    rw [List.cons_append, digitRun, ih hds]
    · simp [hd]
    · intro _ _ hlow; exact absurd hlow hline

theorem dropWhile_digits {ds : List Char} (h : ds.all Char.isDigit = true) (rest : List Char) :
    (ds ++ '\n' :: rest).dropWhile Char.isDigit = '\n' :: rest := by
  rw [List.dropWhile_append_of_pos (List.all_eq_true.mp h)]
  rfl

theorem twoDigits?_inv {low high n : Nat} {cs rest : List Char}
    (h : twoDigits? low high cs = some (n, rest)) :
    cs.dropWhile Char.isDigit = rest.dropWhile Char.isDigit := by
  rcases cs with _ | ⟨a, _ | ⟨b, cs⟩⟩
  · cases h
  · cases h
  · obtain ⟨hcond, hrest⟩ := Option.ite_none_right_eq_some.mp h
    obtain ⟨-, rfl⟩ := Prod.mk.inj (Option.some.inj hrest)
    have hdigits : a.isDigit = true ∧ b.isDigit = true := by
      simp only [Bool.and_eq_true] at hcond
      exact hcond.1.1
    rw [List.dropWhile_cons_of_pos hdigits.1, List.dropWhile_cons_of_pos hdigits.2]

theorem after?_inv {c : Char} {cs rest : List Char} (h : after? c cs = some rest) :
    cs = c :: rest := by
  cases cs with
  | nil => cases h
  | cons d cs =>
    obtain ⟨rfl, hrest⟩ := Option.ite_none_right_eq_some.mp h
    rw [Option.some.inj hrest]

/-- A date has a hyphen after its first digits. -/
theorem date?_inv {cs : List Char} {r : Reading Value} (h : date? cs = some r) :
    ∃ rest, cs.dropWhile Char.isDigit = '-' :: rest := by
  obtain ⟨⟨a, cs₁⟩, h₁, h⟩ := Option.bind_eq_some_iff.mp h
  obtain ⟨⟨b, cs₂⟩, h₂, h⟩ := Option.bind_eq_some_iff.mp h
  obtain ⟨cs₃, h₃, -⟩ := Option.bind_eq_some_iff.mp h
  refine ⟨cs₃, ?_⟩
  rw [twoDigits?_inv h₁, twoDigits?_inv h₂, after?_inv h₃]
  rfl

/-- A time of day has a colon after its first digits. -/
theorem time?_inv {cs : List Char} {found : Value × List Char} (h : time? cs = some found) :
    ∃ rest, cs.dropWhile Char.isDigit = ':' :: rest := by
  obtain ⟨rest, h, -⟩ := Option.map_eq_some_iff.mp h
  obtain ⟨⟨a, cs₁⟩, h₁, h⟩ := Option.bind_eq_some_iff.mp h
  obtain ⟨cs₂, h₂, -⟩ := Option.bind_eq_some_iff.mp h
  refine ⟨cs₂, ?_⟩
  rw [twoDigits?_inv h₁, after?_inv h₂]
  rfl

theorem baseNumber?_cons {c : Char} (hc : c ≠ '0') (cs : List Char) :
    baseNumber? (c :: cs) = none := by
  unfold baseNumber?
  split
  · rename_i heq
    exact absurd (List.cons.inj heq).1 hc
  · rfl

theorem sign_cons {c : Char} (hc : c.isDigit = true) (cs : List Char) :
    sign (c :: cs) = (false, c :: cs) := by
  unfold sign
  split
  · rename_i heq
    rw [(List.cons.inj heq).1] at hc
    cases hc
  · rename_i heq
    rw [(List.cons.inj heq).1] at hc
    cases hc
  · rfl

section
variable {ds : List Char} (hdigits : ds.all Char.isDigit = true)
  (hhead : ∃ c cs, ds = c :: cs ∧ c ≠ '0')
include hdigits hhead

theorem decimalNumber?_run (rest : List Char) :
    decimalNumber? (ds ++ '\n' :: rest) =
      some (if digitLimit < ds.length then .error .numeralTooLong
        else .ok (.integer (Text.value ds), '\n' :: rest)) := by
  have hrun := digitRun_append hdigits rest
  obtain ⟨c, cs, hcs, hzero⟩ := hhead
  have hdigit : c.isDigit = true := List.all_eq_true.1 hdigits c (by simp [hcs])
  have hsign : sign (ds ++ '\n' :: rest) = (false, ds ++ '\n' :: rest) := by
    rw [hcs]
    exact sign_cons hdigit _
  have hleading : leadingDigits? (ds ++ '\n' :: rest) = some (ds, '\n' :: rest) := by
    rw [hcs] at hrun ⊢
    rw [List.cons_append, leadingDigits?]
    · rw [digits?, if_pos hdigit]
      exact congrArg some hrun
    · intro _ hc
      exact hzero (List.cons.inj hc).1
  have hfraction : fraction? ('\n' :: rest) = none := rfl
  have hexponent : exponent? ('\n' :: rest) = none := rfl
  by_cases hlong : digitLimit < ds.length <;>
    simp [decimalNumber?, hsign, hleading, hfraction, hexponent, hlong]

/-- Digits are read as a whole number, not as the start of something longer. -/
theorem numberOrTime_run (rest : List Char) :
    numberOrTime (ds ++ '\n' :: rest) =
      if digitLimit < ds.length then .error .numeralTooLong
      else .ok (.integer (Text.value ds), '\n' :: rest) := by
  have hdrop := dropWhile_digits hdigits rest
  have hdate : date? (ds ++ '\n' :: rest) = none := by
    refine Option.eq_none_iff_forall_ne_some.mpr fun r hr => ?_
    obtain ⟨more, hmore⟩ := date?_inv hr
    cases hdrop.symm.trans hmore
  have htime : time? (ds ++ '\n' :: rest) = none := by
    refine Option.eq_none_iff_forall_ne_some.mpr fun r hr => ?_
    obtain ⟨more, hmore⟩ := time?_inv hr
    cases hdrop.symm.trans hmore
  have hbase : baseNumber? (ds ++ '\n' :: rest) = none := by
    obtain ⟨c, cs, hcs, hzero⟩ := hhead
    rw [hcs]
    exact baseNumber?_cons hzero _
  unfold numberOrTime
  rw [hdate, htime, hbase, decimalNumber?_run hdigits hhead]

/-- Digits that do not begin with a zero are a whole number, unless they are too many. -/
theorem readValue_run (rest : List Char) :
    readValue (skipSpaces (ds ++ '\n' :: rest)) =
      if digitLimit < ds.length then .error .numeralTooLong
      else .ok (.integer (Text.value ds), '\n' :: rest) := by
  have hnumber := numberOrTime_run hdigits hhead rest
  obtain ⟨c, cs, hcs, -⟩ := hhead
  have hdigit : c.isDigit = true := List.all_eq_true.1 hdigits c (by simp [hcs])
  have hspace : isSpace c = false := by
    rw [isSpace, Bool.or_eq_false_iff, decide_eq_false_iff_not, decide_eq_false_iff_not]
    refine ⟨?_, ?_⟩ <;>
    · rintro rfl
      cases hdigit
  rw [← hnumber, hcs, List.cons_append, skipSpaces, List.dropWhile_cons_of_neg (by simp [hspace]),
    readValue, valueWith]
  all_goals
    intro _ heq
    rw [(List.cons.inj heq).1] at hdigit
    cases hdigit

end

/-- The digits of a number are read as that number. -/
theorem readValue_digits {n : Nat} (h : 1 ≤ n) (hlength : (digits n).length ≤ digitLimit)
    (rest : List Char) :
    readValue (skipSpaces (digits n ++ '\n' :: rest)) = .ok (.integer n, '\n' :: rest) := by
  obtain ⟨c, cs, hcs, -, hzero⟩ := exists_digits_eq_cons h
  rw [readValue_run (all_isDigit_digits n) ⟨c, cs, hcs, hzero⟩, if_neg (Nat.not_lt.2 hlength),
    value_digits]

end CronFire.Toml
