import CronFire.Text.LowerCase
import CronFire.Text.Numeral
import Mathlib.Algebra.Group.Nat.Defs
import Mathlib.Data.List.Basic
import Mathlib.Tactic.Common
/-!
# The digits of a number

* `length_digits_le`, `lt_pow_length_digits`: a number has at most `k` digits exactly if it lies
  below `10 ^ k`.
* `exists_digits_eq_cons`: no zero stands in front.
* `exists_zeroPadded_eq`: numbers of two digits.
* `toList_decimal`: a number from 0 up is written by its digits alone.
* `lower_of_isDigit`: digits are their own lower case.
-/
namespace CronFire.Text

theorem length_digits_le {k n : Nat} (hk : 0 < k) (h : n < 10 ^ k) : (digits n).length ≤ k := by
  induction k generalizing n with
  | zero => omega
  | succ k ih =>
    rw [digits]
    split
    · exact Nat.succ_le_succ (Nat.zero_le k)
    · rename_i hten
      have hpos : 0 < k := by
        rcases Nat.eq_zero_or_pos k with rfl | hpos
        · omega
        · exact hpos
      have hdiv : n / 10 < 10 ^ k := Nat.div_lt_of_lt_mul (by rwa [← Nat.pow_succ'])
      simpa using ih hpos hdiv

theorem lt_pow_length_digits (n : Nat) : n < 10 ^ (digits n).length := by
  induction n using Nat.strongRecOn with
  | ind n ih =>
    rw [digits]
    split
    · rename_i hten
      simpa using hten
    · have hdiv := ih (n / 10) (by omega)
      rw [List.length_append, List.length_singleton, Nat.pow_succ]
      omega

/-- A number of one digit is not too long to convert. -/
theorem lt_pow_digitLimit {n : Nat} (h : n < 10) : n < 10 ^ digitLimit := by
  have hlimit : 1 ≤ digitLimit := by decide
  -- The limit is kept out of sight: nobody should work out the power.
  generalize digitLimit = limit at hlimit ⊢
  have hten : 10 ^ 1 ≤ 10 ^ limit := Nat.pow_le_pow_right (by decide) hlimit
  exact Nat.lt_of_lt_of_le h hten

/-- A number from 1 up is written without a zero in front. -/
theorem exists_digits_eq_cons {n : Nat} (h : 1 ≤ n) :
    ∃ c cs, digits n = c :: cs ∧ c.isDigit = true ∧ c ≠ '0' := by
  induction n using Nat.strongRecOn with
  | ind n ih =>
    rw [digits]
    split
    · rename_i hten
      have : ∀ k : Fin 10, 1 ≤ k.val → (digitChar k).isDigit = true ∧ digitChar k ≠ '0' := by
        decide
      exact ⟨digitChar n, [], rfl, this ⟨n, hten⟩ h⟩
    · obtain ⟨c, cs, hcs, hc⟩ := ih (n / 10) (by omega) (by omega)
      exact ⟨c, cs ++ [digitChar (n % 10)], by rw [hcs]; rfl, hc⟩

/-! ## Numbers of a width -/

theorem isDigit_of_mem_zeroPadded {width : Nat} {n : Int} {c : Char}
    (h : c ∈ zeroPadded width n) : c.isDigit = true := by
  rcases List.mem_append.1 h with h | h
  · rw [List.eq_of_mem_replicate h]
    decide
  · exact List.all_eq_true.1 (all_isDigit_digits _) c h

theorem length_zeroPadded (width : Nat) (n : Int) :
    (zeroPadded width n).length = max width (digits n.toNat).length := by
  rw [zeroPadded, padLeft, List.length_append, List.length_replicate]
  omega

theorem length_zeroPadded_le {width k : Nat} (hk : 0 < k) (hwidth : width ≤ k) {n : Int}
    (h : n.toNat < 10 ^ k) : (zeroPadded width n).length ≤ k := by
  rw [length_zeroPadded]
  exact Nat.max_le.2 ⟨hwidth, length_digits_le hk h⟩

/-- A number below a hundred is two digits. -/
theorem exists_zeroPadded_eq {n : Int} (h : n < 100) :
    ∃ a b : Char, zeroPadded 2 n = [a, b] ∧ a.isDigit = true ∧ b.isDigit = true := by
  have hlength : (zeroPadded 2 n).length = 2 := by
    rw [length_zeroPadded]
    exact Nat.max_eq_left (length_digits_le (by decide) (by omega))
  obtain ⟨a, b, hab⟩ := List.length_eq_two.1 hlength
  have hdigits : ∀ c ∈ [a, b], c.isDigit = true := fun c hc => isDigit_of_mem_zeroPadded (hab ▸ hc)
  exact ⟨a, b, hab, hdigits a (by simp), hdigits b (by simp)⟩

theorem toList_decimal (n : Nat) : (decimal n).toList = digits n := by
  have hn : ¬ (n : Int) < 0 := by omega
  rw [decimal, String.toList_ofList, integerDigits, if_neg hn, Int.natAbs_natCast]

theorem toLower_of_isDigit {c : Char} (h : c.isDigit = true) : c.toLower = c := by
  simp only [Char.isDigit, Bool.and_eq_true, decide_eq_true_eq] at h
  unfold Char.toLower
  rw [dif_neg]
  intro hu
  have h1 := UInt32.le_iff_toNat_le.1 h.2
  have h2 := UInt32.le_iff_toNat_le.1 hu.1
  revert h1 h2; simp; omega

theorem lowerChar_of_isDigit {c : Char} (h : c.isDigit = true) : lowerChar c = [c] := by
  have hc := Char.isDigit_iff_toNat.1 h
  rw [lowerChar, if_pos (by have := hc.2; simp at this; omega), toLower_of_isDigit h]

theorem lower_of_isDigit {cs : List Char} (h : ∀ c ∈ cs, c.isDigit = true) : lower cs = cs := by
  suffices hafter : ∀ before, lowerAfter before cs = cs from hafter []
  induction cs with
  | nil => exact fun _ => rfl
  | cons c cs ih =>
    intro before
    rw [List.forall_mem_cons] at h
    have hsigma : c ≠ capitalSigma := by
      rintro rfl
      exact absurd h.1 (by decide)
    rw [lowerAfter, decide_eq_false hsigma, lowerChar_of_isDigit h.1, ih h.2]
    rfl

end CronFire.Text
