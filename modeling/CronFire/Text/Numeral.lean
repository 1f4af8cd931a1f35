import CronFire.Text.Blank
/-!
# Decimal numerals

A numeral is a run of ASCII digits.  Reading one accepts leading zeros and a single line feed
after the last digit, and refuses to convert a run of more than `digitLimit` digits.

* `value_digits`: the digits written for a number have that number as their value.
-/
namespace CronFire.Text

/-- The longest run of digits that is converted to a number. -/
def digitLimit : Nat := 4300

def digitChar (n : Nat) : Char := Char.ofNat (48 + n)

def digitValue (c : Char) : Nat := c.toNat - 48

/-- The value of a run of digits, the most significant first. -/
def value (cs : List Char) : Nat := cs.foldl (fun n c => 10 * n + digitValue c) 0

/-- The decimal digits of a number, without leading zeros. -/
def digits (n : Nat) : List Char :=
  if n < 10 then [digitChar n] else digits (n / 10) ++ [digitChar (n % 10)]

theorem digitValue_digitChar {n : Nat} (h : n < 10) : digitValue (digitChar n) = n := by
  have : ∀ k : Fin 10, digitValue (digitChar k) = k := by decide
  exact this ⟨n, h⟩

theorem isDigit_digitChar {n : Nat} (h : n < 10) : (digitChar n).isDigit = true := by
  have : ∀ k : Fin 10, (digitChar k).isDigit = true := by decide
  exact this ⟨n, h⟩

theorem value_append_singleton (cs : List Char) (c : Char) :
    value (cs ++ [c]) = 10 * value cs + digitValue c := by
  simp [value]

/-- Writing a number and taking the value of its digits gives the number back. -/
theorem value_digits (n : Nat) : value (digits n) = n := by
  induction n using Nat.strongRecOn with
  | ind n ih =>
    rw [digits]
    split
    · rename_i h
      simp [value, digitValue_digitChar h]
    · rename_i h
      rw [value_append_singleton, ih (n / 10) (by omega), digitValue_digitChar (by omega)]
      omega

theorem all_isDigit_digits (n : Nat) : (digits n).all Char.isDigit = true := by
  induction n using Nat.strongRecOn with
  | ind n ih =>
    rw [digits]
    split
    · rename_i h
      simp [isDigit_digitChar h]
    · rename_i h
      simp [ih (n / 10) (by omega), isDigit_digitChar (Nat.mod_lt n (by omega : 0 < 10))]

theorem digits_ne_nil (n : Nat) : digits n ≠ [] := by
  rw [digits]
  split <;> simp

/-- A number in decimal, a minus sign before a negative one. -/
def integerDigits (n : Int) : List Char :=
  if n < 0 then '-' :: digits n.natAbs else digits n.natAbs

def decimal (n : Int) : String := String.ofList (integerDigits n)

/-- A number from 0 up, with zeros on the left to at least `width` digits. -/
def zeroPadded (width : Nat) (n : Int) : List Char := padLeft width '0' (digits n.toNat)

inductive NumeralFault where
  /-- Something other than digits, or nothing at all. -/
  | notDigits
  /-- More than `digitLimit` digits. -/
  | tooLong
  deriving DecidableEq, Repr

/-- The text without one line feed at its end. -/
def dropFinalNewline (cs : List Char) : List Char :=
  if cs.getLast? = some '\n' then cs.dropLast else cs

def readNumeral (cs : List Char) : Except NumeralFault Nat :=
  let ds := dropFinalNewline cs
  if ds.isEmpty || !ds.all Char.isDigit then .error .notDigits
  else if digitLimit < ds.length then .error .tooLong
  else .ok (value ds)

end CronFire.Text
