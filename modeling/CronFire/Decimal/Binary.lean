import CronFire.Decimal.Rounding
/-!
# Decimal numbers in binary

A decimal number with a fraction or an exponent is kept as the nearest number of the form
`m * 2 ^ q` with `m` below `2 ^ 53` and `q` at least -1074; of two nearest ones, the one with an
even `m`.  What is too great for that, `2 ^ 1024` and more, is infinite.
-/
namespace CronFire

/-- A number of limited precision. -/
inductive Binary where
  /-- `m * 2 ^ q`, or its negative. -/
  | finite (negative : Bool) (m : Nat) (q : Int)
  | infinite (negative : Bool)
  | notANumber
  deriving DecidableEq, Repr

namespace Binary

/-- `a / (b * 2 ^ q)` as a pair of numbers to divide. -/
def scaled (a b : Nat) (q : Int) : Nat × Nat :=
  if 0 ≤ q then (a, b * Nat.pow 2 q.toNat) else (a * Nat.pow 2 (-q).toNat, b)

/-- The exponent for `a / b`: the one that leaves 53 binary digits, or the least there is. -/
def exponentFor (a b : Nat) : Int :=
  let q : Int := (a.log2 : Int) - b.log2 - 52
  let (n, d) := scaled a b q
  max (if n / d < Nat.pow 2 52 then q - 1 else q) (-1074)

/-- The nearest number to `a / b`, where `b` is not 0. -/
def ofRatio (negative : Bool) (a b : Nat) : Binary :=
  if a = 0 then .finite negative 0 0
  else
    let q := exponentFor a b
    let (n, d) := scaled a b q
    let m := divideEven n d
    if 0 ≤ q && Nat.pow 2 1024 ≤ m * Nat.pow 2 q.toNat then .infinite negative else .finite negative m q

/-- The nearest number to `digits * 10 ^ exponent`.  Exponents far out are settled without
computing the power. -/
def ofDecimal (negative : Bool) (digits : Nat) (exponent : Int) : Binary :=
  let magnitude : Int := (digits.log2 : Int) * 30103 / 100000 + exponent
  if digits = 0 then .finite negative 0 0
  else if 400 < magnitude then .infinite negative
  else if magnitude < -400 then .finite negative 0 0
  else if 0 ≤ exponent then ofRatio negative (digits * Nat.pow 10 exponent.toNat) 1
  else ofRatio negative digits (Nat.pow 10 (-exponent).toNat)

def whole? : Binary → Option Int
  | .finite negative m q =>
    let sign (n : Nat) : Int := if negative then -n else n
    if 0 ≤ q then some (sign (m * Nat.pow 2 q.toNat))
    else if m % Nat.pow 2 (-q).toNat = 0 then some (sign (m / Nat.pow 2 (-q).toNat))
    else none
  | _ => none

example : ofDecimal false 10 (-1) = .finite false (Nat.pow 2 52) (-52) := by decide +kernel
example : (ofDecimal false 1 3).whole? = some 1000 := by decide +kernel
example : (ofDecimal false 15 (-1)).whole? = none := by decide +kernel
example : (ofDecimal false 10000000000000000001 (-19)).whole? = some 1 := by decide +kernel
example : ofDecimal false 1 400 = .infinite false := by decide +kernel

end Binary

end CronFire
