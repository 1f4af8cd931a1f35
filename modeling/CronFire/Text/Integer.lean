import CronFire.Text.Numeral
import CronFire.Text.WordChar
/-!
# Integers in text

An integer is written in decimal digits of any script, with a sign before them if wanted, single
low lines between them if wanted, and white space around.  More than `digitLimit` digits are not
read.
-/
namespace CronFire.Text

/-- The number that a decimal digit of any script stands for.  The digits of a script follow one
another from 0 on. -/
def digitOf? (c : Char) : Option Nat :=
  if c.toNat < 0x80 then
    if c.isDigit then some (digitValue c) else none
  else
    (decimalDigitRanges.find? fun r => r.1 ≤ c.toNat && c.toNat ≤ r.2).map fun r =>
      (c.toNat - r.1) % 10

/-- The digits of a text in which a low line may stand before each. -/
def groupedDigits? : List Char → Option (List Nat)
  | [] => some []
  | '_' :: c :: cs => do
    let d ← digitOf? c
    let ds ← groupedDigits? cs
    some (d :: ds)
  | c :: cs => do
    let d ← digitOf? c
    let ds ← groupedDigits? cs
    some (d :: ds)

/-- The number that digits without a sign stand for. -/
def readNatural? (cs : List Char) : Option Nat :=
  if cs.head? = some '_' then none
  else
    match groupedDigits? cs with
    | none | some [] => none
    | some ds =>
      if digitLimit < ds.length then none else some (ds.foldl (fun n d => 10 * n + d) 0)

def readInteger? (cs : List Char) : Option Int :=
  match trimSpace cs with
  | '-' :: cs => (readNatural? cs).map fun n => -(n : Int)
  | '+' :: cs => (readNatural? cs).map Int.ofNat
  | cs => (readNatural? cs).map Int.ofNat

end CronFire.Text
