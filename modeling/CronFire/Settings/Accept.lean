import CronFire.Settings.Basic
import CronFire.Text.Blank
import CronFire.Toml.Value
/-!
# Settings from values

Settings are read from a table.  A key that is missing leaves the default, a key that is not
known is passed over, and one value that a setting does not accept refuses the whole table.

* A text accepts a string.
* The count accepts a whole number, in any of the forms `wholeNumber?` reads, from 1 on.
* The weekday switch accepts `true` and `false`, the numbers 0 and 1 and ten words.
-/
namespace CronFire.Settings

open CronFire.Toml

/-- The digits of a text in which a low line may stand between two of them. -/
def groupedDigits? : List Char → Option (List Char)
  | [] => some []
  | '_' :: c :: cs => if c.isDigit then (groupedDigits? cs).map (c :: ·) else none
  | c :: cs => if c.isDigit then (groupedDigits? cs).map (c :: ·) else none

/-- The number that digits after a sign stand for; zeros after a point may follow. -/
def unsignedNumber? (cs : List Char) : Option Nat := do
  let whole := cs.takeWhile (· ≠ '.')
  let zeros := (cs.dropWhile (· ≠ '.')).drop 1
  if whole.head?.any Char.isDigit && zeros.all (· = '0') then
    (groupedDigits? whole).map Text.value
  else none

/-- The number that a string stands for.  There may be white space around it. -/
def numberInText? (s : String) : Option Int :=
  let cs := Text.trimSpace s.toList
  if Text.digitLimit < (String.ofList cs).utf8ByteSize then none
  else
    match cs with
    | '-' :: cs => (unsignedNumber? cs).map fun n => -(n : Int)
    | '+' :: cs => (unsignedNumber? cs).map Int.ofNat
    | cs => (unsignedNumber? cs).map Int.ofNat

/-- The whole number that a binary number is, if it has at most 63 binary digits. -/
def wholeReal? (x : Binary) : Option Int :=
  x.whole?.filter fun n => n.natAbs < Nat.pow 2 63

def wholeNumber? : Value → Option Int
  | .integer n => some n
  | .real x => wholeReal? x
  | .boolean b => some (if b then 1 else 0)
  | .string s => numberInText? s
  | _ => none

def acceptCount? (v : Value) : Option Nat :=
  (wholeNumber? v).bind fun n => if 1 ≤ n then some n.toNat else none

/-- The switch that the numbers 0 and 1 stand for. -/
def switchOfNumber? (n : Int) : Option Bool :=
  if n = 0 then some false else if n = 1 then some true else none

def onWords : List String := ["1", "on", "t", "true", "y", "yes"]

def offWords : List String := ["0", "off", "f", "false", "n", "no"]

/-- The text with its ASCII capitals made small. -/
def smallAscii (s : String) : String := String.ofList (s.toList.map Char.toLower)

def acceptSwitch? : Value → Option Bool
  | .boolean b => some b
  | .integer n => switchOfNumber? n
  | .real x => (wholeReal? x).bind switchOfNumber?
  | .string s =>
    if smallAscii s ∈ onWords then some true
    else if smallAscii s ∈ offWords then some false
    else none
  | _ => none

def acceptText? : Value → Option String
  | .string s => some s
  | _ => none

def acceptTable? : Value → Option Table
  | .table entries => some entries
  | _ => none

/-- What a key's value is accepted as, or the default if the key is missing. -/
def setting? {α : Type} (accept? : Value → Option α) (default : α) (t : Table) (key : String) :
    Option α :=
  match t.lookup key with
  | none => some default
  | some v => accept? v

def ofTable? (t : Table) : Option Settings := do
  let defaults : Settings := {}
  let title ← setting? acceptText? defaults.title t "title"
  let output ← setting? acceptTable? [] t "output"
  let pattern ← setting? acceptText? defaults.pattern output "datetime_format"
  let showWeekday ← setting? acceptSwitch? defaults.showWeekday output "show_weekday"
  let search ← setting? acceptTable? [] t "search"
  let count ← setting? acceptCount? defaults.count search "count"
  let expression ← setting? acceptText? defaults.expression search "expression"
  some { title, pattern, showWeekday, count, expression }

end CronFire.Settings
