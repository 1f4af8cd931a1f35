import CronFire.Calendar.Date
import CronFire.Text.Numeral
import CronFire.Toml.Text
/-!
# Numbers, dates and times

Whole numbers in four bases, numbers with a fraction or an exponent, and dates and times.  A
low line may stand between two digits of a number.  Each reader gives nothing when the text does
not begin with what it reads.
-/
namespace CronFire.Toml

open CronFire.Text (value)

/-- The digits at the start of a text, low lines between them left out. -/
def digitRun (isDigit : Char → Bool) : List Char → List Char × List Char
  | '_' :: c :: cs =>
    if isDigit c then
      let (ds, rest) := digitRun isDigit cs
      (c :: ds, rest)
    else ([], '_' :: c :: cs)
  | c :: cs =>
    if isDigit c then
      let (ds, rest) := digitRun isDigit cs
      (c :: ds, rest)
    else ([], c :: cs)
  | [] => ([], [])

/-- One digit or more at the start of a text. -/
def digits? (isDigit : Char → Bool) (cs : List Char) : Option (List Char × List Char) :=
  match cs with
  | c :: _ => if isDigit c then some (digitRun isDigit cs) else none
  | [] => none

/-- The number of digits in a base, the most significant first. -/
def valueIn (base : Nat) (ds : List Char) : Nat :=
  ds.foldl (fun n c => base * n + (hexValue? c).getD 0) 0

/-- The base that a letter after a zero stands for. -/
def base? : Char → Option Nat
  | 'x' => some 16
  | 'o' => some 8
  | 'b' => some 2
  | _ => none

def isDigitIn (base : Nat) (c : Char) : Bool := (hexValue? c).any (· < base)

/-- A whole number in base 16, 8 or 2. -/
def baseNumber? : List Char → Option (Int × List Char)
  | '0' :: letter :: cs => do
    let base ← base? letter
    let (ds, rest) ← digits? (isDigitIn base) cs
    some (valueIn base ds, rest)
  | _ => none

/-- A sign, if there is one: whether it is a minus. -/
def sign : List Char → Bool × List Char
  | '-' :: cs => (true, cs)
  | '+' :: cs => (false, cs)
  | cs => (false, cs)

/-- The digits before a point: a zero alone, or digits that begin with another one. -/
def leadingDigits? : List Char → Option (List Char × List Char)
  | '0' :: cs => some (['0'], cs)
  | cs => digits? Char.isDigit cs

def fraction? : List Char → Option (List Char × List Char)
  | '.' :: cs => digits? Char.isDigit cs
  | _ => none

def exponent? : List Char → Option (Int × List Char)
  | c :: cs =>
    if c = 'e' || c = 'E' then do
      let (negative, cs) := sign cs
      let (ds, rest) ← digits? Char.isDigit cs
      some (if negative then -(value ds : Int) else value ds, rest)
    else none
  | [] => none

/-- A decimal number: a whole one, or one with a fraction or an exponent. -/
def decimalNumber? (cs : List Char) : Option (Reading Value) := do
  let (negative, cs) := sign cs
  let (whole, cs) ← leadingDigits? cs
  let fraction := fraction? cs
  let (decimals, cs) := fraction.getD ([], cs)
  let exponent := exponent? cs
  let (power, cs) := exponent.getD (0, cs)
  if fraction.isSome || exponent.isSome then
    let x := Binary.ofDecimal negative (value (whole ++ decimals)) (power - decimals.length)
    some (.ok (.real x, cs))
  else if Text.digitLimit < whole.length then some (.error .numeralTooLong)
  else
    let n : Int := value whole
    some (.ok (.integer (if negative then -n else n), cs))

/-- An infinite number, or the mark of a result that is no number. -/
def specialNumber? (cs : List Char) : Option (Value × List Char) :=
  let (negative, cs) := sign cs
  match cs with
  | 'i' :: 'n' :: 'f' :: rest => some (.real (.infinite negative), rest)
  | 'n' :: 'a' :: 'n' :: rest => some (.real .notANumber, rest)
  | _ => none

def twoDigits? (low high : Nat) : List Char → Option (Nat × List Char)
  | a :: b :: cs =>
    let n := value [a, b]
    if a.isDigit && b.isDigit && low ≤ n && n ≤ high then some (n, cs) else none
  | _ => none

def after? (c : Char) : List Char → Option (List Char)
  | d :: cs => if c = d then some cs else none
  | [] => none

def afterFraction : List Char → List Char
  | '.' :: c :: cs => if c.isDigit then cs.dropWhile Char.isDigit else '.' :: c :: cs
  | cs => cs

def afterTime? (cs : List Char) : Option (List Char) := do
  let (_, cs) ← twoDigits? 0 23 cs
  let (_, cs) ← twoDigits? 0 59 (← after? ':' cs)
  let (_, cs) ← twoDigits? 0 59 (← after? ':' cs)
  some (afterFraction cs)

def afterOffset (cs : List Char) : List Char :=
  match cs with
  | c :: rest =>
    if c = 'Z' || c = 'z' then rest
    else if c = '+' || c = '-' then
      let offset : Option (List Char) := do
        let (_, more) ← twoDigits? 0 23 rest
        let (_, more) ← twoDigits? 0 59 (← after? ':' more)
        some more
      offset.getD cs
    else cs
  | [] => []

def afterDateTime (cs : List Char) : List Char :=
  match cs with
  | c :: rest =>
    if c = 'T' || c = 't' || c = ' ' then ((afterTime? rest).map afterOffset).getD cs else cs
  | [] => []

/-- A date, with or without a time of day. -/
def date? (cs : List Char) : Option (Reading Value) := do
  let (a, cs) ← twoDigits? 0 99 cs
  let (b, cs) ← twoDigits? 0 99 cs
  let (month, cs) ← twoDigits? 1 12 (← after? '-' cs)
  let (day, cs) ← twoDigits? 1 31 (← after? '-' cs)
  let rest := afterDateTime cs
  if Date.IsReal ⟨(100 * a + b : Nat), month, day⟩ then some (.ok (.temporal, rest))
  else some malformed

def time? (cs : List Char) : Option (Value × List Char) :=
  (afterTime? cs).map fun rest => (.temporal, rest)

def numberOrTime (cs : List Char) : Reading Value :=
  match date? cs with
  | some reading => reading
  | none =>
    match time? cs with
    | some found => .ok found
    | none =>
      match baseNumber? cs with
      | some (n, rest) => .ok (.integer n, rest)
      | none =>
        match decimalNumber? cs with
        | some reading => reading
        | none =>
          match specialNumber? cs with
          | some found => .ok found
          | none => malformed

end CronFire.Toml
