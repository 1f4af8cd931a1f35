import CronFire.Calendar.Moment
import CronFire.Schedule.Basic
/-!
# Directives

A directive of a pattern is a percent sign, flags, a width, a modifier and a letter, of which
only the first and the last must be there.  It stands for a part of a moment, set in a field of
the width.  The letters and their fields are those of the GNU C library, in the C locale.

The flags say how a field is filled up, with zeros (`0`), with blanks (`_`) or not at all (`-`),
and that letters are capitals (`^`) or change their case (`#`).  A directive with a letter that
is not known, or with a modifier that its letter does not take, is copied.

* `Platform`: what the system adds to a moment.
* `Directive.write`: what a directive stands for.
-/
namespace CronFire

open Text

/-- What the system knows about time zones and letters. -/
structure Platform where
  /-- The name of the time zone of a moment that has an offset. -/
  zoneName : Moment → List Char
  /-- Whether that time zone has daylight saving time then, if it says so. -/
  daylight : Moment → Option Bool
  /-- The name of the system's own time zone, with daylight saving time or without. -/
  ownZoneName : Bool → List Char
  /-- The seconds since the start of 1970 if the moment is one of the system's own clock. -/
  unixSeconds : Moment → Int
  /-- The capital of a letter beyond ASCII. -/
  capital : Char → Char

/-- A system on universal time, where no other time zone has a name. -/
def Platform.universal : Platform :=
  { zoneName := fun m => if m.offset = some 0 then "UTC".toList else []
    daylight := fun _ => some false
    ownZoneName := fun _ => "UTC".toList
    unixSeconds := fun m => m.wallSeconds - 86400 * (⟨1970, 1, 1⟩ : Date).ordinal
    capital := id }

def Platform.capitals (p : Platform) (cs : List Char) : List Char :=
  cs.map fun c => if c.toNat < 0x80 then c.toUpper else p.capital c

/-- The name in a list by its place, which must be one of the list's. -/
def nameAt (names : List String) (place : Int) : List Char :=
  ((names[place.toNat]?).getD "").toList

def TimeOfDay.hourOfTwelve (t : TimeOfDay) : Int := (t.hour + 11) % 12 + 1

/-! ## Weeks -/

namespace Date

/-- The week of the year by weeks that begin on the given day, Sunday as 0.  The days before the
first such day are in week 0. -/
def weekOfYear (d : Date) (first : Int) : Int := (d.dayOfYear + 6 - (d.weekday - first) % 7) / 7

/-- The Thursday of the week from Monday to Sunday that holds the day.  The week belongs to the
year of its Thursday. -/
def thursday (d : Date) : Int := d.ordinal - (d.weekday + 6) % 7 + 3

def weekYear (d : Date) : Int :=
  if d.thursday ≤ daysBeforeYear d.year then d.year - 1
  else if daysBeforeYear (d.year + 1) < d.thursday then d.year + 1
  else d.year

/-- The number of the week in the year that it belongs to, from 1. -/
def weekNumber (d : Date) : Int := (d.thursday - daysBeforeYear d.weekYear - 1) / 7 + 1

end Date

/-! ## Parts of a moment -/

namespace Moment

def clockText (m : Moment) : List Char :=
  zeroPadded 2 m.time.hour ++ ':' :: zeroPadded 2 m.time.minute ++
    ':' :: zeroPadded 2 m.time.second

/-- The last two digits of the year, the month and the day. -/
def dayText (m : Moment) : List Char :=
  zeroPadded 2 (m.date.year % 100) ++ zeroPadded 2 m.date.month ++ zeroPadded 2 m.date.day

/-- The number that a letter stands for, from 0 up, with the least number of its digits. -/
def number? (m : Moment) : Char → Option (Nat × Int)
  | 'Y' => some (1, m.date.year)
  | 'C' => some (1, m.date.year / 100)
  | 'y' => some (2, m.date.year % 100)
  | 'm' => some (2, m.date.month)
  | 'd' | 'e' => some (2, m.date.day)
  | 'j' => some (3, m.date.dayOfYear)
  | 'H' | 'k' => some (2, m.time.hour)
  | 'I' | 'l' => some (2, m.time.hourOfTwelve)
  | 'M' => some (2, m.time.minute)
  | 'S' => some (2, m.time.second)
  | 'w' => some (1, m.weekday)
  | 'u' => some (1, (m.weekday + 6) % 7 + 1)
  | 'U' => some (2, m.date.weekOfYear 0)
  | 'W' => some (2, m.date.weekOfYear 1)
  | 'G' => some (1, m.date.weekYear)
  | 'g' => some (2, m.date.weekYear % 100)
  | 'V' => some (2, m.date.weekNumber)
  | _ => none

def name? (m : Moment) : Char → Option (List Char)
  | 'A' => some (nameAt dayNames m.weekday)
  | 'a' => some ((nameAt dayNames m.weekday).take 3)
  | 'B' => some (nameAt monthNames (m.date.month - 1))
  | 'b' | 'h' => some ((nameAt monthNames (m.date.month - 1)).take 3)
  | _ => none

def half (m : Moment) : List Char := if m.time.hour < 12 then ['A', 'M'] else ['P', 'M']

end Moment

/-- The letters whose numbers are filled up with blanks if no flag says otherwise. -/
def isBlankFilled (letter : Char) : Bool := letter = 'e' || letter = 'k' || letter = 'l'

def longPattern? : Char → Option String
  | 'c' => some "%a %b %e %H:%M:%S %Y"
  | 'x' | 'D' => some "%m/%d/%y"
  | 'X' | 'T' => some "%H:%M:%S"
  | 'F' => some "%Y-%m-%d"
  | 'R' => some "%H:%M"
  | 'r' => some "%I:%M:%S %p"
  | _ => none

/-- The letters that take the modifier `E`, and those that take `O`. -/
def takesModifier (letter modifier : Char) : Bool :=
  let letters :=
    if modifier = 'E' then "cCxXyYnptPRrsTuZz" else "bhBdeHIkljmMSUWVgGwCynptPRrsTuZz"
  letters.toList.contains letter

/-! ## Directives -/

/-- How much of a directive has been read. -/
inductive DirectiveStage where
  | flags
  | width
  | modifier
  deriving DecidableEq, Repr

structure Directive where
  /-- What it has been read from. -/
  text : List Char := ['%']
  stage : DirectiveStage := .flags
  /-- The last of the flags about filling up. -/
  filler : Option Char := none
  capitals : Bool := false
  changesCase : Bool := false
  width : Nat := 0
  modifier : Option Char := none
  deriving DecidableEq, Repr

namespace Directive

/-- The directive with one more character, unless that is its letter. -/
def extend? (d : Directive) (c : Char) : Option Directive :=
  let e := { d with text := d.text ++ [c] }
  if d.stage = .flags && (c = '_' || c = '-' || c = '0') then some { e with filler := some c }
  else if d.stage = .flags && c = '^' then some { e with capitals := true }
  else if d.stage = .flags && c = '#' then some { e with changesCase := true }
  else if d.stage ≠ .modifier && c.isDigit then
    some { e with stage := .width, width := 10 * d.width + digitValue c }
  else if d.stage ≠ .modifier && (c = 'E' || c = 'O') then
    some { e with stage := .modifier, modifier := some c }
  else none

def place (d : Directive) (cs : List Char) : List Char :=
  padLeft d.width (if d.filler = some '0' then '0' else ' ') cs

def placeNumber (d : Directive) (letter : Char) (least : Nat) (n : Int) : List Char :=
  if d.filler = some '-' then d.place (digits n.toNat)
  else if d.filler = some '_' || (d.filler = none && isBlankFilled letter) then
    padLeft (max least d.width) ' ' (digits n.toNat)
  else zeroPadded (max least d.width) n

/-- A text in its field, in capitals if the flags say so. -/
def placeCased (d : Directive) (p : Platform) (capitals : Bool) (cs : List Char) : List Char :=
  d.place (if capitals then p.capitals cs else cs)

/-- The directive as it stands, with a letter that it does not take or without one.  It is copied
from its last percent sign, which may be the letter.  The letters of months have their case
changed before it is seen that the modifier does not suit them. -/
def copy (d : Directive) (p : Platform) (letter : Option Char) : List Char :=
  d.placeCased p (d.capitals || d.changesCase && letter.any ['b', 'h', 'B'].contains)
    (if letter = some '%' then ['%'] else d.text ++ letter.toList)

/-- What the directive stands for with a letter that is neither short for a pattern nor about
time zones. -/
def writeSimple (d : Directive) (p : Platform) (m : Moment) (letter : Char) :
    Option (List Char) :=
  match m.number? letter, m.name? letter with
  | some (least, n), _ => some (d.placeNumber letter least n)
  | none, some name => some (d.placeCased p (d.capitals || d.changesCase) name)
  | none, none =>
    match letter with
    | 'p' => some (d.place (if d.changesCase then m.half.map Char.toLower else m.half))
    | 'P' => some (d.place (m.half.map Char.toLower))
    | '%' => some (d.place ['%'])
    | 'n' => some (d.place ['\n'])
    | 't' => some (d.place ['\t'])
    | _ => none

end Directive

/-- What a pattern stands for whose directives are letters alone. -/
def Moment.fillSimple (m : Moment) (p : Platform) : List Char → List Char
  | '%' :: letter :: cs =>
    (({} : Directive).writeSimple p m letter).getD [] ++ m.fillSimple p cs
  | c :: cs => c :: m.fillSimple p cs
  | [] => []

namespace Directive

/-- What the system says about the time zone of a moment, by the letter of a directive.  An
offset is not known to it. -/
def writeZone (d : Directive) (p : Platform) (m : Moment) (letter : Char) : Option (List Char) :=
  let daylight := m.offset.bind fun _ => p.daylight m
  match letter with
  | 's' => some (d.place (integerDigits (p.unixSeconds m)))
  | 'z' =>
    some (if daylight.isNone then [] else d.place ['+'] ++ d.placeNumber 'z' 4 0)
  | 'Z' =>
    let name := (daylight.map p.ownZoneName).getD []
    some (if d.filler = some '-' then name else d.place name)
  | _ => none

def write (d : Directive) (p : Platform) (m : Moment) (letter : Char) : List Char :=
  if !d.modifier.all (takesModifier letter) then d.copy p (some letter)
  else
    match d.writeSimple p m letter, longPattern? letter, d.writeZone p m letter with
    | some cs, _, _ => cs
    | none, some long, _ => d.placeCased p d.capitals (m.fillSimple p long.toList)
    | none, none, some cs => cs
    | none, none, none => d.copy p (some letter)

end Directive

end CronFire
