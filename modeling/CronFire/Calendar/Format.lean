import CronFire.Calendar.Directive
/-!
# Writing moments by a pattern

A pattern is copied up to its first NUL, except that its directives stand for parts of the moment.
The offset and the name of the moment's time zone and its microseconds are filled in first, for
directives that are a letter alone; the system fills in the rest, and gives up if the text is
longer than the room that it is given.

* `Moment.write`: the text of a moment by a pattern.
* `Moment.writeFire`: the text of a fire time, with the name of the day if that is wanted.
-/
namespace CronFire

open Text

/-- An offset as a sign, hours and minutes, with seconds where it has some. -/
def offsetDigits (separator : List Char) (offset : Int) : List Char :=
  let seconds : Int := offset.natAbs
  (if offset < 0 then '-' else '+') :: zeroPadded 2 (seconds / 3600) ++ separator ++
    zeroPadded 2 (seconds / 60 % 60) ++
    (if seconds % 60 = 0 then [] else separator ++ zeroPadded 2 (seconds % 60))

/-- The room for the text of a pattern of some length: the first of 1024, 2048, 4096, … that is
256 times the length or more. -/
def patternRoom (length : Nat) : Nat :=
  let quarter := (length + 3) / 4
  1024 <<< if quarter ≤ 1 then 0 else Nat.log2 (quarter - 1) + 1

namespace Moment

/-- The pattern with the directives filled in that are not left to the system. -/
def fillZone (m : Moment) (p : Platform) : List Char → List Char
  | '%' :: c :: cs =>
    (match c with
      | 'z' => (m.offset.map (offsetDigits [])).getD []
      | 'Z' => (m.offset.map fun _ => (p.zoneName m).flatMap fun c =>
          if c = '%' then ['%', '%'] else [c]).getD []
      | 'f' => zeroPadded 6 m.micro
      | c => ['%', c]) ++ m.fillZone p cs
  | c :: cs => c :: m.fillZone p cs
  | [] => []

/-- What the system makes of a pattern, from a place where a directive may have begun. -/
def fillSystem (m : Moment) (p : Platform) : Option Directive → List Char → List Char
  | none, [] => []
  | some d, [] => d.copy p none
  | none, c :: cs =>
    if c = '%' then m.fillSystem p (some {}) cs else c :: m.fillSystem p none cs
  | some d, c :: cs =>
    match d.extend? c with
    | some e => m.fillSystem p (some e) cs
    | none => d.write p m c ++ m.fillSystem p none cs

def write (m : Moment) (p : Platform) (pattern : String) : String :=
  let cs := m.fillZone p (pattern.toList.takeWhile (· ≠ '\x00'))
  let text := m.fillSystem p none cs
  if text.length < patternRoom cs.length then String.ofList text else ""

/-- The pattern for fire times when no other is chosen. -/
def defaultPattern : String := "%Y.%m.%d %H:%M:%S"

/-- A fire time written by a pattern, with the name of its day after two blanks if wanted. -/
def writeFire (m : Moment) (p : Platform) (pattern : String) (showWeekday : Bool) : String :=
  if showWeekday then
    m.write p pattern ++ "  " ++ String.ofList (nameAt dayNames m.weekday)
  else m.write p pattern

end Moment

end CronFire
