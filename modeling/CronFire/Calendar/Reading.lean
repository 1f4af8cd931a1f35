import CronFire.Calendar.Moment
/-!
# Reading moments

How the moments in a call may be written is not for the program to say.  It is handed a reader of
them, of which it is known only that the moments that it reads are real.

One reader takes a date, `2024-01-03`, alone or followed by a time of day, `08:00` or `08:00:30`,
and that by an offset, `+05:30`, or by `Z` for universal time.  A `T`, blanks or a dash stand
between the date and the time, and there may be blanks before the offset.  A date alone means its
midnight.

* `MomentReader`: a reader of moments.
* `MomentReader.plain`: the one that is described here.
-/
namespace CronFire

open Text

/-- What reads the moments in a call. -/
structure MomentReader where
  /-- The moment that a text names, if it names one. -/
  read? : List Char → Option Moment
  isReal : ∀ {cs m}, read? cs = some m → m.IsReal

/-- The number in the first `count` characters, which must be digits, and what follows them. -/
def fixedNumber? (count : Nat) (cs : List Char) : Option (Int × List Char) :=
  let ds := cs.take count
  if ds.length = count && ds.all Char.isDigit then some (value ds, cs.drop count) else none

/-- What follows a character at the start of a text. -/
def after? (c : Char) (cs : List Char) : Option (List Char) :=
  if cs.head? = some c then cs.tail? else none

/-- A date at the start of a text and what follows it. -/
def Date.read? (cs : List Char) : Option (Date × List Char) := do
  let (year, cs) ← fixedNumber? 4 cs
  let cs ← after? '-' cs
  let (month, cs) ← fixedNumber? 2 cs
  let cs ← after? '-' cs
  let (day, cs) ← fixedNumber? 2 cs
  let date : Date := ⟨year, month, day⟩
  if date.IsReal then some (date, cs) else none

def TimeOfDay.read? (cs : List Char) : Option (TimeOfDay × List Char) := do
  let (hour, cs) ← fixedNumber? 2 cs
  let cs ← after? ':' cs
  let (minute, cs) ← fixedNumber? 2 cs
  let (second, cs) ← ((after? ':' cs).elim (some (0, cs)) (fixedNumber? 2))
  let time : TimeOfDay := ⟨hour, minute, second⟩
  if time.IsReal then some (time, cs) else none

/-- What follows the mark between a date and a time. -/
def afterMark? (cs : List Char) : Option (List Char) :=
  let rest := cs.dropWhile (· = ' ')
  match rest with
  | 'T' :: cs => some cs
  | '-' :: cs => some cs
  | _ => if rest.length < cs.length then some rest else none

/-- The hours and minutes of an offset, in seconds. -/
def offsetSize? (cs : List Char) : Option Int := do
  let (hours, cs) ← fixedNumber? 2 cs
  let cs ← after? ':' cs
  let (minutes, cs) ← fixedNumber? 2 cs
  if cs.isEmpty then some (3600 * hours + 60 * minutes) else none

/-- The offset at the end of a text, if there is one; none if there is something else. -/
def readOffset? (cs : List Char) : Option (Option Int) :=
  match cs.dropWhile (· = ' ') with
  | [] => some none
  | ['Z'] | ['z'] => some (some 0)
  | '+' :: cs => (offsetSize? cs).map some
  | '-' :: cs => (offsetSize? cs).map fun size => some (-size)
  | _ => none

def Moment.ofText? (cs : List Char) : Option Moment := do
  let (date, cs) ← Date.read? cs
  if cs.isEmpty then some ⟨date, .midnight, 0, none⟩
  else
    let cs ← afterMark? cs
    let (time, cs) ← TimeOfDay.read? cs
    let offset ← readOffset? cs
    some ⟨date, time, 0, offset⟩

theorem Date.isReal_of_read? {cs rest : List Char} {d : Date} (h : Date.read? cs = some (d, rest)) :
    d.IsReal := by
  simp only [Date.read?, bind, Option.bind_eq_some_iff] at h
  obtain ⟨⟨year, _⟩, -, -, -, ⟨month, _⟩, -, -, -, ⟨day, _⟩, -, h⟩ := h
  rw [Option.ite_none_right_eq_some, Option.some.injEq, Prod.mk.injEq] at h
  obtain ⟨hreal, rfl, -⟩ := h
  exact hreal

theorem TimeOfDay.isReal_of_read? {cs rest : List Char} {t : TimeOfDay}
    (h : TimeOfDay.read? cs = some (t, rest)) : t.IsReal := by
  simp only [TimeOfDay.read?, bind, Option.bind_eq_some_iff] at h
  obtain ⟨⟨hour, _⟩, -, -, -, ⟨minute, _⟩, -, ⟨second, _⟩, -, h⟩ := h
  rw [Option.ite_none_right_eq_some, Option.some.injEq, Prod.mk.injEq] at h
  obtain ⟨hreal, rfl, -⟩ := h
  exact hreal

namespace Moment

/-- A real date and a real time of day make a moment that is a whole second. -/
theorem isReal_whole {d : Date} {t : TimeOfDay} (hd : d.IsReal) (ht : t.IsReal)
    (offset : Option Int) : (⟨d, t, 0, offset⟩ : Moment).IsReal :=
  ⟨hd, ht, Int.le_refl 0, (by decide : (0 : Int) < 1000000)⟩

theorem isReal_of_ofText? {cs : List Char} {m : Moment} (h : ofText? cs = some m) : m.IsReal := by
  simp only [ofText?, bind, Option.bind_eq_some_iff] at h
  obtain ⟨⟨date, cs⟩, hdate, h⟩ := h
  have hdate := Date.isReal_of_read? hdate
  split at h
  · obtain rfl := Option.some.inj h
    exact isReal_whole hdate (by decide) none
  · rw [Option.bind_eq_some_iff] at h
    obtain ⟨cs, -, h⟩ := h
    rw [Option.bind_eq_some_iff] at h
    obtain ⟨⟨time, cs⟩, htime, h⟩ := h
    rw [Option.bind_eq_some_iff] at h
    obtain ⟨offset, -, h⟩ := h
    obtain rfl := Option.some.inj h
    exact isReal_whole hdate (TimeOfDay.isReal_of_read? htime) offset

end Moment

def MomentReader.plain : MomentReader := ⟨Moment.ofText?, Moment.isReal_of_ofText?⟩

end CronFire
