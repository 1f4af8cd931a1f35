import CronFire.Proofs.Fire.Resolve
import Mathlib.Data.List.Chain
/-!
# The loop over the months ends

The search for a date can be told as a loop that has no bound.  It keeps a year, a month and a
day, where the day may be missing.  A turn moves on to the first allowed day and month, and asks
whether the month has that day.  If it has not, the day is given up and the loop takes another
turn.  Along the way values are compared and the length of a month is asked for, and each of
these stops the loop if its operand is missing or no month at all.

A turn arrives at the first day and month that the fields allow, real or not.  A turn without a
day therefore arrives in a later month.  So the loop ends, at the latest after the last year,
and nothing stops it on the way.  It ends with what `resolve?` answers.

Results:
* `carryTimes_cons`: one field of a time of day, with what the finer ones carry into it.
* `settleTimes_eq`: the loop over the time fields is `timeFrom?`.
* `exists_arrivesAt`: where a turn arrives.
* `turn_cases`: what a turn does.
* `exists_monthRun`: the loop has a run that nothing stops, and its months increase.
-/
namespace CronFire

/-! ## Loops -/

/-- What stops a loop that has no result. -/
inductive Halt where
  /-- A value that is not there is compared, or made part of a date. -/
  | noValue
  /-- The length of no month is asked for. -/
  | noSuchMonth
  /-- Values make no date or no time of day. -/
  | noSuchMoment
  /-- A value below the domain of a set is looked up in it. -/
  | belowDomain
  /-- A moment with an offset is compared with one without. -/
  | mixed
  deriving DecidableEq, Repr

/-- What a turn of a loop leads to: another turn, or the end. -/
inductive Turn (σ ρ : Type) where
  | again (next : σ)
  | done (result : ρ)

/-- A run of a loop that has an end.  It is listed by the states of its repeated turns. -/
inductive Run {σ ρ : Type} (turn : σ → Except Halt (Turn σ ρ) → Prop) :
    σ → List σ → Except Halt ρ → Prop where
  | done {a : σ} {r : ρ} (h : turn a (.ok (.done r))) : Run turn a [] (.ok r)
  | halt {a : σ} {e : Halt} (h : turn a (.error e)) : Run turn a [] (.error e)
  | again {a b : σ} {bs : List σ} {r : Except Halt ρ} (h : turn a (.ok (.again b)))
      (rest : Run turn b bs r) : Run turn a (b :: bs) r

/-- A loop whose turns are determined has one run. -/
theorem Run.unique {σ ρ : Type} {turn : σ → Except Halt (Turn σ ρ) → Prop}
    (hturn : ∀ a t u, turn a t → turn a u → t = u) {a : σ} {bs cs : List σ}
    {r q : Except Halt ρ} (h : Run turn a bs r) (h' : Run turn a cs q) : cs = bs ∧ q = r := by
  induction h generalizing cs with
  | done h =>
    cases h' with
    | done h2 => cases hturn _ _ _ h h2; exact ⟨rfl, rfl⟩
    | halt h2 => cases hturn _ _ _ h h2
    | again h2 => cases hturn _ _ _ h h2
  | halt h =>
    cases h' with
    | done h2 => cases hturn _ _ _ h h2
    | halt h2 => cases hturn _ _ _ h h2; exact ⟨rfl, rfl⟩
    | again h2 => cases hturn _ _ _ h h2
  | again h _ ih =>
    cases h' with
    | done h2 => cases hturn _ _ _ h h2
    | halt h2 => cases hturn _ _ _ h h2
    | again h2 rest =>
      cases hturn _ _ _ h h2
      obtain ⟨rfl, rfl⟩ := ih rest
      exact ⟨rfl, rfl⟩

/-- The values of a time of day, from the finest. -/
def TimeOfDay.values (t : TimeOfDay) : List (Option Int) :=
  [some t.second, some t.minute, some t.hour]

structure Cursor where
  times : List (Option Int)
  year : Int
  month : Int
  day : Option Int
  deriving DecidableEq, Repr

/-- Where a turn of the loop arrives, before it asks whether there is such a day. -/
structure Arrival where
  times : List (Option Int)
  year : Int
  month : Option Int
  day : Option Int
  deriving DecidableEq, Repr

/-- A date that the loop ends with, and the values of its time of day. -/
structure Found where
  date : Date
  times : List (Option Int)
  deriving DecidableEq, Repr

/-- The second month is later. -/
def MonthBefore (a b : Int × Int) : Prop := a.1 < b.1 ∨ a.1 = b.1 ∧ a.2 < b.2

def Cursor.yearMonth (c : Cursor) : Int × Int := (c.year, c.month)

def Found.yearMonth (f : Found) : Int × Int := (f.date.year, f.date.month)

/-- The months that a run comes to: those of its repeated turns and that of the date found. -/
def monthsOf (retries : List Cursor) (found : Option Found) : List (Int × Int) :=
  retries.map Cursor.yearMonth ++ found.toList.map Found.yearMonth

namespace Schedule

/-- The first allowed values of the time fields, from the finest. -/
def firstTimes (s : Schedule) : List (Option Int) :=
  [s.second.allowed.first?, s.minute.allowed.first?, s.hour.allowed.first?]

/-- The loop over the time fields, from the finest, each with the value to begin with.  `times`
are the values settled so far and `firsts` the first values of these fields; `carry` is what
they carry into the next. -/
def carryTimes : (fields : List (ValueSet × Int)) → (firsts times : List (Option Int)) →
    (carry : Int) → List (Option Int) × Int
  | [], _, times, carry => (times, carry)
  | (allowed, base) :: fields, firsts, times, carry =>
    match allowed.next? (base + carry) with
    | none => carryTimes fields (firsts ++ [allowed.first?]) (firsts ++ [allowed.first?]) 1
    | some value =>
      carryTimes fields (firsts ++ [allowed.first?])
        ((if base < value then firsts else times) ++ [some value]) 0

/-- The time fields of a floor, settled, and what they carry into the day. -/
def settleTimes (s : Schedule) (floor : TimeOfDay) : List (Option Int) × Int :=
  carryTimes [(s.second.allowed, floor.second), (s.minute.allowed, floor.minute),
    (s.hour.allowed, floor.hour)] [] [] 0

def firstCursor (s : Schedule) (date : Date) (time : TimeOfDay) : Cursor :=
  ⟨(s.settleTimes time).1, date.year, date.month,
    s.dayOfMonth.allowed.next? (date.day + (s.settleTimes time).2)⟩

/-- The first half of a turn: a missing day is the first one of the next month. -/
def settleDay (s : Schedule) (floor : Date) (c : Cursor) : Cursor :=
  match c.day with
  | none => ⟨s.firstTimes, c.year, c.month + 1, s.dayOfMonth.allowed.first?⟩
  | some day => { c with times := if floor.day < day then s.firstTimes else c.times }

/-- The second half: the month is the next allowed one, of the next year if need be. -/
def settleMonth (s : Schedule) (floor : Date) (c : Cursor) : Arrival :=
  match s.month.allowed.next? c.month with
  | none =>
    ⟨s.firstTimes, c.year + 1, s.month.allowed.first?, s.dayOfMonth.allowed.first?⟩
  | some month =>
    if floor.month < month then
      ⟨s.firstTimes, c.year, some month, s.dayOfMonth.allowed.first?⟩
    else ⟨c.times, c.year, some month, c.day⟩

def arrive (s : Schedule) (floor : Date) (c : Cursor) : Arrival :=
  s.settleMonth floor (s.settleDay floor c)

end Schedule

/-- What a turn does where it arrives.  A day that its month does not have ends the loop if it
is not before `limit`. -/
def Arrival.outcome (limit : Date) (a : Arrival) : Except Halt (Turn Cursor (Option Found)) :=
  if lastYear < a.year then .ok (.done none)
  else
    match a.month with
    | none => .error .noValue
    | some month =>
      if 1 ≤ a.year ∧ 1 ≤ month ∧ month ≤ 12 then
        match a.day with
        | none => .error .noValue
        | some day =>
          if day ≤ monthLength a.year month then
            .ok (.done (some ⟨⟨a.year, month, day⟩, a.times⟩))
          else if limit.notAfter ⟨a.year, month, day⟩ then .ok (.done none)
          else .ok (.again ⟨a.times, a.year, month, none⟩)
      else .error .noSuchMonth

namespace Schedule

def MonthLoop (s : Schedule) (limit floor : Date) :
    Cursor → List Cursor → Except Halt (Option Found) → Prop :=
  Run fun c t => t = (s.arrive floor c).outcome limit

/-- A run of the loop over the months from its beginning. -/
def MonthRun (s : Schedule) (limit date : Date) (time : TimeOfDay) :
    List Cursor → Except Halt (Option Found) → Prop :=
  s.MonthLoop limit date (s.firstCursor date time)

theorem MonthRun.unique {s : Schedule} {limit date : Date} {time : TimeOfDay}
    {cs ds : List Cursor} {r q : Except Halt (Option Found)} (h : s.MonthRun limit date time cs r)
    (h' : s.MonthRun limit date time ds q) : ds = cs ∧ q = r :=
  Run.unique (fun _ _ _ ht hu => ht.trans hu.symm) h h'

variable {s : Schedule}

section
variable (hs : s.Proper)

/-! ## The time of day -/

/-- A value that is not a member may be passed over. -/
theorem next?_succ_of_ne {v : ValueSet} (hv : v.Sound) {start : Int}
    (h : v.next? start ≠ some start) : v.next? (start + 1) = v.next? start := by
  rcases hv.next?_cases start with ⟨hn, hlt⟩ | ⟨m, hm, hin, hle, hleast⟩
  · rcases hv.next?_cases (start + 1) with ⟨hn', -⟩ | ⟨k, -, hkin, hkle, -⟩
    · rw [hn, hn']
    · have := hlt k hkin
      omega
  · have hne : m ≠ start := fun he => h (he ▸ hm)
    rcases hv.next?_cases (start + 1) with ⟨-, hlt⟩ | ⟨k, hk, hkin, hkle, hkleast⟩
    · have := hlt m hin
      omega
    · have h1 := hleast k hkin (by omega)
      have h2 := hkleast m hin (by omega)
      rw [hm, hk, Int.le_antisymm h1 h2]

include hs in
theorem exists_firstTimes : ∃ t, s.firstTime? = some t ∧ s.firstTimes = t.values := by
  obtain ⟨second, hx, -⟩ := hs.second.first?_eq
  obtain ⟨minute, hm, -⟩ := hs.minute.first?_eq
  obtain ⟨hour, hh, -⟩ := hs.hour.first?_eq
  exact ⟨⟨hour, minute, second⟩, by simp [firstTime?, firstInHour?, hx, hm, hh],
    by simp [firstTimes, TimeOfDay.values, hx, hm, hh]⟩

/-- The times settled up to a field.  `lower` are those of the finer fields with nothing
carried, if there are such, and `firsts` the first values of the finer fields. -/
def settleField (allowed : ValueSet) (base : Int) (firsts : List (Option Int))
    (lower : Option (List (Option Int))) : Option (List (Option Int)) := do
  let value ← allowed.next? base
  if value = base then
    match lower with
    | some times => some (times ++ [some value])
    | none => (allowed.next? (base + 1)).map fun later => firsts ++ [some later]
  else some (firsts ++ [some value])

/-- One turn of the loop over the time fields. -/
theorem carryTimes_cons {allowed : ValueSet} (hsound : allowed.Sound) (base : Int)
    (fields : List (ValueSet × Int)) (firsts : List (Option Int))
    (lower : Option (List (Option Int))) :
    carryTimes ((allowed, base) :: fields) firsts (lower.getD firsts)
        (if lower.isSome then 0 else 1) =
      carryTimes fields (firsts ++ [allowed.first?])
        ((settleField allowed base firsts lower).getD (firsts ++ [allowed.first?]))
        (if (settleField allowed base firsts lower).isSome then 0 else 1) := by
  have hsucc := @next?_succ_of_ne _ hsound base
  have hlater : ∀ later, allowed.next? (base + 1) = some later → base < later := fun later h => by
    have := (ValueSet.le_of_next? h).1
    omega
  rcases Option.eq_none_or_eq_some (allowed.next? base) with hn | ⟨value, hn⟩
  · have hnone := (hsucc (by simp [hn])).trans hn
    cases lower <;> simp [carryTimes, settleField, hn, hnone]
  · by_cases heq : value = base
    · subst heq
      cases lower with
      | some times => simp [carryTimes, settleField, hn]
      | none =>
        cases hk : allowed.next? (value + 1) with
        | none => simp [carryTimes, settleField, hn, hk]
        | some later => simp [carryTimes, settleField, hn, hk, hlater later hk]
    · have hskip := (hsucc (by simpa [hn] using heq)).trans hn
      have hlt := hlater value hskip
      cases lower <;> simp [carryTimes, settleField, hn, hskip, heq, hlt]

include hs in
/-- The second and the minute, settled, are the search within an hour. -/
theorem settleField_minute (floor : TimeOfDay) :
    settleField s.minute.allowed floor.minute [s.second.allowed.first?]
        (settleField s.second.allowed floor.second [] (some [])) =
      (s.timeInHour? floor).map fun t => [some t.second, some t.minute] := by
  obtain ⟨first, hfirst, -⟩ := hs.second.first?_eq
  rcases Option.eq_none_or_eq_some (s.minute.allowed.next? floor.minute) with hm | ⟨minute, hm⟩
  · simp [settleField, timeInHour?, hm]
  · by_cases heq : minute = floor.minute
    · subst heq
      rcases Option.eq_none_or_eq_some (s.second.allowed.next? floor.second) with hx | ⟨second, hx⟩
      · cases hk : s.minute.allowed.next? (floor.minute + 1) <;>
          simp [settleField, timeInHour?, hm, hx, hk, hfirst]
      · simp [settleField, timeInHour?, hm, hx]
    · simp [settleField, timeInHour?, hm, heq, hfirst]

theorem hour_of_timeInHour? {floor t : TimeOfDay} (h : s.timeInHour? floor = some t) :
    t.hour = floor.hour := by
  simp only [timeInHour?, Option.bind_eq_bind] at h
  obtain ⟨minute, -, h⟩ := Option.bind_eq_some_iff.1 h
  split at h
  · split at h
    · cases h; rfl
    · obtain ⟨later, -, h⟩ := Option.bind_eq_some_iff.1 h
      obtain ⟨second, -, h⟩ := Option.bind_eq_some_iff.1 h
      cases h; rfl
  · obtain ⟨second, -, h⟩ := Option.bind_eq_some_iff.1 h
    cases h; rfl

include hs in
/-- All time fields, settled, are the earliest time from the floor on. -/
theorem settleField_hour (floor : TimeOfDay) :
    settleField s.hour.allowed floor.hour [s.second.allowed.first?, s.minute.allowed.first?]
        ((s.timeInHour? floor).map fun t => [some t.second, some t.minute]) =
      (s.timeFrom? floor).map TimeOfDay.values := by
  obtain ⟨second, hx, -⟩ := hs.second.first?_eq
  obtain ⟨minute, hm, -⟩ := hs.minute.first?_eq
  rcases Option.eq_none_or_eq_some (s.hour.allowed.next? floor.hour) with hh | ⟨hour, hh⟩
  · simp [settleField, timeFrom?, hh]
  · by_cases heq : hour = floor.hour
    · subst heq
      cases ht : s.timeInHour? floor with
      | none =>
        cases hk : s.hour.allowed.next? (floor.hour + 1) <;>
          simp [settleField, timeFrom?, firstInHour?, TimeOfDay.values, hh, ht, hk, hx, hm]
      | some t =>
        simp [settleField, timeFrom?, TimeOfDay.values, hh, ht, hour_of_timeInHour? ht]
    · simp [settleField, timeFrom?, firstInHour?, TimeOfDay.values, hh, heq, hx, hm]

include hs in
/-- **The loop over the time fields** settles the earliest time from the floor on.  If there is
none it settles the first time of the next day. -/
theorem settleTimes_eq (floor : TimeOfDay) :
    s.settleTimes floor =
      match s.timeFrom? floor with
      | some t => (t.values, 0)
      | none => (s.firstTimes, 1) := by
  have hsecond := carryTimes_cons hs.second.sound floor.second
    [(s.minute.allowed, floor.minute), (s.hour.allowed, floor.hour)] [] (some [])
  have hminute := carryTimes_cons hs.minute.sound floor.minute [(s.hour.allowed, floor.hour)]
    [s.second.allowed.first?] (settleField s.second.allowed floor.second [] (some []))
  have hhour := carryTimes_cons hs.hour.sound floor.hour []
    [s.second.allowed.first?, s.minute.allowed.first?]
    ((s.timeInHour? floor).map fun t => [some t.second, some t.minute])
  rw [settleField_minute hs] at hminute
  rw [settleField_hour hs] at hhour
  refine hsecond.trans (hminute.trans (hhour.trans ?_))
  cases s.timeFrom? floor <;> rfl

end

end Schedule

/-- The earliest date that is left to a state.  Without a day it is after its month. -/
def Cursor.floor (c : Cursor) : Date := ⟨c.year, c.month, c.day.getD 32⟩

/-- A state that the loop can be in, for a floor on a date.  It has a day only at first. -/
structure Cursor.Follows (c : Cursor) (s : Schedule) (floor : Date) : Prop where
  year : 1 ≤ c.year ∧ c.year ≤ lastYear
  month : 1 ≤ c.month ∧ c.month ≤ 12
  day : ∀ day, c.day = some day → day ∈ s.dayOfMonth.allowed ∧ floor.day ≤ day ∧
    c.year = floor.year ∧ c.month = floor.month
  later : c.day = none → floor.stamp < c.floor.stamp

theorem Cursor.Follows.floor_le {s : Schedule} {floor : Date} {c : Cursor}
    (hc : c.Follows s floor) : floor.stamp ≤ c.floor.stamp := by
  cases hday : c.day with
  | none => exact Int.le_of_lt (hc.later hday)
  | some day =>
    have h := hc.day day hday
    simp only [Cursor.floor, hday, Option.getD_some, Date.stamp]
    omega

namespace Schedule

/-- A turn arrives at the first allowed day of an allowed month that is left to it. -/
structure ArrivesAt (s : Schedule) (floor : Date) (c : Cursor) (d : Date) : Prop where
  arrive : s.arrive floor c =
    ⟨if d = floor then c.times else s.firstTimes, d.year, some d.month, some d.day⟩
  allows : s.AllowsDate d
  le : c.floor.stamp ≤ d.stamp
  least : ∀ e, s.AllowsDate e → c.floor.stamp ≤ e.stamp → d.stamp ≤ e.stamp

variable {s : Schedule}

section
variable (hs : s.Proper)

/-! ## A turn -/

include hs in
/-- The second half of a turn arrives in the first allowed month from its own on.  There it
begins anew, unless that is a month of the same year up to the floor's.  Months are counted by
`12 * year + month`, so that a month 13 is the next January. -/
theorem exists_settleMonth (floor : Date) {times : List (Option Int)} {year month : Int}
    {day : Option Int} (hmonth : 1 ≤ month ∧ month ≤ 13) :
    ∃ y m, m ∈ s.month.allowed ∧ 12 * year + month ≤ 12 * y + m ∧
      (∀ e, s.AllowsDate e → 12 * year + month ≤ 12 * e.year + e.month →
        12 * y + m ≤ 12 * e.year + e.month) ∧
      s.settleMonth floor ⟨times, year, month, day⟩ =
        if y = year ∧ m ≤ floor.month then ⟨times, y, some m, day⟩
        else ⟨s.firstTimes, y, some m, s.dayOfMonth.allowed.first?⟩ := by
  obtain ⟨january, hj, hjin, hjle⟩ := hs.month.first?_eq
  have hdigits := fun e => digits_of_allowsDate hs (d := e)
  have hjanuary := hs.month.inside _ hjin
  simp only [FieldKind.domain] at hjanuary
  simp only [settleMonth]
  rcases hs.month.sound.next?_cases month with ⟨hn, hlt⟩ | ⟨m, hn, hin, hle, hleast⟩
  · refine ⟨year + 1, january, hjin, by omega, fun e he hfrom => ?_, ?_⟩
    · have h1 := hlt _ he.2
      have h2 := hjle _ he.2
      omega
    · rw [hn, hj, if_neg (by omega)]
  · refine ⟨year, m, hin, by omega, fun e he hfrom => ?_, ?_⟩
    · have h1 := hleast _ he.2
      have h2 := hdigits e he
      have h3 := hs.month.inside _ hin
      simp only [FieldKind.domain] at h3
      omega
    · rw [hn]
      by_cases h : floor.month < m
      · rw [if_neg (by omega)]
        exact if_pos h
      · rw [if_pos ⟨rfl, Int.not_lt.1 h⟩]
        exact if_neg h

include hs in
/-- A turn without a day begins in the month after. -/
theorem arrivesAt_of_noDay {floor : Date} {times : List (Option Int)} {year month : Int}
    (hmonth : 1 ≤ month ∧ month ≤ 12) (hlater : floor.stamp < (⟨year, month, 32⟩ : Date).stamp) :
    ∃ d, s.ArrivesAt floor ⟨times, year, month, none⟩ d := by
  obtain ⟨first, hf, hfin, hfle⟩ := hs.dayOfMonth.first?_eq
  obtain ⟨y, m, hin, hle, hleast, harrive⟩ :=
    @exists_settleMonth _ hs floor s.firstTimes year (month + 1) (some first) (by omega)
  have hd := digits_of_allowsDate hs (d := ⟨y, m, first⟩) ⟨hfin, hin⟩
  simp only at hd
  have hge : (⟨year, month, 32⟩ : Date).stamp ≤ (⟨y, m, first⟩ : Date).stamp := by
    simp only [Date.stamp]; omega
  refine ⟨⟨y, m, first⟩, ?_, ⟨hfin, hin⟩, hge, fun e he hfrom => ?_⟩
  · have hne : (⟨y, m, first⟩ : Date) ≠ floor := fun heq => by rw [heq] at hge; omega
    simp only [arrive, settleDay, hf, harrive, ite_self, if_neg hne]
  · have h1 := digits_of_allowsDate hs he
    have h2 := hfle _ he.1
    have h3 := hleast e he
    simp only [Cursor.floor, Option.getD_none, Date.stamp] at hfrom ⊢
    omega

include hs in
/-- A turn with a day begins in the floor's month. -/
theorem arrivesAt_of_day {floor : Date} {times : List (Option Int)} {day : Int}
    (hmonth : 1 ≤ floor.month ∧ floor.month ≤ 12) (hday : day ∈ s.dayOfMonth.allowed)
    (hle : floor.day ≤ day) :
    ∃ d, s.ArrivesAt floor ⟨times, floor.year, floor.month, some day⟩ d := by
  obtain ⟨first, hf, hfin, hfle⟩ := hs.dayOfMonth.first?_eq
  obtain ⟨y, m, hin, hle', hleast, harrive⟩ := @exists_settleMonth _ hs floor
    (if floor.day < day then s.firstTimes else times) floor.year floor.month (some day) (by omega)
  by_cases hkeep : y = floor.year ∧ m ≤ floor.month
  · obtain ⟨rfl, hm⟩ := hkeep
    obtain rfl : m = floor.month := by omega
    refine ⟨⟨floor.year, floor.month, day⟩, ?_, ⟨hday, hin⟩, Int.le_refl _, fun _ _ h => h⟩
    have hsettle := harrive.trans (if_pos ⟨rfl, hm⟩)
    simp only [arrive, settleDay, hsettle]
    by_cases hlt : floor.day < day
    · have hne : (⟨floor.year, floor.month, day⟩ : Date) ≠ floor := fun heq => by
        rw [← heq] at hlt
        exact Int.lt_irrefl _ hlt
      rw [if_pos hlt, if_neg hne]
    · obtain rfl : day = floor.day := by omega
      rw [if_neg hlt, if_pos rfl]
  · have hne : (⟨y, m, first⟩ : Date) ≠ floor := fun heq => hkeep (by simp [← heq])
    have hd := digits_of_allowsDate hs (d := ⟨y, m, first⟩) ⟨hfin, hin⟩
    have hdd := hs.dayOfMonth.inside _ hday
    simp only [FieldKind.domain] at hd hdd
    refine ⟨⟨y, m, first⟩, ?_, ⟨hfin, hin⟩, ?_, fun e he hfrom => ?_⟩
    · simp only [arrive, settleDay, harrive, if_neg hkeep, if_neg hne, hf]
    · simp only [Cursor.floor, Option.getD_some, Date.stamp]
      omega
    · have h1 := digits_of_allowsDate hs he
      have h2 := hfle _ he.1
      have h3 := hleast e he
      simp only [Cursor.floor, Option.getD_some, Date.stamp] at hfrom ⊢
      omega

include hs in
/-- **A turn arrives at the first allowed day** of an allowed month that is left to it. -/
theorem exists_arrivesAt {floor : Date} {c : Cursor} (hc : c.Follows s floor) :
    ∃ d, s.ArrivesAt floor c d := by
  obtain ⟨-, hmonth, hday, hlater⟩ := hc
  obtain ⟨times, year, month, day⟩ := c
  cases day with
  | none => exact arrivesAt_of_noDay hs hmonth (hlater rfl)
  | some day =>
    obtain ⟨hin, hle, rfl, rfl⟩ := hday day rfl
    exact arrivesAt_of_day hs hmonth hin hle


/-! ## What a turn does -/

include hs in
theorem ArrivesAt.outcome_late {limit floor d : Date} {c : Cursor} (h : s.ArrivesAt floor c d)
    (hlast : lastYear < d.year) : s.DateOutcome limit c.floor none := by
  refine .inr fun e he => Int.not_le.1 fun hfrom => ?_
  have h1 := h.least e he.1 hfrom
  have h2 := digits_of_allowsDate hs he.1
  have h3 := digits_of_allowsDate hs h.allows
  have h4 := he.2.2.1
  simp only [Date.stamp] at h1
  omega

theorem ArrivesAt.outcome_real {limit floor d : Date} {c : Cursor} (h : s.ArrivesAt floor c d)
    (hd : d.IsReal) : s.DateOutcome limit c.floor (some d) := by
  refine ⟨⟨h.allows, hd⟩, h.le, fun e he => h.least e he.1, fun p hp hle hlt => ?_⟩
  have := h.least p hp.1 hle
  omega

include hs in
theorem ArrivesAt.outcome_stop {limit floor d : Date} {c : Cursor} (h : s.ArrivesAt floor c d)
    (hd : s.Misses d) (hlimit : limit.stamp ≤ d.stamp) : s.DateOutcome limit c.floor none := by
  refine .inl ⟨d, hd, h.le, hlimit, fun e he hfrom => ?_⟩
  have h1 := h.least e he.1 hfrom
  have h2 := hd.stamp_ne hs he.2
  omega

include hs in
/-- A missing day before the limit leaves out nothing, and neither does its month from there
on. -/
theorem ArrivesAt.outcome_again {limit floor d : Date} {c : Cursor} {r : Option Date}
    (h : s.ArrivesAt floor c d) (hlimit : limit.IsReal) (hd : s.Misses d)
    (hbefore : d.stamp < limit.stamp)
    (hnext : s.DateOutcome limit ⟨d.year, d.month, 32⟩ r) : s.DateOutcome limit c.floor r := by
  have hdigits := digits_of_allowsDate hs h.allows
  have hle := h.le
  refine hnext.of_later (by simp only [Date.stamp] at hle ⊢; omega) (fun e he hfrom => ?_)
    (fun p hp hfrom hlt => ?_)
  · have h1 := h.least e he.1 hfrom
    have h2 := digits_of_allowsDate hs he.1
    have h3 := ne_month_of_missing he.2 hd.2.2.2 h1
    simp only [Date.stamp] at h1 ⊢
    omega
  · have h1 := h.least p hp.1 hfrom
    have h2 := digits_of_allowsDate hs hp.1
    simp only [Date.stamp] at h1 hlt
    exact Date.stamp_lt_of_missing hlimit hd.2.2.2 hbefore (by omega) (by omega)
      ⟨hdigits.1, hdigits.2.1, hdigits.2.2.1⟩ h2.2.2.2

include hs in
theorem floor_day_bounds {floor : Date} {c : Cursor} (hc : c.Follows s floor) :
    1 ≤ c.floor.day ∧ c.floor.day ≤ 32 := by
  cases hday : c.day with
  | none =>
    simp only [Cursor.floor, hday, Option.getD_none]
    decide
  | some day =>
    have h1 := hs.dayOfMonth.inside _ (hc.day day hday).1
    simp only [FieldKind.domain] at h1
    simp only [Cursor.floor, hday, Option.getD_some]
    omega

include hs in
/-- **What a turn does.** It ends the loop with the right outcome, or it takes the loop to a
later month and leaves out nothing. -/
theorem turn_cases {limit floor : Date} {c : Cursor} (hlimit : limit.IsReal)
    (hc : c.Follows s floor) :
    (∃ found, (s.arrive floor c).outcome limit = .ok (.done found) ∧
      s.DateOutcome limit c.floor (found.map Found.date) ∧
      ∀ f ∈ found, f.times = if f.date = floor then c.times else s.firstTimes) ∨
    ∃ next, (s.arrive floor c).outcome limit = .ok (.again next) ∧ next.Follows s floor ∧
      next.day = none ∧ c.floor.stamp < next.floor.stamp ∧
      ∀ r, s.DateOutcome limit next.floor r → s.DateOutcome limit c.floor r := by
  obtain ⟨d, h⟩ := exists_arrivesAt hs hc
  have hd := digits_of_allowsDate hs h.allows
  have hle := h.le
  have hyear : 1 ≤ d.year := by
    have h1 := hc.year
    have h2 := hc.month
    have h3 := floor_day_bounds hs hc
    simp only [Cursor.floor, Date.stamp] at hle h3
    omega
  rw [h.arrive]
  by_cases hlast : lastYear < d.year
  · exact .inl ⟨none, if_pos hlast, h.outcome_late hs hlast, by simp⟩
  have hvalid : 1 ≤ d.year ∧ 1 ≤ d.month ∧ d.month ≤ 12 := ⟨hyear, hd.1, hd.2.1⟩
  simp only [Arrival.outcome, if_neg hlast, if_pos hvalid]
  by_cases hlength : d.day ≤ monthLength d.year d.month
  · have hreal : d.IsReal := ⟨hyear, Int.not_lt.1 hlast, hd.1, hd.2.1, hd.2.2.1, hlength⟩
    exact .inl ⟨_, if_pos hlength, h.outcome_real hreal, by simp⟩
  have hmissing : s.Misses d := ⟨h.allows, hyear, Int.not_lt.1 hlast, Int.not_le.1 hlength⟩
  have hnotAfter := Date.notAfter_iff (e := d) hlimit.digits (by omega)
  simp only [if_neg hlength]
  by_cases hstop : limit.notAfter d = true
  · exact .inl ⟨none, if_pos hstop, h.outcome_stop hs hmissing (hnotAfter.1 hstop), by simp⟩
  · have hbefore : d.stamp < limit.stamp := Int.not_le.1 fun h => hstop (hnotAfter.2 h)
    have hlater : c.floor.stamp < (⟨d.year, d.month, 32⟩ : Date).stamp := by
      simp only [Date.stamp] at hle ⊢
      omega
    exact .inr ⟨_, if_neg hstop, ⟨⟨hyear, Int.not_lt.1 hlast⟩, ⟨hd.1, hd.2.1⟩, by simp,
      fun _ => Int.lt_of_le_of_lt hc.floor_le hlater⟩, rfl, hlater,
      fun r => h.outcome_again hs hlimit hmissing hbefore⟩

/-! ## A run -/

/-- Every repeated turn goes on to a later month, in the years of the calendar. -/
structure Advances (s : Schedule) (floor : Date) (retries : List Cursor) (found : Option Found) :
    Prop where
  bounded : ∀ c ∈ retries, 1 ≤ c.year ∧ c.year ≤ lastYear
  onward : ∀ c ∈ retries, ∃ month, (s.arrive floor c).month = some month ∧
    MonthBefore c.yearMonth ((s.arrive floor c).year, month)
  increasing : (monthsOf retries found).IsChain MonthBefore

/-- A state without a day has only later months left. -/
theorem monthBefore_of_floor_lt {c : Cursor} {year month : Int} (hday : c.day = none)
    (hc : 1 ≤ c.month ∧ c.month ≤ 12) (hmonth : 1 ≤ month ∧ month ≤ 12)
    (h : c.floor.stamp < (⟨year, month, 32⟩ : Date).stamp) :
    MonthBefore c.yearMonth (year, month) := by
  simp only [Cursor.floor, hday, Option.getD_none, Date.stamp] at h
  simp only [MonthBefore, Cursor.yearMonth]
  omega

include hs in
theorem ArrivesAt.monthBefore {floor d : Date} {c : Cursor} (h : s.ArrivesAt floor c d)
    (hc : c.Follows s floor) (hday : c.day = none) :
    MonthBefore c.yearMonth (d.year, d.month) := by
  have hd := digits_of_allowsDate hs h.allows
  have hle := h.le
  refine monthBefore_of_floor_lt hday hc.month ⟨hd.1, hd.2.1⟩ ?_
  simp only [Date.stamp] at hle ⊢
  omega

include hs in
theorem Advances.cons {floor : Date} {c : Cursor} {retries : List Cursor} {found : Option Found}
    (h : s.Advances floor retries found) (hc : c.Follows s floor) (hday : c.day = none)
    (hhead : ∀ m ∈ (monthsOf retries found).head?, MonthBefore c.yearMonth m) :
    s.Advances floor (c :: retries) found := by
  refine ⟨fun b hb => ?_, fun b hb => ?_, h.increasing.cons hhead⟩
  · rcases List.mem_cons.1 hb with rfl | hb
    · exact hc.year
    · exact h.bounded b hb
  · rcases List.mem_cons.1 hb with rfl | hb
    · obtain ⟨d, hd⟩ := exists_arrivesAt hs hc
      rw [hd.arrive]
      exact ⟨d.month, rfl, hd.monthBefore hs hc hday⟩
    · exact h.onward b hb

theorem DateOutcome.of_found {limit floor : Date} {found : Option Found} {f : Found}
    (h : s.DateOutcome limit floor (found.map Found.date)) (hf : f ∈ found) :
    s.HasDate f.date ∧ floor.stamp ≤ f.date.stamp := by
  rw [Option.mem_def.1 hf] at h
  exact ⟨h.1, h.2.1⟩

include hs in
/-- **The loop over the months has a run**, from any state that it can be in. -/
theorem exists_monthLoop {limit floor : Date} (hlimit : limit.IsReal) (bound : Nat) {c : Cursor}
    (hc : c.Follows s floor) (hbound : (⟨lastYear, 12, 32⟩ : Date).stamp - c.floor.stamp < bound) :
    ∃ retries found, s.MonthLoop limit floor c retries (.ok found) ∧
      s.DateOutcome limit c.floor (found.map Found.date) ∧
      (∀ f ∈ found, f.times = if f.date = floor then c.times else s.firstTimes) ∧
      s.Advances floor retries found ∧
      (c.day = none → ∀ m ∈ (monthsOf retries found).head?, MonthBefore c.yearMonth m) := by
  -- every turn raises the stamp of the floor, which stays below the end of the calendar
  induction bound generalizing c with
  | zero =>
    have h1 := hc.year
    have h2 := hc.month
    have h3 := floor_day_bounds hs hc
    simp only [Cursor.floor, Date.stamp] at hbound h3
    omega
  | succ bound ih =>
    rcases turn_cases hs hlimit hc with
      ⟨found, hturn, houtcome, htimes⟩ | ⟨next, hturn, hnext, hday, hlt, hskip⟩
    · refine ⟨[], found, .done hturn.symm, houtcome, htimes, ⟨by simp, by simp, ?_⟩,
        fun hnone m hm => ?_⟩
      · cases found with
        | none => exact .nil
        | some f => exact .singleton _
      · cases found with
        | none => cases hm
        | some f =>
          cases hm
          obtain ⟨hf, hle⟩ := houtcome.of_found rfl
          have hdigits := digits_of_allowsDate hs hf.1
          refine monthBefore_of_floor_lt hnone hc.month ⟨hdigits.1, hdigits.2.1⟩ ?_
          simp only [Date.stamp] at hle ⊢
          omega
    · obtain ⟨retries, found, hrun, houtcome, htimes, hadvance, hhead⟩ := ih hnext (by omega)
      refine ⟨next :: retries, found, .again hturn.symm hrun, hskip _ houtcome, fun f hf => ?_,
        hadvance.cons hs hnext hday (hhead hday), fun hnone m hm => ?_⟩
      · have hne : f.date ≠ floor := fun heq => by
          have h1 := (houtcome.of_found hf).2
          have h2 := hnext.later hday
          rw [heq] at h1
          omega
        rw [htimes f hf, if_neg hne, if_neg hne]
      · cases hm
        refine monthBefore_of_floor_lt hnone hc.month hnext.month ?_
        simpa only [Cursor.floor, hday, Option.getD_none] using hlt

/-! ## The run from the beginning -/

theorem DateOutcome.unique {limit floor : Date} {q r : Option Date}
    (hq : s.DateOutcome limit floor q) (hr : s.DateOutcome limit floor r) : q = r := by
  have hnone : ∀ d, s.DateOutcome limit floor (some d) → ¬ s.DateOutcome limit floor none := by
    intro d hd hx
    obtain ⟨hin, hle, -, hbefore⟩ := hd
    rcases hx with ⟨p, hp, hge, hlim, hall⟩ | hall
    · have h1 := hbefore p hp hge (hall d hin hle)
      omega
    · have h1 := hall d hin
      omega
  cases q with
  | none =>
    cases r with
    | none => rfl
    | some e => exact absurd hq (hnone e hr)
  | some d =>
    cases r with
    | none => exact absurd hr (hnone d hq)
    | some e =>
      have h1 := hq.2.2.1 e hr.1 hr.2.1
      have h2 := hr.2.2.1 d hq.1 hq.2.1
      rw [Date.stamp_inj hq.1.2.digits hr.1.2.digits (Int.le_antisymm h1 h2)]

include hs in
/-- The search may begin with the next allowed day of the month, or after the month. -/
theorem DateOutcome.of_next {limit : Date} {year month day : Int} {r : Option Date}
    (hday : 1 ≤ day ∧ day ≤ 32)
    (h : s.DateOutcome limit ⟨year, month, (s.dayOfMonth.allowed.next? day).getD 32⟩ r) :
    s.DateOutcome limit ⟨year, month, day⟩ r := by
  rcases hs.dayOfMonth.sound.next?_cases day with ⟨hn, hlt⟩ | ⟨d, hn, hin, hle, hleast⟩
  · rw [hn, Option.getD_none] at h
    have hall : ∀ e, s.AllowsDate e → (⟨year, month, day⟩ : Date).stamp ≤ e.stamp →
        (⟨year, month, 32⟩ : Date).stamp ≤ e.stamp := by
      intro e he hfrom
      have h1 := digits_of_allowsDate hs he
      have h2 := hlt _ he.1
      simp only [Date.stamp] at hfrom ⊢
      omega
    refine h.of_later (by simp only [Date.stamp]; omega) (fun e he => hall e he.1)
      fun p hp hfrom hbefore => ?_
    have := hall p hp.1 hfrom
    omega
  · rw [hn, Option.getD_some] at h
    have hd := hs.dayOfMonth.inside _ hin
    have hall : ∀ e, s.AllowsDate e → (⟨year, month, day⟩ : Date).stamp ≤ e.stamp →
        (⟨year, month, d⟩ : Date).stamp ≤ e.stamp := fun e he =>
      stamp_le_of_next hs ⟨hd.1, hd.2, hleast⟩ hday.1 he
    refine h.of_later (by simp only [Date.stamp]; omega) (fun e he => hall e he.1)
      fun p hp hfrom hbefore => ?_
    have := hall p hp.1 hfrom
    omega

include hs in
theorem follows_firstCursor {date : Date} {time : TimeOfDay} (hdate : date.IsReal)
    (hcarry : 0 ≤ (s.settleTimes time).2) : (s.firstCursor date time).Follows s date := by
  have hdigits := hdate.digits
  have hend := hdate.2.2.2.2.2
  have hlength := (monthLength_bounds date.year date.month).2
  refine ⟨⟨hdate.1, hdate.2.1⟩, ⟨hdigits.1, hdigits.2.1⟩, fun day hday => ?_, fun hnone => ?_⟩
  · rcases hs.dayOfMonth.sound.next?_cases (date.day + (s.settleTimes time).2) with
      ⟨hn, -⟩ | ⟨d, hn, hin, hle, -⟩
    · cases hn.symm.trans hday
    · cases hn.symm.trans hday
      exact ⟨hin, by omega, rfl, rfl⟩
  · rw [Cursor.floor, hnone]
    simp only [Option.getD_none, Date.stamp, firstCursor]
    omega

/-- The date and the values of the time of day of an answer of `resolve?`. -/
def foundOf (p : Date × TimeOfDay) : Found := ⟨p.1, p.2.values⟩

include hs in
/-- What the loop finds is what `resolve?` answers. -/
theorem map_foundOf_resolve? {limit date : Date} {time : TimeOfDay} {found : Option Found}
    (hdate : found.map Found.date =
      s.dateFrom? limit ⟨date.year, date.month, date.day + (s.settleTimes time).2⟩)
    (htimes : ∀ f ∈ found,
      f.times = if f.date = date then (s.settleTimes time).1 else s.firstTimes) :
    (s.resolve? limit date time).map foundOf = found := by
  obtain ⟨first, hfirst, hvalues⟩ := exists_firstTimes hs
  rw [settleTimes_eq hs, hvalues] at htimes
  rw [settleTimes_eq hs] at hdate
  simp only [resolve?, Option.bind_eq_bind]
  cases ht : s.timeFrom? time with
  | none =>
    simp only [ht, ite_self] at hdate htimes
    rw [← hdate]
    cases found with
    | none => rfl
    | some f => simp [hfirst, foundOf, ← htimes f rfl]
  | some onDate =>
    simp only [ht, Int.add_zero] at hdate htimes
    rw [← hdate]
    cases found with
    | none => rfl
    | some f =>
      have hf := htimes f rfl
      by_cases heq : f.date = date
      · subst heq
        rw [if_pos rfl] at hf
        simp [foundOf, ← hf]
      · rw [if_neg heq] at hf
        simp [heq, hfirst, foundOf, ← hf]

include hs in
/-- **A run of the loop from its beginning** ends with what `resolve?` answers. -/
theorem exists_monthRun {limit date : Date} (time : TimeOfDay) (hlimit : limit.IsReal)
    (hdate : date.IsReal) :
    ∃ retries, s.MonthRun limit date time retries
        (.ok ((s.resolve? limit date time).map foundOf)) ∧
      s.Advances date retries ((s.resolve? limit date time).map foundOf) := by
  have hcarry : 0 ≤ (s.settleTimes time).2 ∧ (s.settleTimes time).2 ≤ 1 := by
    rw [settleTimes_eq hs]
    split <;> simp
  obtain ⟨retries, found, hrun, houtcome, htimes, hadvance, -⟩ :=
    exists_monthLoop hs hlimit
      ((⟨lastYear, 12, 32⟩ : Date).stamp - (s.firstCursor date time).floor.stamp + 1).toNat
      (follows_firstCursor hs hdate hcarry.1) (by omega)
  have hday : 1 ≤ date.day + (s.settleTimes time).2 ∧ date.day + (s.settleTimes time).2 ≤ 32 := by
    have h1 := hdate.2.2.2.2
    have h2 := (monthLength_bounds date.year date.month).2
    omega
  have hdates : found.map Found.date =
      s.dateFrom? limit ⟨date.year, date.month, date.day + (s.settleTimes time).2⟩ :=
    (DateOutcome.of_next hs hday houtcome).unique
      (dateFrom?_outcome hs hlimit hdate.1 ⟨hdate.digits.1, hdate.digits.2.1, hday.1, by
        simp only; omega⟩)
  rw [map_foundOf_resolve? hs hdates htimes]
  exact ⟨retries, hrun, hadvance⟩

end

end Schedule

end CronFire
