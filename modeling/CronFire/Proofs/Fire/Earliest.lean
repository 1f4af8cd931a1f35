import CronFire.Proofs.Fire.SearchLoop
import Mathlib.Data.List.Lex
/-!
# The earliest date and time of day, value by value

A turn of the search answers with the earliest date and time of day from its floor on, whatever the
day of the week.  The proofs about it order dates and times by the seconds of the clock.  Value by
value, from the year to the second, they have the same order, also behind a floor whose second is
the 60th of its minute: all that the calendar has comes either before both that second and the
minute after, or after both.

Results:
* `Floor.values_le_iff`: the order value by value is the order on the clock.
* `resolve?_earliest`: what a turn of the search answers, and what it means that there is no
  answer.
-/
namespace CronFire

/-- The values of a date and a time of day, from the coarsest.  Two lists of them are ordered by
the first value in which they differ. -/
def Floor.values (f : Floor) : List Int :=
  [f.date.year, f.date.month, f.date.day, f.time.hour, f.time.minute, f.time.second]

theorem Floor.values_lt_iff {f g : Floor} : f.values < g.values ↔
    f.date.year < g.date.year ∨ f.date.year = g.date.year ∧
    (f.date.month < g.date.month ∨ f.date.month = g.date.month ∧
    (f.date.day < g.date.day ∨ f.date.day = g.date.day ∧
    (f.time.hour < g.time.hour ∨ f.time.hour = g.time.hour ∧
    (f.time.minute < g.time.minute ∨ f.time.minute = g.time.minute ∧
      f.time.second < g.time.second)))) := by
  simp only [values, List.cons_lt_cons_iff, List.lt_irrefl, and_false, or_false]

/-- **Value by value is by the clock**, from a floor on, whose second may be 60, among dates and
times of day that there are. -/
theorem Floor.values_le_iff {f g : Floor} (hf : f.IsReal) (hdate : g.date.IsReal)
    (htime : g.time.IsReal) :
    f.values ≤ g.values ↔ wallClock f.date f.time ≤ wallClock g.date g.time := by
  have hlater := Date.ordinal_lt_ordinal hf.date hdate
  have hearlier := Date.ordinal_lt_ordinal hdate hf.date
  have hfd := hf.date.digits
  have hgd := hdate.digits
  obtain ⟨-, hhour, hminute, hsecond⟩ := hf
  obtain ⟨h1, h2, h3, h4, h5, h6⟩ := htime
  rw [← not_lt, values_lt_iff]
  simp only [Date.stamp] at hlater hearlier
  simp only [wallClock, TimeOfDay.seconds]
  omega

/-- The date and the time of day come before a moment, compared as the moment's clock shows it. -/
def Floor.Precedes (f : Floor) (m : Moment) : Prop :=
  (⟨f.date, f.time, 0, none⟩ : Moment).compareWith { m with offset := none } = .ok .lt

namespace Schedule

variable {s : Schedule} {floor f : Floor} {stop : Moment}

/-- What a turn of the search may answer from its floor on: a date and a time of day that there
are, not before the floor value by value, that all fields but the day of the week allow. -/
structure Offers (s : Schedule) (floor f : Floor) : Prop where
  date : f.date.IsReal
  time : f.time.IsReal
  allowsDate : s.AllowsDate f.date
  allowsTime : s.AllowsTime f.time
  notBefore : floor.values ≤ f.values

theorem Offers.isReal (h : s.Offers floor f) : f.IsReal := by
  obtain ⟨h1, h2, h3, h4, h5, h6⟩ := h.time
  exact ⟨h.date, ⟨h1, h2⟩, ⟨h3, h4⟩, ⟨h5, by omega⟩⟩

theorem Offers.resolves (h : s.Offers floor f) : s.Resolves f.date f.time :=
  ⟨⟨h.allowsDate, h.date⟩, h.allowsTime⟩

theorem Offers.wallClock_le (h : s.Offers floor f) (hfloor : floor.IsReal) :
    wallClock floor.date floor.time ≤ wallClock f.date f.time :=
  (Floor.values_le_iff hfloor h.date h.time).1 h.notBefore

theorem offers_of_resolves (hs : s.Proper) (hfloor : floor.IsReal) {d : Date} {t : TimeOfDay}
    (h : s.Resolves d t) (hle : wallClock floor.date floor.time ≤ wallClock d t) :
    s.Offers floor ⟨d, t⟩ := by
  have ht := isReal_of_allowsTime hs h.2
  exact ⟨h.1.2, ht, h.1.1, h.2, (Floor.values_le_iff hfloor h.1.2 ht).2 hle⟩

/-- A date after the end's own date is not before the end. -/
theorem not_precedes_of_stamp_lt (hf : f.date.IsReal) (htime : f.time.IsReal) (hstop : stop.IsReal)
    (h : stop.date.stamp < f.date.stamp) : ¬ f.Precedes stop := by
  have h1 := (Date.ordinal_lt_ordinal hstop.1 hf).2 h
  have h2 := TimeOfDay.seconds_bounds htime
  have h3 := TimeOfDay.seconds_bounds hstop.2.1
  have h4 := hstop.2.2
  intro hbefore
  simp only [Floor.Precedes, Moment.compareWith, Moment.comparable, beq_self_eq_true, if_true,
    Except.ok.injEq, Int.compare_eq_lt, Moment.instant, Moment.wallSeconds] at hbefore
  omega

/-- **A turn of the search answers with the earliest**, value by value, of the dates and times of
day from its floor on that all fields but the day of the week allow.  Without an answer there is
none before the end, on the end's own clock.  The loop over the months, from the time of day
settled on, comes to this answer and to no other. -/
theorem resolve?_earliest {expression : String} (hread : read expression = .ok s)
    (hfloor : floor.IsReal) (hstop : stop.IsReal) :
    (∃ turns, s.MonthRun stop.date floor.date floor.time turns
        (.ok ((s.resolve? stop.date floor.date floor.time).map foundOf)) ∧
      ∀ cs r, s.MonthRun stop.date floor.date floor.time cs r →
        cs = turns ∧ r = .ok ((s.resolve? stop.date floor.date floor.time).map foundOf)) ∧
    (∀ d t, s.resolve? stop.date floor.date floor.time = some (d, t) →
      s.Offers floor ⟨d, t⟩ ∧ ∀ f, s.Offers floor f → (⟨d, t⟩ : Floor).values ≤ f.values) ∧
    (s.resolve? stop.date floor.date floor.time = none →
      ∀ f, s.Offers floor f → ¬ f.Precedes stop) := by
  have hs := proper_of_read hread
  have houtcome :=
    resolve?_outcome hs hstop.1 hfloor.date hfloor.hour hfloor.minute hfloor.second
  refine ⟨?loop, fun d t hsome => ?found, fun hnone f hf => ?missed⟩
  case loop =>
    obtain ⟨turns, hrun, -⟩ := exists_monthRun hs floor.time hstop.1 hfloor.date
    exact ⟨turns, hrun, fun cs r h => hrun.unique h⟩
  case found =>
    rw [hsome] at houtcome
    obtain ⟨hresolves, hle, hleast, -⟩ := houtcome
    have hoffers := offers_of_resolves hs hfloor hresolves hle
    refine ⟨hoffers, fun f hf => ?_⟩
    exact (Floor.values_le_iff hoffers.isReal hf.date hf.time).2
      (hleast _ _ hf.resolves (hf.wallClock_le hfloor))
  case missed =>
    rw [hnone] at houtcome
    rcases houtcome with ⟨p, -, -, hlimit, hall⟩ | hall
    · have hlater := hall _ _ hf.resolves (hf.wallClock_le hfloor)
      exact not_precedes_of_stamp_lt hf.date hf.time hstop (by omega)
    · have h1 := hall _ _ hf.resolves
      have h2 := hf.wallClock_le hfloor
      omega

/-- From the 60th second of the last minute of April on, the first 31st is in May, and the floor's
time of day is reset.  After 30 January no 30th comes before March. -/
theorem resolve?_earliest_endOfApril : ∃ s r, read "*/40 5-7 31 * *" = .ok s ∧
    s.Offers ⟨⟨2023, 4, 30⟩, ⟨23, 59, 60⟩⟩ ⟨⟨2023, 5, 31⟩, ⟨5, 0, 0⟩⟩ ∧
    (∀ f, s.Offers ⟨⟨2023, 4, 30⟩, ⟨23, 59, 60⟩⟩ f →
      (⟨⟨2023, 5, 31⟩, ⟨5, 0, 0⟩⟩ : Floor).values ≤ f.values) ∧
    read "0 0 30 1-3 *" = .ok r ∧ ∀ f, r.Offers ⟨⟨2024, 1, 30⟩, ⟨0, 0, 1⟩⟩ f →
      ¬ f.Precedes ⟨⟨2024, 2, 29⟩, ⟨23, 0, 0⟩, 0, some 3600⟩ := by
  obtain ⟨s, hs, hfound⟩ : ∃ s, read "*/40 5-7 31 * *" = .ok s ∧
      s.resolve? ⟨2024, 1, 1⟩ ⟨2023, 4, 30⟩ ⟨23, 59, 60⟩ =
        some (⟨2023, 5, 31⟩, ⟨5, 0, 0⟩) := exists_read (by decide +kernel)
  obtain ⟨r, hr, hmissed⟩ : ∃ r, read "0 0 30 1-3 *" = .ok r ∧
      r.resolve? ⟨2024, 2, 29⟩ ⟨2024, 1, 30⟩ ⟨0, 0, 1⟩ = none := exists_read (by decide +kernel)
  have hlast : (⟨⟨2024, 1, 1⟩, ⟨0, 0, 0⟩, 0, none⟩ : Moment).IsReal := by decide
  have hstop : (⟨⟨2024, 2, 29⟩, ⟨23, 0, 0⟩, 0, some 3600⟩ : Moment).IsReal := by decide
  obtain ⟨-, hearliest, -⟩ := @resolve?_earliest _ ⟨⟨2023, 4, 30⟩, ⟨23, 59, 60⟩⟩ _ _ hs
    ⟨by decide, by decide, by decide, by decide⟩ hlast
  obtain ⟨-, -, hnone⟩ := @resolve?_earliest _ ⟨⟨2024, 1, 30⟩, ⟨0, 0, 1⟩⟩ _ _ hr
    ⟨by decide, by decide, by decide, by decide⟩ hstop
  obtain ⟨hoffers, hleast⟩ := hearliest _ _ hfound
  exact ⟨s, r, hs, hoffers, hleast, hr, hnone hmissed⟩

end Schedule

end CronFire
