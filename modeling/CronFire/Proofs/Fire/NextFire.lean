import CronFire.Proofs.Fire.Resolve
import Mathlib.Data.Int.LeastGreatest
/-!
# The next fire time is the earliest one

A search goes from date to date until the day of the week is right.  It gives up at a missing
day, such as 30 February, that is not before the end's date.  The end's date is the one on the
end's own clock.  On a clock ahead of it the search may give up hours before the end, and then
a fire time that lies before the end is hidden.

Results:
* `searchFrom_outcome`: a search ends, and finds the earliest fire time that is not hidden.
* `nextFire_first`: on one clock nothing is hidden.
* `nextFire_first_iff`: on two clocks, when the earliest fire time is found, and when it is not.
-/
namespace CronFire

def Date.monthEnd (d : Date) : Date := { d with day := monthLength d.year d.month }

/-- A real date up to a date that its month may not have comes no later than the last day. -/
theorem Date.stamp_le_monthEnd {d p : Date} (hd : d.IsReal) (h : d.stamp ≤ p.stamp)
    (hp : 1 ≤ p.month ∧ p.month ≤ 12 ∧ 1 ≤ p.day ∧ p.day ≤ 31) : d.stamp ≤ p.monthEnd.stamp := by
  have hdd := hd.digits
  have hlen := hd.2.2.2.2.2
  have hend := (monthLength_bounds p.year p.month).1
  have hsame : d.year = p.year → d.month = p.month → d.day ≤ monthLength p.year p.month := by
    intro hy hm; rw [← hy, ← hm]; exact hlen
  simp only [stamp, monthEnd] at h ⊢
  omega

namespace Schedule

variable {s : Schedule} {start stop t : Moment}

/-! ## Fire times -/

/-- A whole second before `stop` at which the schedule fires, on a clock with the offset. -/
structure Due (s : Schedule) (offset : Option Int) (stop t : Moment) : Prop where
  real : t.IsReal
  whole : t.micro = 0
  clock : t.offset = offset
  before : t.instant < stop.instant
  fires : s.Matches t.date t.time

/-- A whole second after `start` and before `stop` at which the schedule fires, on the clock of
`start`. -/
def Fires (s : Schedule) (start stop t : Moment) : Prop :=
  s.Due start.offset stop t ∧ start.instant < t.instant

/-- The earliest fire time after `start` and before `stop`. -/
def FirstFire (s : Schedule) (start stop t : Moment) : Prop :=
  s.Fires start stop t ∧ ∀ u, s.Fires start stop u → t.instant ≤ u.instant

instance (s : Schedule) (offset : Option Int) (stop t : Moment) :
    Decidable (s.Due offset stop t) :=
  decidable_of_iff (t.IsReal ∧ t.micro = 0 ∧ t.offset = offset ∧ t.instant < stop.instant ∧
      s.Matches t.date t.time)
    ⟨fun ⟨h1, h2, h3, h4, h5⟩ => ⟨h1, h2, h3, h4, h5⟩, fun ⟨h1, h2, h3, h4, h5⟩ =>
      ⟨h1, h2, h3, h4, h5⟩⟩

instance (s : Schedule) (start stop t : Moment) : Decidable (s.Fires start stop t) := by
  unfold Fires; infer_instance

/-- Where there is a fire time, there is a first one. -/
theorem exists_firstFire (h : s.Fires start stop t) : ∃ u, s.FirstFire start stop u := by
  obtain ⟨i, ⟨u, hu, hi⟩, hleast⟩ := Int.exists_least_of_bdd
    (P := fun i => ∃ u, s.Fires start stop u ∧ u.instant = i)
    ⟨start.instant, by rintro _ ⟨u, hu, rfl⟩; exact Int.le_of_lt hu.2⟩ ⟨_, t, h, rfl⟩
  exact ⟨u, hu, fun v hv => hi ▸ hleast _ ⟨v, hv, rfl⟩⟩

theorem Due.resolves {offset : Option Int} (h : s.Due offset stop t) : s.Resolves t.date t.time :=
  ⟨⟨h.fires.2.1, h.real.1⟩, h.fires.1⟩

theorem Due.instant_le {offset : Option Int} {u : Moment} (ht : s.Due offset stop t)
    (hu : u.micro = 0) (hclock : u.offset = offset) :
    u.instant ≤ t.instant ↔ wallClock u.date u.time ≤ wallClock t.date t.time :=
  Moment.instant_le_iff hu ht.whole (hclock.trans ht.clock.symm)

theorem Fires.eq_of_instant_eq {u : Moment} (ht : s.Fires start stop t)
    (hu : s.Fires start stop u) (h : t.instant = u.instant) : t = u :=
  Moment.eq_of_instant_eq ht.1.real hu.1.real ht.1.whole hu.1.whole
    (ht.1.clock.trans hu.1.clock.symm) h

/-- The second after the start is the floor of the search. -/
theorem fires_iff (hstart : start.IsReal) : s.Fires start stop t ↔
    s.Due start.offset stop t ∧
      wallClock start.date (floorAfter start) ≤ wallClock t.date t.time := by
  refine and_congr_right fun h => ?_
  rw [Moment.instant_lt_iff hstart h.whole h.clock]
  simp only [Moment.wallSeconds, wallClock, floorAfter, TimeOfDay.seconds]
  omega

/-! ## Missing days -/

/-- A search from a floor on gives up before it comes to the date `d`: a missing day between the
two is not before the limit.  The search comes to the missing day only if it does not stop at
the last day of that month, from which it would go on to the next month. -/
def Hidden (s : Schedule) (limit floor : Date) (time : TimeOfDay) (d : Date) : Prop :=
  ∃ p, s.Misses p ∧ floor.stamp ≤ p.stamp ∧ p.stamp < d.stamp ∧ limit.stamp ≤ p.stamp ∧
    ∀ u, s.Resolves p.monthEnd u → wallClock p.monthEnd u < wallClock floor time

theorem Misses.stamp_monthEnd_lt {p : Date} (h : s.Misses p) : p.monthEnd.stamp < p.stamp := by
  have := h.2.2.2
  simp only [Date.stamp, Date.monthEnd]
  omega

section
variable (hs : s.Proper)

include hs in
theorem Misses.isReal_monthEnd {p : Date} (h : s.Misses p) : p.monthEnd.IsReal := by
  have h1 := digits_of_allowsDate hs h.1
  have h2 := (monthLength_bounds p.year p.month).1
  exact ⟨h.2.1, h.2.2.1, h1.1, h1.2.1, by simp only [Date.monthEnd]; omega, Int.le_refl _⟩

include hs in
/-- Before a missing day, the day after a date comes no later, unless the date is the last of the
missing day's month. -/
theorem Misses.stamp_tomorrow_le {p d : Date} (h : s.Misses p) (hd : d.IsReal)
    (hlt : d.stamp < p.stamp) (hne : d ≠ p.monthEnd) : d.tomorrow.stamp ≤ p.stamp := by
  have hend := h.isReal_monthEnd hs
  have h1 := Date.stamp_le_monthEnd hd (Int.le_of_lt hlt) (digits_of_allowsDate hs h.1)
  have h2 : d.stamp ≠ p.monthEnd.stamp := fun he =>
    hne (Date.stamp_inj hd.digits hend.digits he)
  have h3 := Date.stamp_tomorrow_le hd hend (by omega)
  have h4 := h.stamp_monthEnd_lt
  omega

include hs in
/-- What is hidden from a later midnight on is hidden from an earlier floor on: the last day of
the missing day's month is not before that midnight, so no time on it is allowed. -/
theorem Hidden.of_midnight {limit floor later e : Date} {time : TimeOfDay} (hlater : later.IsReal)
    (hle : floor.stamp ≤ later.stamp) (h : s.Hidden limit later .midnight e) :
    s.Hidden limit floor time e := by
  obtain ⟨p, hp, hge, hlt, hlim, hlast⟩ := h
  refine ⟨p, hp, by omega, hlt, hlim, fun v hv => ?_⟩
  have h1 := Date.stamp_le_monthEnd hlater hge (digits_of_allowsDate hs hp.1)
  have h2 := (Date.ordinal_le_ordinal hlater hv.1.2).2 h1
  have h3 := TimeOfDay.seconds_bounds (isReal_of_allowsTime hs hv.2)
  have h4 := hlast v hv
  rw [wallClock_midnight, wallClock] at h4
  omega

include hs in
/-- What is hidden from a floor on is hidden from the day after a date that the search came to:
that date is not the last of the missing day's month, for from there the search would have gone
on to the next month. -/
theorem Hidden.tomorrow {limit floor d e : Date} {time u : TimeOfDay} (hd : s.Resolves d u)
    (hle : wallClock floor time ≤ wallClock d u)
    (hbefore : ∀ p, s.Misses p → floor.stamp ≤ p.stamp → p.stamp < d.stamp →
      p.stamp < limit.stamp)
    (h : s.Hidden limit floor time e) : s.Hidden limit d.tomorrow .midnight e := by
  obtain ⟨p, hp, hge, hlt, hlim, hlast⟩ := h
  have hdp : d.stamp < p.stamp := by
    have h1 := hp.stamp_ne hs hd.1.2
    have h2 := hbefore p hp hge
    omega
  have hne : d ≠ p.monthEnd := by
    intro heq
    subst heq
    have := hlast u hd
    omega
  refine ⟨p, hp, hp.stamp_tomorrow_le hs hd.1.2 hdp hne, hlt, hlim, fun v hv => ?_⟩
  have h1 := hlast v hv
  have h2 := TimeOfDay.seconds_bounds (isReal_of_allowsTime hs hd.2)
  have h3 := Date.ordinal_tomorrow hd.1.2
  rw [wallClock_midnight]
  rw [wallClock] at hle
  simp only [wallClock] at h1 hle ⊢
  omega

/-! ## The search -/

/-- A fire time from a floor on that a search does not miss. -/
def Findable (s : Schedule) (start stop : Moment) (date : Date) (time : TimeOfDay)
    (t : Moment) : Prop :=
  s.Due start.offset stop t ∧ wallClock date time ≤ wallClock t.date t.time ∧
    ¬ s.Hidden stop.date date time t.date

include hs in
/-- A fire time not before a date on a wrong day of the week comes on a later date. -/
theorem Due.stamp_lt {offset : Option Int} {d : Date} {u : TimeOfDay} (ht : s.Due offset stop t)
    (hd : s.Resolves d u) (hweekday : d.weekday ∉ s.dayOfWeek.allowed)
    (hle : wallClock d u ≤ wallClock t.date t.time) : d.stamp < t.date.stamp := by
  have h1 := TimeOfDay.seconds_bounds (isReal_of_allowsTime hs hd.2)
  have h2 := TimeOfDay.seconds_bounds ht.real.2.1
  simp only [wallClock] at hle
  have h3 := (Date.ordinal_le_ordinal hd.1.2 ht.real.1).1 (by omega)
  have h4 : d.stamp ≠ t.date.stamp := fun he =>
    hweekday (Date.stamp_inj hd.1.2.digits ht.real.1.digits he ▸ ht.fires.2.2)
  omega

include hs in
/-- What is left to find from the day after a date on a wrong day of the week. -/
theorem findable_tomorrow_iff {floor d : Date} {time u : TimeOfDay} (hfloor : floor.IsReal)
    (htime : 0 ≤ time.seconds) (hd : s.Resolves d u)
    (hweekday : d.weekday ∉ s.dayOfWeek.allowed) (hnext : d.tomorrow.IsReal)
    (hle : wallClock floor time ≤ wallClock d u)
    (hleast : ∀ e v, s.Resolves e v → wallClock floor time ≤ wallClock e v →
      wallClock d u ≤ wallClock e v)
    (hbefore : ∀ p, s.Misses p → floor.stamp ≤ p.stamp → p.stamp < d.stamp →
      p.stamp < stop.date.stamp) :
    s.Findable start stop d.tomorrow .midnight t ↔ s.Findable start stop floor time t := by
  have hordinal := Date.ordinal_tomorrow hd.1.2
  have hu := TimeOfDay.seconds_bounds (isReal_of_allowsTime hs hd.2)
  have hfnext : floor.stamp ≤ d.tomorrow.stamp := by
    refine (Date.ordinal_le_ordinal hfloor hnext).1 ?_
    simp only [wallClock] at hle
    omega
  refine and_congr_right fun ht => and_congr ⟨fun hge => ?_, fun hge => ?_⟩
    (not_congr ⟨fun h => h.of_midnight hs hnext hfnext, fun h => h.tomorrow hs hd hle hbefore⟩)
  · rw [wallClock_midnight] at hge
    simp only [wallClock] at hge hle ⊢
    omega
  · have h1 := ht.stamp_lt hs hd hweekday (hleast _ _ ht.resolves hge)
    have h2 := Date.stamp_tomorrow_le hd.1.2 ht.real.1 h1
    have h3 := (Date.ordinal_le_ordinal hnext ht.real.1).2 h2
    have h4 := TimeOfDay.seconds_bounds ht.real.2.1
    rw [wallClock_midnight, wallClock]
    omega

/-- Where no date is resolved, no fire time from the floor on can be found. -/
theorem not_findable_of_unresolved {date : Date} {time : TimeOfDay}
    (h : s.ResolveOutcome stop.date date time none) (t : Moment) :
    ¬ s.Findable start stop date time t := by
  intro hfind
  obtain ⟨ht, hle, hvisible⟩ := hfind
  rcases h with ⟨p, hp, hge, hlim, hall⟩ | hall
  · refine hvisible ⟨p, hp, hge, hall _ _ ht.resolves hle, hlim, fun u hu => ?_⟩
    refine Int.not_le.1 fun hfloor => ?_
    have h1 := hall _ _ hu hfloor
    have h2 := hp.stamp_monthEnd_lt
    omega
  · have := hall _ _ ht.resolves
    omega

/-- Where a date is resolved and the schedule fires then, it is the first that can be found. -/
theorem first_of_resolved {date d : Date} {time u : TimeOfDay}
    (h : s.ResolveOutcome stop.date date time (some (d, u)))
    (hdue : s.Due start.offset stop ⟨d, u, 0, start.offset⟩) :
    FirstBy Moment.instant (s.Findable start stop date time)
      (some ⟨d, u, 0, start.offset⟩) := by
  obtain ⟨-, hle, hleast, hbefore⟩ := h
  refine ⟨⟨hdue, hle, ?_⟩, fun t hfind => ?_⟩
  · intro hhidden
    obtain ⟨p, hp, hge, hlt, hlim, -⟩ := hhidden
    have := hbefore p hp hge hlt
    omega
  · obtain ⟨ht, htle, -⟩ := hfind
    exact (ht.instant_le hdue.whole hdue.clock).2 (hleast _ _ ht.resolves htle)

/-- Where the date resolved is not before the end, neither is a later fire time. -/
theorem not_findable_of_late {date d : Date} {time u : TimeOfDay}
    (h : s.ResolveOutcome stop.date date time (some (d, u)))
    (hlate : stop.instant ≤ (⟨d, u, 0, start.offset⟩ : Moment).instant) (t : Moment) :
    ¬ s.Findable start stop date time t := by
  intro hfind
  obtain ⟨ht, htle, -⟩ := hfind
  have h1 := (ht.instant_le (u := ⟨d, u, 0, start.offset⟩) rfl rfl).2
    (h.2.2.1 _ _ ht.resolves htle)
  have h2 := ht.before
  omega

include hs in
/-- **The outcome of a search.** There is one, and it is the earliest fire time from the floor on
that is not hidden. -/
theorem searchFrom_outcome (hstop : stop.date.IsReal) (hcomparable : start.comparable stop = true)
    (days : Nat) {date : Date} {time : TimeOfDay} (hdate : date.IsReal)
    (hhour : 0 ≤ time.hour ∧ time.hour ≤ 23) (hminute : 0 ≤ time.minute ∧ time.minute ≤ 59)
    (hsecond : 0 ≤ time.second ∧ time.second ≤ 60)
    (hdays : Date.last.ordinal - date.ordinal < days) :
    ∃ r, s.searchFrom start stop days date time = .ok r ∧
      FirstBy Moment.instant (s.Findable start stop date time) r := by
  induction days generalizing date time with
  | zero =>
    have := Date.ordinal_le_last hdate
    omega
  | succ days ih =>
    have htime : 0 ≤ time.seconds := by simp only [TimeOfDay.seconds]; omega
    have hresolve := resolve?_outcome hs hstop hdate hhour hminute hsecond
    simp only [searchFrom]
    cases hr : s.resolve? stop.date date time with
    | none =>
      rw [hr] at hresolve
      exact ⟨none, rfl, not_findable_of_unresolved hresolve⟩
    | some found =>
      obtain ⟨d, u⟩ := found
      rw [hr] at hresolve
      have hsame : (⟨d, u, 0, start.offset⟩ : Moment).comparable stop = true := hcomparable
      simp only [Moment.compareWith, hsame, if_true]
      cases hc : compare (⟨d, u, 0, start.offset⟩ : Moment).instant stop.instant with
      | eq =>
        have hlate := Int.le_of_eq (Int.compare_eq_eq.1 hc).symm
        exact ⟨none, rfl, not_findable_of_late hresolve hlate⟩
      | gt =>
        have hlate := Int.le_of_lt (Int.compare_eq_gt.1 hc)
        exact ⟨none, rfl, not_findable_of_late hresolve hlate⟩
      | lt =>
        have hd := hresolve.1
        have hu := isReal_of_allowsTime hs hd.2
        simp only
        split
        · rename_i hweekday
          exact ⟨_, rfl, first_of_resolved hresolve ⟨⟨hd.1.2, hu, by simp⟩, rfl, rfl,
            Int.compare_eq_lt.1 hc, hd.2, hd.1.1, hweekday⟩⟩
        · rename_i hweekday
          obtain ⟨-, hle, hleast, hbefore⟩ := hresolve
          cases hn : d.tomorrow? with
          | none =>
            refine ⟨none, rfl, fun t hfind => ?_⟩
            obtain ⟨ht, htle, -⟩ := hfind
            have h1 := ht.stamp_lt hs hd hweekday (hleast _ _ ht.resolves htle)
            have h2 := Date.stamp_le_of_tomorrow? hd.1.2 hn ht.real.1
            omega
          | some next =>
            have hnext := Date.isReal_of_tomorrow? hd.1.2 hn
            obtain ⟨rfl, -⟩ := Date.tomorrow?_eq_some hn
            have hordinal := Date.ordinal_tomorrow hd.1.2
            have hfloor : date.ordinal ≤ d.ordinal := by
              have := TimeOfDay.seconds_bounds hu
              simp only [wallClock] at hle
              omega
            obtain ⟨r, hrun, hfirst⟩ := ih hnext
              (by decide : 0 ≤ TimeOfDay.midnight.hour ∧ _) (by decide) (by decide) (by omega)
            exact ⟨r, hrun, hfirst.congr fun t =>
              findable_tomorrow_iff hs hdate htime hd hweekday hnext hle hleast hbefore⟩

/-! ## The next fire time -/

/-- A search after `start` gives up before it comes to `t`. -/
def GivesUpBefore (s : Schedule) (start stop t : Moment) : Prop :=
  s.Hidden stop.date start.date (floorAfter start) t.date

include hs in
theorem nextFire_outcome (hstart : start.IsReal) (hstop : stop.IsReal)
    (hcomparable : start.comparable stop = true) :
    ∃ r, s.nextFire start stop = .ok r ∧ FirstBy Moment.instant
      (fun t => s.Fires start stop t ∧ ¬ s.GivesUpBefore start stop t) r := by
  obtain ⟨h1, h2, h3, h4, h5, h6⟩ := hstart.2.1
  have hhour : 0 ≤ (floorAfter start).hour ∧ (floorAfter start).hour ≤ 23 := ⟨h1, h2⟩
  have hsecond : 0 ≤ (floorAfter start).second ∧ (floorAfter start).second ≤ 60 := by
    simp only [floorAfter]; omega
  obtain ⟨r, hrun, hfirst⟩ := searchFrom_outcome hs hstop.1 hcomparable
    (Date.last.ordinal - start.date.ordinal + 1).toNat hstart.1 hhour ⟨h3, h4⟩ hsecond (by omega)
  refine ⟨r, hrun, hfirst.congr fun t => ?_⟩
  rw [fires_iff hstart]
  exact and_assoc.symm

end

/-- On one clock, a missing day that ends a search is not before the end's date, and so comes
after all that is before the end. -/
theorem not_givesUpBefore (hstop : stop.IsReal) (hclock : start.offset = stop.offset)
    (h : s.Fires start stop t) : ¬ s.GivesUpBefore start stop t := by
  intro hhidden
  obtain ⟨p, -, -, hpt, hlim, -⟩ := hhidden
  have h1 := (Date.ordinal_lt_ordinal hstop.1 h.1.real.1).2 (by omega)
  have h2 := TimeOfDay.seconds_bounds hstop.2.1
  have h3 := TimeOfDay.seconds_bounds h.1.real.2.1
  have h4 := h.1.before
  have h5 := hstop.2.2
  simp only [Moment.instant, Moment.wallSeconds, h.1.clock, h.1.whole, hclock] at h4
  omega

/-- What comes after a fire time that is given up is given up as well. -/
theorem GivesUpBefore.of_le {u : Moment} (h : s.GivesUpBefore start stop u)
    (hu : s.Fires start stop u) (ht : s.Fires start stop t) (hle : u.instant ≤ t.instant) :
    s.GivesUpBefore start stop t := by
  obtain ⟨p, hp, hge, hpu, hlim, hlast⟩ := h
  have h2 := (Moment.instant_le_iff hu.1.whole ht.1.whole (hu.1.clock.trans ht.1.clock.symm)).1 hle
  have h3 := TimeOfDay.seconds_bounds hu.1.real.2.1
  have h4 := TimeOfDay.seconds_bounds ht.1.real.2.1
  simp only [Moment.wallSeconds] at h2
  have h5 := (Date.ordinal_le_ordinal hu.1.real.1 ht.1.real.1).1 (by omega)
  exact ⟨p, hp, hge, by omega, hlim, hlast⟩

/-- The first of the fire times that are not given up is the first of all. -/
theorem first_found_iff : ((s.Fires start stop t ∧ ¬ s.GivesUpBefore start stop t) ∧
      ∀ u, s.Fires start stop u ∧ ¬ s.GivesUpBefore start stop u → t.instant ≤ u.instant) ↔
    s.FirstFire start stop t ∧ ¬ s.GivesUpBefore start stop t := by
  constructor
  · intro h
    obtain ⟨⟨ht, hseen⟩, hleast⟩ := h
    refine ⟨⟨ht, fun u hu => ?_⟩, hseen⟩
    by_cases hhidden : s.GivesUpBefore start stop u
    · exact Int.not_lt.1 fun hlt => hseen (hhidden.of_le hu ht (Int.le_of_lt hlt))
    · exact hleast u ⟨hu, hhidden⟩
  · intro h
    obtain ⟨⟨ht, hleast⟩, hseen⟩ := h
    exact ⟨⟨ht, hseen⟩, fun u hu => hleast u hu.1⟩

theorem first_nextFire (hs : s.Proper) (hstart : start.IsReal) (hstop : stop.IsReal)
    (hclock : start.offset = stop.offset) :
    ∃ r, s.nextFire start stop = .ok r ∧ FirstBy Moment.instant (s.Fires start stop) r := by
  obtain ⟨r, hrun, hfirst⟩ := nextFire_outcome hs hstart hstop
    (by simp only [Moment.comparable, hclock, beq_self_eq_true])
  exact ⟨r, hrun, hfirst.congr fun t => and_iff_left_of_imp (not_givesUpBefore hstop hclock)⟩

/-- **The next fire time on one clock** is the earliest, and where none is found there is none. -/
theorem nextFire_first {expression : String} (hread : read expression = .ok s)
    (hstart : start.IsReal) (hstop : stop.IsReal) (hclock : start.offset = stop.offset) :
    ∃ r, s.nextFire start stop = .ok r ∧ (∀ t, r = some t ↔ s.FirstFire start stop t) ∧
      (r = none ↔ ∀ t, ¬ s.Fires start stop t) := by
  obtain ⟨r, hrun, hfirst⟩ := first_nextFire (proper_of_read hread) hstart hstop hclock
  exact ⟨r, hrun, fun t => hfirst.eq_some_iff fun t u ht hu => ht.eq_of_instant_eq hu,
    hfirst.eq_none_iff⟩

theorem nextFire_first_leapDay : ∃ s, read "0 0 29 2 *" = .ok s ∧
    s.FirstFire ⟨⟨2024, 3, 1⟩, ⟨0, 0, 0⟩, 0, none⟩ ⟨⟨2030, 1, 1⟩, ⟨0, 0, 0⟩, 0, none⟩
      ⟨⟨2028, 2, 29⟩, ⟨0, 0, 0⟩, 0, none⟩ := by
  obtain ⟨s, hread, hrun⟩ : ∃ s, read "0 0 29 2 *" = .ok s ∧
      s.nextFire ⟨⟨2024, 3, 1⟩, ⟨0, 0, 0⟩, 0, none⟩ ⟨⟨2030, 1, 1⟩, ⟨0, 0, 0⟩, 0, none⟩ =
        .ok (some ⟨⟨2028, 2, 29⟩, ⟨0, 0, 0⟩, 0, none⟩) := exists_read (by decide +kernel)
  obtain ⟨r, hr, hfirst, -⟩ := nextFire_first hread
    (by decide : (⟨⟨2024, 3, 1⟩, ⟨0, 0, 0⟩, 0, none⟩ : Moment).IsReal)
    (by decide : (⟨⟨2030, 1, 1⟩, ⟨0, 0, 0⟩, 0, none⟩ : Moment).IsReal) rfl
  rw [hrun, Except.ok.injEq] at hr
  exact ⟨s, hread, (hfirst _).1 hr.symm⟩

/-- **The next fire time on two clocks** is found unless the search gives up before it; then the
answer is as if there were none.  So what holds on one clock holds on two exactly when the search
does not give up before the earliest fire time. -/
theorem nextFire_first_iff {expression : String} (hread : read expression = .ok s)
    (hstart : start.IsReal) (hstop : stop.IsReal) (hcomparable : start.comparable stop = true) :
    ∃ r, s.nextFire start stop = .ok r ∧
      (∀ t, r = some t ↔ s.FirstFire start stop t ∧ ¬ s.GivesUpBefore start stop t) ∧
      (((∀ t, r = some t ↔ s.FirstFire start stop t) ∧ (r = none ↔ ∀ t, ¬ s.Fires start stop t)) ↔
        ∀ t, s.FirstFire start stop t → ¬ s.GivesUpBefore start stop t) := by
  obtain ⟨r, hrun, hfirst⟩ :=
    nextFire_outcome (proper_of_read hread) hstart hstop hcomparable
  have hsome : ∀ t, r = some t ↔ s.FirstFire start stop t ∧ ¬ s.GivesUpBefore start stop t := by
    intro t
    rw [hfirst.eq_some_iff fun t u ht hu => ht.1.eq_of_instant_eq hu.1]
    exact first_found_iff
  refine ⟨r, hrun, hsome, ⟨fun hall t ht => ((hsome t).1 ((hall.1 t).2 ht)).2, fun hseen => ?_⟩⟩
  have hall : ∀ t, r = some t ↔ s.FirstFire start stop t := fun t =>
    (hsome t).trans (and_iff_left_of_imp (hseen t))
  refine ⟨hall, ⟨fun hnone t ht => ?_, fun hno => ?_⟩⟩
  · obtain ⟨u, hu⟩ := exists_firstFire ht
    rw [(hall u).2 hu] at hnone
    cases hnone
  · cases hr : r with
    | none => rfl
    | some t => exact absurd ((hall t).1 hr).1 (hno t)

theorem nextFire_first_iff_newYear : ∃ s, read "0 0 1,30 * *" = .ok s ∧
    s.FirstFire ⟨⟨2023, 12, 31⟩, ⟨12, 0, 0⟩, 0, some 50400⟩
      ⟨⟨2024, 1, 1⟩, ⟨22, 30, 0⟩, 0, some (-43200)⟩
      ⟨⟨2024, 1, 1⟩, ⟨0, 0, 0⟩, 0, some 50400⟩ := by
  obtain ⟨s, hread, hrun⟩ : ∃ s, read "0 0 1,30 * *" = .ok s ∧
      s.nextFire ⟨⟨2023, 12, 31⟩, ⟨12, 0, 0⟩, 0, some 50400⟩
          ⟨⟨2024, 1, 1⟩, ⟨22, 30, 0⟩, 0, some (-43200)⟩ =
        .ok (some ⟨⟨2024, 1, 1⟩, ⟨0, 0, 0⟩, 0, some 50400⟩) := exists_read (by decide +kernel)
  obtain ⟨r, hr, hfirst, -⟩ := nextFire_first_iff hread
    (by decide : (⟨⟨2023, 12, 31⟩, ⟨12, 0, 0⟩, 0, some 50400⟩ : Moment).IsReal)
    (by decide : (⟨⟨2024, 1, 1⟩, ⟨22, 30, 0⟩, 0, some (-43200)⟩ : Moment).IsReal) rfl
  rw [hrun, Except.ok.injEq] at hr
  exact ⟨s, hread, ((hfirst _).1 hr.symm).1⟩

/-- The end's clock shows 28 February, so the search gives up at the 30th, though the first of
March on the start's clock is before the end. -/
theorem nextFire_hides_firstOfMarch : ∃ s, read "0 0 1,30 * *" = .ok s ∧
    s.nextFire ⟨⟨2023, 2, 27⟩, ⟨12, 0, 0⟩, 0, some 50400⟩
        ⟨⟨2023, 2, 28⟩, ⟨22, 30, 0⟩, 0, some (-43200)⟩ = .ok none ∧
      s.Fires ⟨⟨2023, 2, 27⟩, ⟨12, 0, 0⟩, 0, some 50400⟩
        ⟨⟨2023, 2, 28⟩, ⟨22, 30, 0⟩, 0, some (-43200)⟩
        ⟨⟨2023, 3, 1⟩, ⟨0, 0, 0⟩, 0, some 50400⟩ :=
  exists_read (by decide +kernel)

end Schedule

end CronFire
