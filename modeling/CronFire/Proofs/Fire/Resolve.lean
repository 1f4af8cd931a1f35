import CronFire.Fire.Search
import CronFire.Proofs.Calendar.Order
import CronFire.Proofs.Schedule.Accepted
/-!
# The earliest date and time from a floor on

The search resolves the time of day and the date apart.  A time of day is found by resetting
every finer field once a coarser one has moved; that no reset is missed is what makes the result
the least.  A date is found month by month, and a month whose first allowed day it does not have
ends the search if that day is not before the limit.  So the outcome without a date has two
causes: there is no later allowed date, or such a missing day stood in the way.

Results:
* `first_timeFrom?`: the earliest allowed time of day from a floor on.
* `dateFrom?_outcome`: the earliest allowed date, or why none is found.
* `resolve?_outcome`: the two together, whatever the day of the week.
-/
namespace CronFire

theorem ValueSet.Proper.first?_eq {d : Domain} {s : ValueSet} (h : s.Proper d) :
    ∃ v, s.first? = some v ∧ v ∈ s ∧ ∀ w ∈ s, v ≤ w := by
  have hfirst := first_first? h.sound
  cases hv : s.first? with
  | none =>
    rw [hv] at hfirst
    obtain ⟨w, hw⟩ := h.inhabited
    exact absurd hw (hfirst w)
  | some v =>
    rw [hv] at hfirst
    exact ⟨v, rfl, hfirst⟩

theorem ValueSet.Sound.next?_cases {s : ValueSet} (h : s.Sound) (start : Int) :
    (s.next? start = none ∧ ∀ w ∈ s, w < start) ∨
      ∃ v, s.next? start = some v ∧ v ∈ s ∧ start ≤ v ∧ ∀ w ∈ s, start ≤ w → v ≤ w := by
  have hfirst := first_next? h start
  cases hv : s.next? start with
  | none =>
    rw [hv] at hfirst
    exact .inl ⟨rfl, fun w hw => Int.not_le.1 fun hle => hfirst w ⟨hw, hle⟩⟩
  | some v =>
    rw [hv] at hfirst
    exact .inr ⟨v, rfl, hfirst.1.1, hfirst.1.2, fun w hw hle => hfirst.2 w ⟨hw, hle⟩⟩

namespace Schedule

variable {s : Schedule}

section
variable (hs : s.Proper)

include hs in
theorem isReal_of_allowsTime {t : TimeOfDay} (h : s.AllowsTime t) : t.IsReal := by
  obtain ⟨hsecond, hminute, hhour⟩ := h
  have h1 := hs.second.inside _ hsecond
  have h2 := hs.minute.inside _ hminute
  have h3 := hs.hour.inside _ hhour
  exact ⟨h3.1, h3.2, h2.1, h2.2, h1.1, h1.2⟩

include hs in
theorem digits_of_allowsDate {d : Date} (h : s.AllowsDate d) :
    1 ≤ d.month ∧ d.month ≤ 12 ∧ 1 ≤ d.day ∧ d.day ≤ 31 := by
  have h1 := hs.dayOfMonth.inside _ h.1
  have h2 := hs.month.inside _ h.2
  exact ⟨h2.1, h2.2, h1.1, h1.2⟩

/-! ## Times of day -/

include hs in
/-- The earliest allowed time of an allowed hour. -/
theorem exists_firstInHour? {hour : Int} (hhour : hour ∈ s.hour.allowed) :
    ∃ t, s.firstInHour? hour = some t ∧ s.AllowsTime t ∧ t.hour = hour ∧
      ∀ u, s.AllowsTime u → u.hour = hour → t.seconds ≤ u.seconds := by
  obtain ⟨minute, hm, hmin, hmle⟩ := hs.minute.first?_eq
  obtain ⟨second, hx, hxin, hxle⟩ := hs.second.first?_eq
  simp only [firstInHour?, hm, hx, Option.bind_eq_bind, Option.bind_some]
  refine ⟨_, rfl, ⟨hxin, hmin, hhour⟩, rfl, fun u hu huh => ?_⟩
  have h1 := hmle _ hu.2.1
  have h2 := hxle _ hu.1
  simp only [TimeOfDay.seconds]; omega

include hs in
/-- The earliest allowed time of day. -/
theorem exists_firstTime? : ∃ t, s.firstTime? = some t ∧ s.AllowsTime t ∧
    ∀ u, s.AllowsTime u → t.seconds ≤ u.seconds := by
  obtain ⟨h, hh, hhin, hhle⟩ := hs.hour.first?_eq
  obtain ⟨t, ht, htin, hth, htle⟩ := exists_firstInHour? hs hhin
  refine ⟨t, by simp only [firstTime?, hh, Option.bind_eq_bind, Option.bind_some, ht], htin,
    fun u hu => ?_⟩
  by_cases huh : u.hour = h
  · exact htle u hu huh
  · have h1 := hhle _ hu.2.2
    have h2 := isReal_of_allowsTime hs htin
    have h3 := isReal_of_allowsTime hs hu
    simp only [TimeOfDay.IsReal, TimeOfDay.seconds] at h2 h3 ⊢
    omega

include hs in
/-- The first second of a minute after the floor's, when no allowed time between is left. -/
theorem first_of_minute {floor : TimeOfDay} {minute first : Int}
    (hhour : floor.hour ∈ s.hour.allowed) (hin : minute ∈ s.minute.allowed)
    (hlt : floor.minute + 1 ≤ minute) (hsecond : 0 ≤ floor.second ∧ floor.second ≤ 60)
    (hfirst : first ∈ s.second.allowed ∧ ∀ v ∈ s.second.allowed, first ≤ v)
    (hleast : ∀ u, s.AllowsTime u → u.hour = floor.hour → floor.seconds ≤ u.seconds →
      minute ≤ u.minute) :
    FirstBy TimeOfDay.seconds
      (fun t => s.AllowsTime t ∧ t.hour = floor.hour ∧ floor.seconds ≤ t.seconds)
      (some ⟨floor.hour, minute, first⟩) := by
  have hallows : s.AllowsTime ⟨floor.hour, minute, first⟩ := ⟨hfirst.1, hin, hhour⟩
  have hreal := isReal_of_allowsTime hs hallows
  simp only [TimeOfDay.IsReal] at hreal
  refine ⟨⟨hallows, rfl, ?_⟩, fun u hfrom => ?_⟩
  · simp only [TimeOfDay.seconds]; omega
  · obtain ⟨hu, huh, hle⟩ := hfrom
    have h1 := hleast u hu huh hle
    have h2 := hfirst.2 _ hu.1
    have h3 := isReal_of_allowsTime hs hu
    simp only [TimeOfDay.IsReal, TimeOfDay.seconds] at h3 ⊢
    omega

include hs in
/-- The earliest allowed time of the floor's own hour, from the floor on. -/
theorem first_timeInHour? {floor : TimeOfDay} (hhour : floor.hour ∈ s.hour.allowed)
    (hsecond : 0 ≤ floor.second ∧ floor.second ≤ 60) :
    FirstBy TimeOfDay.seconds
      (fun t => s.AllowsTime t ∧ t.hour = floor.hour ∧ floor.seconds ≤ t.seconds)
      (s.timeInHour? floor) := by
  obtain ⟨first, hfirst, hfin⟩ := hs.second.first?_eq
  have hreal := fun t => isReal_of_allowsTime hs (t := t)
  -- an allowed time from the floor on is not in an earlier minute
  have hminute : ∀ u, s.AllowsTime u → u.hour = floor.hour → floor.seconds ≤ u.seconds →
      floor.minute ≤ u.minute := by
    intro u hu huh hle
    have h1 := hreal u hu
    simp only [TimeOfDay.IsReal, TimeOfDay.seconds] at h1 hle
    omega
  simp only [timeInHour?, Option.bind_eq_bind]
  rcases hs.minute.sound.next?_cases floor.minute with ⟨hm, hmlt⟩ | ⟨m, hm, hmin, hmle, hmlst⟩
  · rw [hm]
    intro t hfrom
    have h1 := hminute t hfrom.1 hfrom.2.1 hfrom.2.2
    have h2 := hmlt _ hfrom.1.2.1
    omega
  · rw [hm, Option.bind_some]
    split
    · rename_i heq
      subst heq
      rcases hs.second.sound.next?_cases floor.second with ⟨hx, hxlt⟩ | ⟨x, hx, hxin, hxle, hxlst⟩
      · rw [hx]
        -- no second is left in the floor's minute, so a later minute has to come
        have hlater : ∀ u, s.AllowsTime u → u.hour = floor.hour → floor.seconds ≤ u.seconds →
            floor.minute + 1 ≤ u.minute := by
          intro u hu huh hle
          have h1 := hminute u hu huh hle
          have h2 := hxlt _ hu.1
          simp only [TimeOfDay.seconds] at hle
          omega
        rcases hs.minute.sound.next?_cases (floor.minute + 1) with
          ⟨hk, hklt⟩ | ⟨k, hk, hkin, hkle, hklst⟩
        · rw [hk]
          intro t hfrom
          have h1 := hlater t hfrom.1 hfrom.2.1 hfrom.2.2
          have h2 := hklt _ hfrom.1.2.1
          omega
        · simp only [hk, hfirst, Option.bind_some]
          exact first_of_minute hs hhour hkin hkle hsecond hfin
            fun u hu huh hle => hklst _ hu.2.1 (hlater u hu huh hle)
      · rw [hx]
        have h0 := hreal ⟨floor.hour, floor.minute, x⟩ ⟨hxin, hmin, hhour⟩
        simp only [TimeOfDay.IsReal] at h0
        refine ⟨⟨⟨hxin, hmin, hhour⟩, rfl, ?_⟩, fun t hfrom => ?_⟩
        · simp only [TimeOfDay.seconds]; omega
        · obtain ⟨ht, hth, hle⟩ := hfrom
          have h1 := hreal t ht
          have h2 := hxlst t.second ht.1
          simp only [TimeOfDay.IsReal, TimeOfDay.seconds] at h1 hle ⊢
          omega
    · simp only [hfirst, Option.bind_some]
      exact first_of_minute hs hhour hmin (by omega) hsecond hfin
        fun u hu huh hle => hmlst _ hu.2.1 (hminute u hu huh hle)

include hs in
/-- The first time of an hour after the floor's, when no allowed time between is left. -/
theorem first_of_firstInHour? {floor : TimeOfDay} {hour : Int} (hin : hour ∈ s.hour.allowed)
    (hlt : floor.hour + 1 ≤ hour) (hsecond : 0 ≤ floor.second ∧ floor.second ≤ 60)
    (hminute : 0 ≤ floor.minute ∧ floor.minute ≤ 59)
    (hleast : ∀ u, s.AllowsTime u → floor.seconds ≤ u.seconds → hour ≤ u.hour) :
    FirstBy TimeOfDay.seconds (fun t => s.AllowsTime t ∧ floor.seconds ≤ t.seconds)
      (s.firstInHour? hour) := by
  obtain ⟨t, ht, htin, hth, htle⟩ := exists_firstInHour? hs hin
  have h1 := isReal_of_allowsTime hs htin
  rw [ht]
  refine ⟨⟨htin, ?_⟩, fun u hfrom => ?_⟩
  · simp only [TimeOfDay.IsReal, TimeOfDay.seconds] at h1 ⊢
    omega
  · obtain ⟨hu, hle⟩ := hfrom
    have h2 := hleast u hu hle
    have h3 := isReal_of_allowsTime hs hu
    by_cases huh : u.hour = hour
    · exact htle u hu huh
    · simp only [TimeOfDay.IsReal, TimeOfDay.seconds] at h1 h3 ⊢
      omega

include hs in
/-- The earliest allowed time of day from a floor on, whose second may be 60. -/
theorem first_timeFrom? {floor : TimeOfDay} (hminute : 0 ≤ floor.minute ∧ floor.minute ≤ 59)
    (hsecond : 0 ≤ floor.second ∧ floor.second ≤ 60) :
    FirstBy TimeOfDay.seconds (fun t => s.AllowsTime t ∧ floor.seconds ≤ t.seconds)
      (s.timeFrom? floor) := by
  have hreal := fun t => isReal_of_allowsTime hs (t := t)
  simp only [timeFrom?, Option.bind_eq_bind]
  rcases hs.hour.sound.next?_cases floor.hour with ⟨hh, hhlt⟩ | ⟨h, hh, hhin, hhle, hhlst⟩
  · rw [hh]
    intro t hx
    obtain ⟨ht, hle⟩ := hx
    have h1 := hhlt _ ht.2.2
    have h2 := hreal t ht
    simp only [TimeOfDay.IsReal, TimeOfDay.seconds] at h2 hle
    omega
  · rw [hh, Option.bind_some]
    split
    · rename_i heq
      subst heq
      have hin := first_timeInHour? hs hhin hsecond
      cases hr : s.timeInHour? floor with
      | some t =>
        rw [hr] at hin
        refine ⟨⟨hin.1.1, hin.1.2.2⟩, fun u hfrom => ?_⟩
        obtain ⟨hu, hle⟩ := hfrom
        have hth := hin.1.2.1
        have h1 := hreal t hin.1.1
        have h2 := hreal u hu
        by_cases huh : u.hour = floor.hour
        · exact hin.2 u ⟨hu, huh, hle⟩
        · have h3 := hhlst u.hour hu.2.2
          simp only [TimeOfDay.IsReal, TimeOfDay.seconds] at h1 h2 hle ⊢
          omega
      | none =>
        rw [hr] at hin
        have hlater : ∀ u, s.AllowsTime u → floor.seconds ≤ u.seconds →
            floor.hour + 1 ≤ u.hour := by
          intro u hu hle
          have h1 : u.hour ≠ floor.hour := fun he => hin u ⟨hu, he, hle⟩
          have h2 := hreal u hu
          simp only [TimeOfDay.IsReal, TimeOfDay.seconds] at h2 hle
          omega
        rcases hs.hour.sound.next?_cases (floor.hour + 1) with
          ⟨hk, hklt⟩ | ⟨k, hk, hkin, hkle, hklst⟩
        · rw [hk]
          intro u hx
          obtain ⟨hu, hle⟩ := hx
          have h1 := hlater u hu hle
          have h2 := hklt _ hu.2.2
          omega
        · rw [hk]
          exact first_of_firstInHour? hs hkin hkle hsecond hminute
            fun u hu hle => hklst _ hu.2.2 (hlater u hu hle)
    · exact first_of_firstInHour? hs hhin (by omega) hsecond hminute
        fun u hu hle => hhlst _ hu.2.2 (by
          have h2 := hreal u hu
          simp only [TimeOfDay.IsReal, TimeOfDay.seconds] at h2 hle
          omega)

/-! ## Dates -/

/-- The fields allow the date, and there is such a day. -/
def HasDate (s : Schedule) (d : Date) : Prop := s.AllowsDate d ∧ d.IsReal

/-- The fields allow the date, but its month does not have the day. -/
def Misses (s : Schedule) (p : Date) : Prop :=
  s.AllowsDate p ∧ 1 ≤ p.year ∧ p.year ≤ lastYear ∧ monthLength p.year p.month < p.day

theorem Misses.not_isReal {p : Date} (h : s.Misses p) : ¬ p.IsReal := by
  intro hp
  have h1 := h.2.2.2
  have h2 := hp.2.2.2.2.2
  omega

include hs in
theorem Misses.stamp_ne {p d : Date} (h : s.Misses p) (hd : d.IsReal) : p.stamp ≠ d.stamp := by
  intro heq
  have h1 := digits_of_allowsDate hs h.1
  exact h.not_isReal (Date.stamp_inj (by omega) hd.digits heq ▸ hd)

/-- What a search for dates from `floor` on arrives at.  It finds the first date, and then every
missing day before it lies before the limit; or a missing day that does not comes before any
date; or there is no date. -/
def DateOutcome (s : Schedule) (limit floor : Date) : Option Date → Prop
  | some d => s.HasDate d ∧ floor.stamp ≤ d.stamp ∧
      (∀ e, s.HasDate e → floor.stamp ≤ e.stamp → d.stamp ≤ e.stamp) ∧
      ∀ p, s.Misses p → floor.stamp ≤ p.stamp → p.stamp < d.stamp → p.stamp < limit.stamp
  | none => (∃ p, s.Misses p ∧ floor.stamp ≤ p.stamp ∧ limit.stamp ≤ p.stamp ∧
        ∀ e, s.HasDate e → floor.stamp ≤ e.stamp → p.stamp < e.stamp) ∨
      ∀ e, s.HasDate e → e.stamp < floor.stamp

/-- A search may begin at a later floor that skips no date, and no missing day from the limit
on. -/
theorem DateOutcome.of_later {limit floor later : Date} {r : Option Date}
    (h : s.DateOutcome limit later r) (hle : floor.stamp ≤ later.stamp)
    (hdates : ∀ e, s.HasDate e → floor.stamp ≤ e.stamp → later.stamp ≤ e.stamp)
    (hmisses : ∀ p, s.Misses p → floor.stamp ≤ p.stamp → p.stamp < later.stamp →
      p.stamp < limit.stamp) : s.DateOutcome limit floor r := by
  cases r with
  | some d =>
    obtain ⟨hd, hge, hleast, hbefore⟩ := h
    refine ⟨hd, by omega, fun e he hfe => hleast e he (hdates e he hfe), fun p hp hfp hpd => ?_⟩
    by_cases hlp : later.stamp ≤ p.stamp
    · exact hbefore p hp hlp hpd
    · exact hmisses p hp hfp (by omega)
  | none =>
    rcases h with ⟨p, hp, hfp, hlim, hall⟩ | hall
    · exact .inl ⟨p, hp, by omega, hlim, fun e he hfe => hall e he (hdates e he hfe)⟩
    · refine .inr fun e he => Int.not_le.1 fun hfe => ?_
      have h1 := hall e he
      have h2 := hdates e he hfe
      omega

include hs in
/-- The step to the next month, when the floor's month has no date from the floor on. -/
theorem dateOutcome_nextMonth {limit floor later : Date} {first : Int} {r : Option Date}
    (hfirst : ∀ v ∈ s.dayOfMonth.allowed, first ≤ v) (hday : 1 ≤ first ∧ first ≤ 31)
    (hfloor : 1 ≤ floor.month ∧ floor.month ≤ 12 ∧ 1 ≤ floor.day ∧ floor.day ≤ 99)
    (hlater : later = ⟨floor.year, floor.month + 1, first⟩ ∧ floor.month < 12 ∨
      later = ⟨floor.year + 1, 1, first⟩ ∧ floor.month = 12)
    (hdates : ∀ e, s.HasDate e → floor.stamp ≤ e.stamp → e.year = floor.year →
      e.month ≠ floor.month)
    (hmisses : ∀ p, s.Misses p → floor.stamp ≤ p.stamp → p.year = floor.year →
      p.month = floor.month → p.stamp < limit.stamp)
    (h : s.DateOutcome limit later r) : s.DateOutcome limit floor r := by
  have hallowed : ∀ e, s.AllowsDate e → floor.stamp ≤ e.stamp →
      e.year = floor.year ∧ e.month = floor.month ∨ later.stamp ≤ e.stamp := by
    intro e he hle
    have h1 := digits_of_allowsDate hs he
    have h2 := hfirst _ he.1
    simp only [Date.stamp] at hle ⊢
    rcases hlater with ⟨rfl, hm⟩ | ⟨rfl, hm⟩ <;> simp only <;> omega
  refine h.of_later ?_ (fun e he hle => ?_) (fun p hp hle hlt => ?_)
  · simp only [Date.stamp]
    rcases hlater with ⟨rfl, hm⟩ | ⟨rfl, hm⟩ <;> simp only <;> omega
  · rcases hallowed e he.1 hle with ⟨hy, hm⟩ | hl
    · exact absurd hm (hdates e he hle hy)
    · exact hl
  · rcases hallowed p hp.1 hle with ⟨hy, hm⟩ | hl
    · exact hmisses p hp hle hy hm
    · omega

include hs in
/-- In the floor's month, the next allowed day leaves out no allowed date. -/
theorem stamp_le_of_next {year month day next : Int} {e : Date}
    (hnext : 1 ≤ next ∧ next ≤ 31 ∧ ∀ v ∈ s.dayOfMonth.allowed, day ≤ v → next ≤ v)
    (hday : 1 ≤ day) (he : s.AllowsDate e)
    (hle : (⟨year, month, day⟩ : Date).stamp ≤ e.stamp) :
    (⟨year, month, next⟩ : Date).stamp ≤ e.stamp := by
  have h1 := digits_of_allowsDate hs he
  have h2 := hnext.2.2 e.day he.1
  simp only [Date.stamp] at hle ⊢
  omega

/-- A month whose next allowed day it does not have has no date from the floor on. -/
theorem ne_month_of_missing {year month next : Int} {e : Date} (he : e.IsReal)
    (hlong : monthLength year month < next)
    (hle : (⟨year, month, next⟩ : Date).stamp ≤ e.stamp) (hyear : e.year = year) :
    e.month ≠ month := by
  intro hmonth
  have h1 := he.2.2.2.2.2
  rw [hyear, hmonth] at h1
  simp only [Date.stamp, hyear, hmonth] at hle
  omega

include hs in
/-- What is left to show where the search goes on to the next month. -/
theorem dateInMonths?_onward {limit : Date} {months : Nat} {year month day first : Int}
    (hfirst : ∀ v ∈ s.dayOfMonth.allowed, first ≤ v) (hday : 1 ≤ first ∧ first ≤ 31)
    (hfloor : 1 ≤ month ∧ month ≤ 12 ∧ 1 ≤ day ∧ day ≤ 99) (hyear : 1 ≤ year)
    (ih : ∀ {y m : Int}, 1 ≤ y → 1 ≤ m ∧ m ≤ 12 → months = monthsLeft y m →
      s.DateOutcome limit ⟨y, m, first⟩ (s.dateInMonths? limit months y m first))
    (hmonths : months + 1 = monthsLeft year month)
    (hdates : ∀ e, s.HasDate e → (⟨year, month, day⟩ : Date).stamp ≤ e.stamp →
      e.year = year → e.month ≠ month)
    (hmisses : ∀ p, s.Misses p → (⟨year, month, day⟩ : Date).stamp ≤ p.stamp →
      p.year = year → p.month = month → p.stamp < limit.stamp) :
    s.DateOutcome limit ⟨year, month, day⟩
      (if month < 12 then s.dateInMonths? limit months year (month + 1) first
        else s.dateInMonths? limit months (year + 1) 1 first) := by
  split
  · rename_i hlt
    have hrest := @ih year (month + 1) hyear ⟨by omega, by omega⟩
      (by simp only [monthsLeft] at hmonths ⊢; omega)
    exact dateOutcome_nextMonth hs hfirst hday hfloor (.inl ⟨rfl, hlt⟩) hdates hmisses hrest
  · have hrest := @ih (year + 1) 1 (by omega) (by decide)
      (by simp only [monthsLeft] at hmonths ⊢; omega)
    exact dateOutcome_nextMonth hs hfirst hday hfloor (.inr ⟨rfl, by simp only; omega⟩) hdates
      hmisses hrest

include hs in
theorem dateInMonths?_outcome {limit : Date} (hlimit : limit.IsReal) (months : Nat)
    {year month day : Int} (hyear : 1 ≤ year) (hmonth : 1 ≤ month ∧ month ≤ 12)
    (hday : 1 ≤ day ∧ day ≤ 99) (hmonths : months = monthsLeft year month) :
    s.DateOutcome limit ⟨year, month, day⟩ (s.dateInMonths? limit months year month day) := by
  induction months generalizing year month day with
  | zero =>
    refine .inr fun e he => ?_
    have h1 := he.2.digits
    have h2 := he.2.2.1
    simp only [monthsLeft, Date.stamp] at hmonths ⊢
    omega
  | succ months ih =>
    obtain ⟨first, hf, hfin, hfle⟩ := hs.dayOfMonth.first?_eq
    have hfday := hs.dayOfMonth.inside _ hfin
    simp only [FieldKind.domain] at hfday
    have hfloor : 1 ≤ month ∧ month ≤ 12 ∧ 1 ≤ day ∧ day ≤ 99 := ⟨hmonth.1, hmonth.2, hday⟩
    have hleft : year ≤ lastYear := by simp only [monthsLeft] at hmonths; omega
    have honward := dateInMonths?_onward hs hfle hfday hfloor hyear
      (fun hy hm hleft => @ih _ _ first hy hm (by omega) hleft) hmonths
    simp only [dateInMonths?, hf, Option.getD_some]
    split
    · rename_i hin
      rcases hs.dayOfMonth.sound.next?_cases day with ⟨hn, hlt⟩ | ⟨d, hn, hdin, hdle, hdlst⟩
      · rw [hn]
        have hnone : ∀ e, s.AllowsDate e → (⟨year, month, day⟩ : Date).stamp ≤ e.stamp →
            e.year = year → e.month ≠ month := by
          intro e he hle hy hm
          have := hlt _ he.1
          simp only [Date.stamp] at hle
          omega
        exact honward (fun e he => hnone e he.1)
          (fun p hp hle hy hm => absurd hm (hnone p hp.1 hle hy))
      · rw [hn]
        have hdday := hs.dayOfMonth.inside _ hdin
        simp only [FieldKind.domain] at hdday
        have hge : (⟨year, month, day⟩ : Date).stamp ≤ (⟨year, month, d⟩ : Date).stamp := by
          simp only [Date.stamp]; omega
        have hleast : ∀ e, s.AllowsDate e → (⟨year, month, day⟩ : Date).stamp ≤ e.stamp →
            (⟨year, month, d⟩ : Date).stamp ≤ e.stamp := fun e he =>
          stamp_le_of_next hs ⟨hdday.1, hdday.2, hdlst⟩ hday.1 he
        simp only
        split
        · rename_i hreal
          refine ⟨⟨⟨hdin, hin⟩, hyear, hleft, hmonth.1, hmonth.2, hdday.1, hreal⟩, hge,
            fun e he => hleast e he.1, fun p hp hle hlt => ?_⟩
          have := hleast p hp.1 hle
          omega
        · rename_i hlong
          have hmissing : s.Misses ⟨year, month, d⟩ :=
            ⟨⟨hdin, hin⟩, hyear, hleft, Int.not_le.1 hlong⟩
          have hdates : ∀ e, s.HasDate e → (⟨year, month, day⟩ : Date).stamp ≤ e.stamp →
              e.year = year → e.month ≠ month := fun e he hle =>
            ne_month_of_missing he.2 hmissing.2.2.2 (hleast e he.1 hle)
          have hnotAfter := Date.notAfter_iff hlimit.digits
            (by simp only; omega : 1 ≤ (⟨year, month, d⟩ : Date).month ∧ _)
          split
          · rename_i hstop
            refine .inl ⟨_, hmissing, hge, hnotAfter.1 hstop, fun e he hle => ?_⟩
            have h1 := hleast e he.1 hle
            have h2 := hmissing.stamp_ne hs he.2
            omega
          · rename_i hgo
            have hafter : (⟨year, month, d⟩ : Date).stamp < limit.stamp :=
              Int.not_le.1 fun h => hgo (hnotAfter.2 h)
            refine honward hdates fun p hp hle hy hm => ?_
            have h1 := digits_of_allowsDate hs hp.1
            exact Date.stamp_lt_of_missing hlimit hmissing.2.2.2 hafter hy hm
              ⟨hmonth.1, hmonth.2, hdday.1⟩ h1.2.2.2
    · rename_i hout
      have hnone : ∀ e, s.AllowsDate e → e.month ≠ month := fun e he hm => hout (hm ▸ he.2)
      exact honward (fun e he _ _ => hnone e he.1) (fun p hp _ _ hm => absurd hm (hnone p hp.1))

include hs in
theorem dateFrom?_outcome {limit floor : Date} (hlimit : limit.IsReal) (hyear : 1 ≤ floor.year)
    (hfloor : 1 ≤ floor.month ∧ floor.month ≤ 12 ∧ 1 ≤ floor.day ∧ floor.day ≤ 99) :
    s.DateOutcome limit floor (s.dateFrom? limit floor) :=
  dateInMonths?_outcome hs hlimit _ hyear ⟨hfloor.1, hfloor.2.1⟩ hfloor.2.2 rfl

/-! ## Dates with times of day -/

/-- All fields but the day of the week allow the date and the time of day. -/
def Resolves (s : Schedule) (d : Date) (t : TimeOfDay) : Prop := s.HasDate d ∧ s.AllowsTime t

/-- What a search for a date and a time of day from a floor on arrives at. -/
def ResolveOutcome (s : Schedule) (limit date : Date) (time : TimeOfDay) :
    Option (Date × TimeOfDay) → Prop
  | some (d, t) => s.Resolves d t ∧ wallClock date time ≤ wallClock d t ∧
      (∀ e u, s.Resolves e u → wallClock date time ≤ wallClock e u →
        wallClock d t ≤ wallClock e u) ∧
      ∀ p, s.Misses p → date.stamp ≤ p.stamp → p.stamp < d.stamp → p.stamp < limit.stamp
  | none => (∃ p, s.Misses p ∧ date.stamp ≤ p.stamp ∧ limit.stamp ≤ p.stamp ∧
        ∀ e u, s.Resolves e u → wallClock date time ≤ wallClock e u → p.stamp < e.stamp) ∨
      ∀ e u, s.Resolves e u → wallClock e u < wallClock date time

include hs in
/-- A later date takes the earliest allowed time of day.  `next` is where the search for dates
begins. -/
theorem ResolveOutcome.of_date {limit date next : Date} {time : TimeOfDay} {r : Option Date}
    (htime : 0 ≤ time.seconds ∧ time.seconds ≤ 86400) (hnext : date.stamp ≤ next.stamp)
    (hge : ∀ e u, s.Resolves e u → wallClock date time ≤ wallClock e u → next.stamp ≤ e.stamp)
    (hmiss : ∀ p, s.Misses p → date.stamp ≤ p.stamp → next.stamp ≤ p.stamp)
    (hlater : ∀ d, r = some d → date.ordinal < d.ordinal) (h : s.DateOutcome limit next r) :
    s.ResolveOutcome limit date time
      (r.bind fun d => s.firstTime?.bind fun t => some (d, t)) := by
  obtain ⟨first, hfirst, hfin, hfle⟩ := exists_firstTime? hs
  cases r with
  | none =>
    rcases h with ⟨p, hp, hfp, hlim, hall⟩ | hall
    · exact .inl ⟨p, hp, by omega, hlim, fun e u he hle => hall e he.1 (hge e u he hle)⟩
    · refine .inr fun e u he => Int.not_le.1 fun hle => ?_
      have h1 := hall e he.1
      have h2 := hge e u he hle
      omega
  | some d =>
    obtain ⟨hd, hdge, hdle, hbefore⟩ := h
    have hlt := hlater d rfl
    rw [Option.bind_some, hfirst, Option.bind_some]
    refine ⟨⟨hd, hfin⟩, ?_, fun e u he hle => ?_, fun p hp hle => hbefore p hp (hmiss p hp hle)⟩
    · have := TimeOfDay.seconds_bounds (isReal_of_allowsTime hs hfin)
      simp only [wallClock]; omega
    · have h1 := (Date.ordinal_le_ordinal hd.2 he.1.2).2 (hdle e he.1 (hge e u he hle))
      have h2 := hfle u he.2
      simp only [wallClock]; omega

include hs in
/-- The earliest allowed date and time of day, when a time is left on the floor's own date. -/
theorem ResolveOutcome.of_time {limit date : Date} {time onDate : TimeOfDay} {r : Option Date}
    (hdate : date.IsReal) (hfloor : 0 ≤ time.seconds ∧ time.seconds ≤ 86400)
    (hin : s.AllowsTime onDate) (hle : time.seconds ≤ onDate.seconds)
    (hleast : ∀ u, s.AllowsTime u → time.seconds ≤ u.seconds → onDate.seconds ≤ u.seconds)
    (h : s.DateOutcome limit date r) :
    s.ResolveOutcome limit date time (r.bind fun d =>
      if d = date then some (d, onDate) else s.firstTime?.bind fun t => some (d, t)) := by
  have hday : ∀ {t}, s.AllowsTime t → 0 ≤ t.seconds ∧ t.seconds < 86400 := fun ht =>
    TimeOfDay.seconds_bounds (isReal_of_allowsTime hs ht)
  have hordinal : ∀ e u, s.Resolves e u → wallClock date time ≤ wallClock e u →
      date.ordinal ≤ e.ordinal := by
    intro e u he hle
    have h1 := hday he.2
    have h2 := hday hin
    simp only [wallClock] at hle
    omega
  have hge : ∀ e u, s.Resolves e u → wallClock date time ≤ wallClock e u →
      date.stamp ≤ e.stamp := fun e u he hle =>
    (Date.ordinal_le_ordinal hdate he.1.2).1 (hordinal e u he hle)
  by_cases hr : r = some date
  · subst hr
    obtain ⟨hd, -, -, hbefore⟩ := h
    rw [Option.bind_some, if_pos rfl]
    refine ⟨⟨hd, hin⟩, by simp only [wallClock]; omega, fun e u he hle => ?_, hbefore⟩
    have h1 := hordinal e u he hle
    have h2 := hday he.2
    have h3 := hday hin
    have h4 := hleast u he.2
    simp only [wallClock] at hle ⊢
    omega
  · have hlater : ∀ d, r = some d → date.ordinal < d.ordinal := by
      intro d hx
      subst hx
      rw [Date.ordinal_lt_ordinal hdate h.1.2]
      have hne : date.stamp ≠ d.stamp := fun he =>
        hr (congrArg some (Date.stamp_inj hdate.digits h.1.2.digits he).symm)
      have := h.2.1
      omega
    have hout := ResolveOutcome.of_date hs hfloor (Int.le_refl _) hge (fun _ _ hle => hle)
      hlater h
    cases r with
    | none => exact hout
    | some d => rwa [Option.bind_some, if_neg fun he => hr (congrArg some he)]

include hs in
theorem resolve?_outcome {limit date : Date} {time : TimeOfDay} (hlimit : limit.IsReal)
    (hdate : date.IsReal) (hhour : 0 ≤ time.hour ∧ time.hour ≤ 23)
    (hminute : 0 ≤ time.minute ∧ time.minute ≤ 59)
    (hsecond : 0 ≤ time.second ∧ time.second ≤ 60) :
    s.ResolveOutcome limit date time (s.resolve? limit date time) := by
  have hfloor : 0 ≤ time.seconds ∧ time.seconds ≤ 86400 := by
    simp only [TimeOfDay.seconds]; omega
  have htime := first_timeFrom? hs hminute hsecond
  simp only [resolve?, Option.bind_eq_bind]
  cases ht : s.timeFrom? time with
  | some onDate =>
    rw [ht] at htime
    exact ResolveOutcome.of_time hs hdate hfloor htime.1.1 htime.1.2
      (fun u hu hle => htime.2 u ⟨hu, hle⟩) (dateFrom?_outcome hs hlimit hdate.1 hdate.digits)
  | none =>
    rw [ht] at htime
    -- no time is left on the floor's date, so the search begins with the day after it
    have hdigits := hdate.digits
    have hb := (monthLength_bounds date.year date.month).2
    have hlen := hdate.2.2.2.2.2
    have hout := @dateFrom?_outcome _ hs _ ⟨date.year, date.month, date.day + 1⟩ hlimit hdate.1
      (by simp only; omega)
    refine ResolveOutcome.of_date hs hfloor ?_ (fun e u he hle => ?_) (fun p hp hle => ?_)
      (fun d hd => ?_) hout
    · simp only [Date.stamp]; omega
    · have h1 := TimeOfDay.seconds_bounds (isReal_of_allowsTime hs he.2)
      have h2 : ¬ time.seconds ≤ u.seconds := fun h => htime u ⟨he.2, h⟩
      have h3 := Date.ordinal_lt_ordinal hdate he.1.2
      simp only [wallClock] at hle
      have h4 : date.stamp < e.stamp := by rw [← h3]; omega
      simp only [Date.stamp] at h4 ⊢
      omega
    · have h1 := digits_of_allowsDate hs hp.1
      have h2 := hp.stamp_ne hs hdate
      simp only [Date.stamp] at h2 hle ⊢
      omega
    · rw [hd] at hout
      have h1 := hout.2.1
      rw [Date.ordinal_lt_ordinal hdate hout.1.2]
      simp only [Date.stamp] at h1 ⊢
      omega

end

end Schedule

end CronFire
