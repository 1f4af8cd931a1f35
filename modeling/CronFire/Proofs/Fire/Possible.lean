import CronFire.Proofs.Calendar.Cycle
import CronFire.Proofs.Fire.NextFire
/-!
# Schedules that never fire again

A search without an end comes to the end of the calendar only for a schedule that no date can
satisfy, such as one for 30 February.  If leap years have one of its days, then it fires within
forty years, whatever its time fields and its days of the week: each of those fields has a value,
and by then the date has fallen on every day of the week.

Results:
* `exists_fires`: a schedule with a possible date fires again.
* `nextFire_defaultEnd_iff`: nothing is found exactly if no date is possible.
-/
namespace CronFire

/-- A month is longest in leap years. -/
theorem monthLength_le_leap {leap : Int} (hleap : isLeapYear leap = true) (y m : Int) :
    monthLength y m ≤ monthLength leap m := by
  by_cases hy : isLeapYear y = true
  · rw [monthLength_of_leap (hy.trans hleap.symm)]
  · unfold monthLength
    rw [if_neg hy, if_pos hleap]
    split
    · decide
    · exact Int.le_refl _

namespace Moment

theorem isReal_defaultEnd (start : Moment) : start.defaultEnd.IsReal :=
  ⟨Date.isReal_last, (by decide : (⟨23, 59, 59⟩ : TimeOfDay).IsReal),
    (by decide : (0 : Int) ≤ 999999), (by decide : (999999 : Int) < 1000000)⟩

/-- Every whole second of the calendar is before its end. -/
theorem instant_lt_defaultEnd {start t : Moment} (ht : t.IsReal) (hwhole : t.micro = 0)
    (hclock : t.offset = start.offset) : t.instant < start.defaultEnd.instant := by
  have hdate := Date.ordinal_le_last ht.1
  have htime := (TimeOfDay.seconds_bounds ht.2.1).2
  have hend : (Moment.last start.offset).wallSeconds = 86400 * Date.last.ordinal + 86399 := rfl
  simp only [instant, defaultEnd, hend, hclock, hwhole]
  simp only [wallSeconds, last]
  omega

end Moment

namespace Schedule

variable {s : Schedule} {start : Moment} {leap : Int}

/-- A schedule with a date that leap years have fires within forty years. -/
theorem exists_fires (hs : s.Proper) (hstart : start.IsReal)
    (hyear : start.date.year + 40 ≤ lastYear) (hleap : isLeapYear leap = true) {m d : Int}
    (hm : m ∈ s.month.allowed) (hd : d ∈ s.dayOfMonth.allowed) (hlength : d ≤ monthLength leap m) :
    ∃ t, s.Fires start start.defaultEnd t := by
  obtain ⟨w, hw⟩ := hs.dayOfWeek.inhabited
  have hweek := hs.dayOfWeek.inside w hw
  simp only [FieldKind.domain] at hweek
  obtain ⟨z, hlt, hle, hreal, hweekday⟩ :=
    exists_date_on_weekday hleap start.date.year (by omega : 0 ≤ w ∧ w < 7) hlength
  obtain ⟨time, -, htime, -⟩ := exists_firstTime? hs
  have hallows : s.AllowsDate ⟨z, m, d⟩ := ⟨hd, hm⟩
  have hdigits := digits_of_allowsDate hs hallows
  simp only at hdigits
  have hbegun := hstart.1.1
  have hdate : (⟨z, m, d⟩ : Date).IsReal :=
    ⟨by simp only; omega, by simp only; omega, hdigits.1, hdigits.2.1, hdigits.2.2.1, hreal⟩
  have htimeReal := isReal_of_allowsTime hs htime
  have hmoment : (⟨⟨z, m, d⟩, time, 0, start.offset⟩ : Moment).IsReal :=
    ⟨hdate, htimeReal, Int.le_refl 0, by simp only; omega⟩
  refine ⟨_, (fires_iff hstart).2 ⟨⟨hmoment, rfl, rfl, ?before, ?fires⟩, ?after⟩⟩
  case before => exact Moment.instant_lt_defaultEnd hmoment rfl rfl
  case fires => exact ⟨htime, hallows, hweekday ▸ hw⟩
  case after =>
    have hlater : start.date.ordinal < (⟨z, m, d⟩ : Date).ordinal := by
      rw [Date.ordinal_lt_ordinal hstart.1 hdate]
      have := hstart.1.digits
      simp only [Date.stamp]
      omega
    have h1 := TimeOfDay.seconds_bounds hstart.2.1
    have h2 := TimeOfDay.seconds_bounds htimeReal
    simp only [TimeOfDay.seconds] at h1 h2
    simp only [wallClock, floorAfter, TimeOfDay.seconds]
    omega

/-- A date at which a schedule fires is one that leap years have. -/
theorem Fires.day_le_leap {stop t : Moment} (h : s.Fires start stop t)
    (hleap : isLeapYear leap = true) : t.date.day ≤ monthLength leap t.date.month :=
  Int.le_trans h.1.real.1.2.2.2.2.2 (monthLength_le_leap hleap _ _)

/-- **Nothing is found only for an impossible schedule.** A search from the years up to 9950 to
the end of the calendar finds nothing exactly if no allowed month has an allowed day in leap
years; otherwise it finds the earliest fire time. -/
theorem nextFire_defaultEnd_iff {expression : String} (hread : read expression = .ok s)
    (hstart : start.IsReal) (hyear : start.date.year ≤ 9950) (hleap : isLeapYear leap = true) :
    ∃ r, s.nextFire start start.defaultEnd = .ok r ∧
      (r = none ↔ ∀ m ∈ s.month.allowed, ∀ d ∈ s.dayOfMonth.allowed, monthLength leap m < d) ∧
      ((∃ m ∈ s.month.allowed, ∃ d ∈ s.dayOfMonth.allowed, d ≤ monthLength leap m) →
        ∃ t, r = some t ∧ s.FirstFire start start.defaultEnd t) := by
  have hs := proper_of_read hread
  obtain ⟨r, hrun, hfirst⟩ :=
    first_nextFire hs hstart (Moment.isReal_defaultEnd start) (rfl : start.offset = _)
  have hfound : (∃ m ∈ s.month.allowed, ∃ d ∈ s.dayOfMonth.allowed, d ≤ monthLength leap m) →
      ∃ t, r = some t ∧ s.FirstFire start start.defaultEnd t := by
    intro h
    obtain ⟨m, hm, d, hd, hlength⟩ := h
    obtain ⟨t, ht⟩ := exists_fires hs hstart (by simp only [lastYear]; omega) hleap hm hd hlength
    cases r with
    | none => exact absurd ht (hfirst t)
    | some u => exact ⟨u, rfl, hfirst⟩
  refine ⟨r, hrun, ⟨fun hnone m hm d hd => ?_, fun himpossible => ?_⟩, hfound⟩
  · refine Int.not_le.1 fun hle => ?_
    obtain ⟨t, ht, -⟩ := hfound ⟨m, hm, d, hd, hle⟩
    rw [hnone] at ht
    cases ht
  · refine hfirst.eq_none_iff.2 fun t ht => ?_
    have h1 := himpossible _ ht.1.fires.2.1.2 _ ht.1.fires.2.1.1
    have h2 := ht.day_le_leap hleap
    omega

/-- From one 29 February on a Sunday to the next it can be forty years. -/
theorem nextFire_defaultEnd_iff_leapSunday : ∃ s, read "0 0 29 2 SUN" = .ok s ∧
    s.FirstFire ⟨⟨1880, 2, 29⟩, ⟨0, 0, 0⟩, 0, none⟩
      (Moment.defaultEnd ⟨⟨1880, 2, 29⟩, ⟨0, 0, 0⟩, 0, none⟩)
      ⟨⟨1920, 2, 29⟩, ⟨0, 0, 0⟩, 0, none⟩ := by
  obtain ⟨s, hread, hrun, hm, hd⟩ : ∃ s, read "0 0 29 2 SUN" = .ok s ∧
      s.nextFire ⟨⟨1880, 2, 29⟩, ⟨0, 0, 0⟩, 0, none⟩
          (Moment.defaultEnd ⟨⟨1880, 2, 29⟩, ⟨0, 0, 0⟩, 0, none⟩) =
        .ok (some ⟨⟨1920, 2, 29⟩, ⟨0, 0, 0⟩, 0, none⟩) ∧
      2 ∈ s.month.allowed ∧ 29 ∈ s.dayOfMonth.allowed := exists_read (by decide +kernel)
  obtain ⟨r, hr, -, hfound⟩ := nextFire_defaultEnd_iff hread
    (by decide : (⟨⟨1880, 2, 29⟩, ⟨0, 0, 0⟩, 0, none⟩ : Moment).IsReal)
    (by decide : (1880 : Int) ≤ 9950) (by decide : isLeapYear 2000 = true)
  obtain ⟨t, ht, hfirst⟩ := hfound ⟨2, hm, 29, hd, by decide⟩
  rw [hrun, Except.ok.injEq, ht, Option.some.injEq] at hr
  exact ⟨s, hread, hr ▸ hfirst⟩

end Schedule

end CronFire
