import CronFire.Calendar.Moment
import Mathlib.Order.Basic
import Mathlib.Data.Int.Init
/-!
# The order of dates and moments

Dates compare by year, month and day.  `Date.stamp` writes the three as one number, so that the
order is one inequality, also for days that their month does not have.  On real dates the number
of the day (`ordinal`) orders them the same way, without gaps.

Results:
* `ordinal_lt_ordinal`: real dates are ordered as their ordinals.
* `ordinal_tomorrow`, `stamp_tomorrow_le`: the day after is the next one in both orders.
* `isReal_of_tomorrow?`, `stamp_le_of_tomorrow?`: it is missing after the last day only.
* `seconds_bounds`, `seconds_inj`: times of day as seconds.
* `eq_of_instant_eq`: whole seconds on one clock are told apart by their instants.
-/
namespace CronFire

/-! ## Years and months -/

theorem isLeapYear_iff {y : Int} :
    isLeapYear y = true ↔ y % 4 = 0 ∧ (y % 100 ≠ 0 ∨ y % 400 = 0) := by
  simp [isLeapYear]

def yearLength (year : Int) : Int := if isLeapYear year then 366 else 365

theorem daysBeforeYear_succ (y : Int) :
    daysBeforeYear (y + 1) = daysBeforeYear y + yearLength y := by
  simp only [daysBeforeYear, yearLength]
  by_cases h : isLeapYear y = true
  · rw [if_pos h]; rw [isLeapYear_iff] at h; omega
  · rw [if_neg h]; rw [isLeapYear_iff] at h; omega

theorem daysBeforeYear_le {y z : Int} (h : y ≤ z) : daysBeforeYear y ≤ daysBeforeYear z := by
  simp only [daysBeforeYear]; omega

theorem monthLength_bounds (y m : Int) : 28 ≤ monthLength y m ∧ monthLength y m ≤ 31 := by
  unfold monthLength
  split
  · split <;> omega
  · split <;> omega

theorem daysBeforeMonth_succ {y m : Int} (hm : 1 ≤ m) (hm' : m < 12) :
    daysBeforeMonth y (m + 1) = daysBeforeMonth y m + monthLength y m := by
  have hcases : m = 1 ∨ m = 2 ∨ m = 3 ∨ m = 4 ∨ m = 5 ∨ m = 6 ∨ m = 7 ∨ m = 8 ∨ m = 9 ∨
      m = 10 ∨ m = 11 := by omega
  unfold daysBeforeMonth monthLength
  rcases hcases with rfl | rfl | rfl | rfl | rfl | rfl | rfl | rfl | rfl | rfl | rfl <;>
    cases isLeapYear y <;> rfl

/-- The days before a month include all days of an earlier one. -/
theorem daysBeforeMonth_add_le {y m n : Int} (hm : 1 ≤ m) (hmn : m < n) (hn : n ≤ 12) :
    daysBeforeMonth y m + monthLength y m ≤ daysBeforeMonth y n := by
  induction n, hmn using Int.leInduction with
  | base => exact Int.le_of_eq (daysBeforeMonth_succ hm (by omega)).symm
  | succ k hk ih =>
    have := daysBeforeMonth_succ (y := y) (m := k) (by omega) (by omega)
    have := (monthLength_bounds y k).1
    have := ih (by omega)
    omega

theorem daysBeforeMonth_last (y : Int) :
    daysBeforeMonth y 12 + monthLength y 12 = yearLength y := by
  unfold daysBeforeMonth monthLength yearLength
  cases isLeapYear y <;> simp

theorem daysBeforeMonth_nonneg {y m : Int} (hm : 1 ≤ m) : 0 ≤ daysBeforeMonth y m := by
  unfold daysBeforeMonth
  split
  · omega
  · split <;> omega

namespace Date

/-! ## Dates -/

/-- The date as one number, of which the last two digits are the day and the two before them
the month. -/
def stamp (d : Date) : Int := 10000 * d.year + 100 * d.month + d.day

theorem stamp_inj {d e : Date} (hd : 1 ≤ d.month ∧ d.month ≤ 12 ∧ 1 ≤ d.day ∧ d.day ≤ 99)
    (he : 1 ≤ e.month ∧ e.month ≤ 12 ∧ 1 ≤ e.day ∧ e.day ≤ 99) (h : d.stamp = e.stamp) :
    d = e := by
  obtain ⟨y, m, k⟩ := d
  obtain ⟨y', m', k'⟩ := e
  simp only [stamp] at *
  simp only [mk.injEq]
  omega

theorem notAfter_iff {d e : Date} (hd : 1 ≤ d.month ∧ d.month ≤ 12 ∧ 1 ≤ d.day ∧ d.day ≤ 99)
    (he : 1 ≤ e.month ∧ e.month ≤ 12 ∧ 1 ≤ e.day ∧ e.day ≤ 99) :
    d.notAfter e = true ↔ d.stamp ≤ e.stamp := by
  simp only [notAfter, stamp, Bool.or_eq_true, Bool.and_eq_true, decide_eq_true_eq, beq_iff_eq]
  omega

theorem IsReal.digits {d : Date} (h : d.IsReal) :
    1 ≤ d.month ∧ d.month ≤ 12 ∧ 1 ≤ d.day ∧ d.day ≤ 99 := by
  obtain ⟨-, -, h1, h2, h3, h4⟩ := h
  have := (monthLength_bounds d.year d.month).2
  omega

/-- A real date after a day that its month does not have lies beyond that month. -/
theorem stamp_lt_of_missing {d p q : Date} (hd : d.IsReal)
    (hp : monthLength p.year p.month < p.day) (h : p.stamp < d.stamp) (hyear : q.year = p.year)
    (hmonth : q.month = p.month) (hdigits : 1 ≤ p.month ∧ p.month ≤ 12 ∧ 1 ≤ p.day)
    (hday : q.day ≤ 31) : q.stamp < d.stamp := by
  have hreal := hd.digits
  have hlen := hd.2.2.2.2.2
  have hsame : d.year = p.year → d.month = p.month → d.day ≤ monthLength p.year p.month := by
    intro hy hm; rw [← hy, ← hm]; exact hlen
  simp only [stamp, hyear, hmonth] at h ⊢
  omega

theorem dayOfYear_bounds {d : Date} (h : d.IsReal) :
    1 ≤ d.dayOfYear ∧ d.dayOfYear ≤ yearLength d.year := by
  obtain ⟨-, -, h1, h2, h3, h4⟩ := h
  have hnn := daysBeforeMonth_nonneg (y := d.year) h1
  have hlast := daysBeforeMonth_last d.year
  refine ⟨by simp only [dayOfYear]; omega, ?_⟩
  rcases Int.le_iff_eq_or_lt.1 h2 with h12 | h12
  · simp only [dayOfYear]; rw [h12] at h4 ⊢; omega
  · have := daysBeforeMonth_add_le (y := d.year) h1 h12 (Int.le_refl 12)
    have := (monthLength_bounds d.year 12).1
    simp only [dayOfYear]; omega

theorem ordinal_lt_of_stamp_lt {d e : Date} (hd : d.IsReal) (he : e.IsReal)
    (h : d.stamp < e.stamp) : d.ordinal < e.ordinal := by
  have hdy := dayOfYear_bounds hd
  have hey := dayOfYear_bounds he
  have hdd := hd.digits
  have hed := he.digits
  have hlen := hd.2.2.2.2.2
  obtain ⟨y, m, k⟩ := d
  obtain ⟨y', m', k'⟩ := e
  simp only [stamp, ordinal, dayOfYear] at *
  rcases Int.lt_trichotomy y y' with hy | rfl | hy
  · have := daysBeforeYear_le (y := y + 1) (z := y') (by omega)
    rw [daysBeforeYear_succ] at this
    omega
  · rcases Int.lt_trichotomy m m' with hm | rfl | hm
    · have := daysBeforeMonth_add_le (y := y) hdd.1 hm hed.2.1
      omega
    · omega
    · omega
  · omega

theorem ordinal_lt_ordinal {d e : Date} (hd : d.IsReal) (he : e.IsReal) :
    d.ordinal < e.ordinal ↔ d.stamp < e.stamp := by
  refine ⟨fun h => ?_, ordinal_lt_of_stamp_lt hd he⟩
  rcases Int.lt_trichotomy d.stamp e.stamp with hlt | heq | hgt
  · exact hlt
  · rw [stamp_inj hd.digits he.digits heq] at h; omega
  · have := ordinal_lt_of_stamp_lt he hd hgt; omega

theorem ordinal_le_ordinal {d e : Date} (hd : d.IsReal) (he : e.IsReal) :
    d.ordinal ≤ e.ordinal ↔ d.stamp ≤ e.stamp := by
  have := ordinal_lt_ordinal he hd; omega

/-! ## The day after -/

theorem ordinal_tomorrow {d : Date} (h : d.IsReal) : d.tomorrow.ordinal = d.ordinal + 1 := by
  obtain ⟨y, m, k⟩ := d
  obtain ⟨-, -, h1, h2, h3, h4⟩ := h
  simp only [tomorrow] at h1 h2 h3 h4 ⊢
  split
  · simp only [ordinal, dayOfYear]; omega
  · split
    · have := daysBeforeMonth_succ (y := y) h1 (by omega)
      simp only [ordinal, dayOfYear]; omega
    · obtain rfl : m = 12 := by omega
      have := daysBeforeMonth_last y
      have := daysBeforeYear_succ y
      have hfirst : daysBeforeMonth (y + 1) 1 = 0 := rfl
      simp only [ordinal, dayOfYear, hfirst]; omega

/-- No real date lies between a date and the day after. -/
theorem stamp_tomorrow_le {d e : Date} (hd : d.IsReal) (he : e.IsReal) (h : d.stamp < e.stamp) :
    d.tomorrow.stamp ≤ e.stamp := by
  obtain ⟨-, -, h1, h2, h3, h4⟩ := hd
  obtain ⟨-, -, h1', h2', h3', h4'⟩ := he
  have hb := (monthLength_bounds d.year d.month).2
  have hb' := (monthLength_bounds e.year e.month).2
  simp only [stamp] at h ⊢
  have hsame : e.year = d.year → e.month = d.month → e.day ≤ monthLength d.year d.month := by
    intro hy hm; rw [← hy, ← hm]; exact h4'
  unfold tomorrow
  split
  · simp only; omega
  · split
    · simp only; omega
    · simp only; omega

theorem tomorrow?_eq_some {d next : Date} (h : d.tomorrow? = some next) :
    next = d.tomorrow ∧ next.year ≤ lastYear := by
  unfold tomorrow? at h
  split at h
  · cases h
  · cases h; exact ⟨rfl, by omega⟩

theorem isReal_of_tomorrow? {d next : Date} (hd : d.IsReal) (h : d.tomorrow? = some next) :
    next.IsReal := by
  obtain ⟨rfl, hy⟩ := tomorrow?_eq_some h
  obtain ⟨h0, -, h1, h2, h3, h4⟩ := hd
  unfold tomorrow at hy ⊢
  split
  · rename_i hlt
    rw [if_pos hlt] at hy
    exact ⟨h0, hy, h1, h2, by simp only; omega, by simp only; omega⟩
  · rename_i hlt
    rw [if_neg hlt] at hy
    split
    · rename_i hm
      rw [if_pos hm] at hy
      have := (monthLength_bounds d.year (d.month + 1)).1
      exact ⟨h0, hy, by simp only; omega, by simp only; omega, Int.le_refl 1, by simp only; omega⟩
    · rename_i hm
      rw [if_neg hm] at hy
      have := (monthLength_bounds (d.year + 1) 1).1
      exact ⟨by simp only; omega, hy, Int.le_refl 1, by simp only; omega, Int.le_refl 1,
        by simp only; omega⟩

/-- Without a day after, no real date is later. -/
theorem stamp_le_of_tomorrow? {d e : Date} (hd : d.IsReal) (h : d.tomorrow? = none)
    (he : e.IsReal) : e.stamp ≤ d.stamp := by
  unfold tomorrow? at h
  split at h
  · rename_i hy
    refine Int.not_lt.1 fun hlt => ?_
    have hle := stamp_tomorrow_le hd he hlt
    have hed := he.digits
    have hyear := he.2.1
    have htd : 1 ≤ d.tomorrow.month ∧ 1 ≤ d.tomorrow.day := by
      have := hd.digits
      unfold tomorrow
      split
      · simp only; omega
      · split <;> simp only <;> omega
    simp only [stamp] at hle
    omega
  · cases h

theorem isReal_last : Date.last.IsReal := by decide

theorem ordinal_le_last {d : Date} (h : d.IsReal) : d.ordinal ≤ Date.last.ordinal := by
  rw [ordinal_le_ordinal h isReal_last]
  have := h.2.1
  have := h.digits
  have := h.2.2.2.2.2
  have := (monthLength_bounds d.year d.month).2
  simp only [stamp, Date.last]
  omega

end Date

/-! ## Times of day -/

namespace TimeOfDay

theorem seconds_bounds {t : TimeOfDay} (h : t.IsReal) : 0 ≤ t.seconds ∧ t.seconds < 86400 := by
  obtain ⟨h1, h2, h3, h4, h5, h6⟩ := h
  simp only [seconds]; omega

theorem seconds_inj {t u : TimeOfDay} (ht : t.IsReal) (hu : u.IsReal)
    (h : t.seconds = u.seconds) : t = u := by
  obtain ⟨h, m, s⟩ := t
  obtain ⟨h', m', s'⟩ := u
  simp only [IsReal, seconds] at *
  simp only [mk.injEq]
  omega

end TimeOfDay

/-! ## Moments -/

/-- The seconds on a clock since the calendar began, of a date and a time of day. -/
def wallClock (d : Date) (t : TimeOfDay) : Int := 86400 * d.ordinal + t.seconds

theorem wallClock_midnight (d : Date) : wallClock d .midnight = 86400 * d.ordinal := by
  simp [wallClock, TimeOfDay.midnight, TimeOfDay.seconds]

theorem wallClock_inj {d e : Date} {t u : TimeOfDay} (hd : d.IsReal) (he : e.IsReal)
    (ht : t.IsReal) (hu : u.IsReal) (h : wallClock d t = wallClock e u) : d = e ∧ t = u := by
  have h1 := TimeOfDay.seconds_bounds ht
  have h2 := TimeOfDay.seconds_bounds hu
  simp only [wallClock] at h
  have hordinal : d.ordinal = e.ordinal := by omega
  have h3 := (Date.ordinal_le_ordinal hd he).1 (Int.le_of_eq hordinal)
  have h4 := (Date.ordinal_le_ordinal he hd).1 (Int.le_of_eq hordinal.symm)
  exact ⟨Date.stamp_inj hd.digits he.digits (Int.le_antisymm h3 h4),
    TimeOfDay.seconds_inj ht hu (by omega)⟩

namespace Moment

/-- Of a whole second, the moments before it on its clock are those of the seconds before. -/
theorem instant_lt_iff {m t : Moment} (hm : m.IsReal) (ht : t.micro = 0)
    (h : t.offset = m.offset) : m.instant < t.instant ↔ m.wallSeconds + 1 ≤ t.wallSeconds := by
  have h1 := hm.2.2
  simp only [instant, h, ht]; omega

theorem instant_le_iff {t u : Moment} (ht : t.micro = 0) (hu : u.micro = 0)
    (h : t.offset = u.offset) : t.instant ≤ u.instant ↔ t.wallSeconds ≤ u.wallSeconds := by
  simp only [instant, h, ht, hu]; omega

theorem eq_of_instant_eq {t u : Moment} (ht : t.IsReal) (hu : u.IsReal) (ht0 : t.micro = 0)
    (hu0 : u.micro = 0) (hoffset : t.offset = u.offset) (h : t.instant = u.instant) : t = u := by
  have hwall : wallClock t.date t.time = wallClock u.date u.time :=
    Int.le_antisymm ((instant_le_iff ht0 hu0 hoffset).1 (Int.le_of_eq h))
      ((instant_le_iff hu0 ht0 hoffset.symm).1 (Int.le_of_eq h.symm))
  obtain ⟨hdate, htime⟩ := wallClock_inj ht.1 hu.1 ht.2.1 hu.2.1 hwall
  obtain ⟨d, c, m, o⟩ := t
  obtain ⟨d', c', m', o'⟩ := u
  simp only at hdate htime ht0 hu0 hoffset
  subst hdate htime ht0 hu0 hoffset
  rfl

end Moment

end CronFire
