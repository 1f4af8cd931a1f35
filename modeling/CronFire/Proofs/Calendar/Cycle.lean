import CronFire.Proofs.Calendar.Order
/-!
# The cycle of leap years and days of the week

In four hundred years the leap years come round, and so do the days of the week, since those years
have a whole number of weeks.  Within forty years, also where a leap year is left out between
them, there is a leap year that begins on each day of the week.  So each date that leap years have
falls on each day of the week in one of the next forty years, 29 February as any other.

Results:
* `isLeapYear_add_cycles`, `daysBeforeYear_add_cycles`: years that are whole cycles apart.
* `exists_leapYear`: a leap year with a given first day of the week.
* `exists_date_on_weekday`: a date of a leap year on a given day of the week.
-/
namespace CronFire

theorem isLeapYear_add_cycles (y c : Int) : isLeapYear (y + 400 * c) = isLeapYear y := by
  rw [Bool.eq_iff_iff, isLeapYear_iff, isLeapYear_iff]
  omega

/-- A cycle has 146097 days, which are 20871 weeks. -/
theorem daysBeforeYear_add_cycles (y c : Int) :
    daysBeforeYear (y + 400 * c) = daysBeforeYear y + 146097 * c := by
  simp only [daysBeforeYear]
  omega

theorem monthLength_of_leap {y z : Int} (h : isLeapYear y = isLeapYear z) (m : Int) :
    monthLength y m = monthLength z m := by
  simp only [monthLength, h]

theorem daysBeforeMonth_of_leap {y z : Int} (h : isLeapYear y = isLeapYear z) (m : Int) :
    daysBeforeMonth y m = daysBeforeMonth z m := by
  simp only [daysBeforeMonth, h]

/-- One cycle has a hundred years that are divisible by four: of any ten in a row, some leap year
begins `k` days of the week after the calendar did. -/
theorem exists_leapYear_in_cycle : ∀ (q : Fin 100) (k : Fin 7), ∃ j : Fin 10,
    isLeapYear (4 * ((q.val : Int) + j.val + 1)) = true ∧
      daysBeforeYear (4 * ((q.val : Int) + j.val + 1)) % 7 = k.val := by
  decide +kernel

theorem exists_leapYear (y : Int) {k : Int} (hk : 0 ≤ k ∧ k < 7) :
    ∃ z, y < z ∧ z ≤ y + 40 ∧ isLeapYear z = true ∧ daysBeforeYear z % 7 = k := by
  have hq : (y / 4 % 100).toNat < 100 := by omega
  have hk' : k.toNat < 7 := by omega
  obtain ⟨j, hleap, hdays⟩ := exists_leapYear_in_cycle ⟨(y / 4 % 100).toNat, hq⟩ ⟨k.toNat, hk'⟩
  simp only at hleap hdays
  -- the years of the first cycle are moved on by the cycles before `y`
  have hz : 4 * (y / 4 + j.val + 1) =
      4 * (((y / 4 % 100).toNat : Int) + j.val + 1) + 400 * (y / 4 / 100) := by omega
  refine ⟨4 * (y / 4 + j.val + 1), by omega, by omega, ?_, ?_⟩
  · rw [hz, isLeapYear_add_cycles]
    exact hleap
  · rw [hz, daysBeforeYear_add_cycles]
    omega

/-- A date that leap years have falls on each day of the week within forty years. -/
theorem exists_date_on_weekday {leap m d w : Int} (hleap : isLeapYear leap = true) (y : Int)
    (hw : 0 ≤ w ∧ w < 7) (hd : d ≤ monthLength leap m) :
    ∃ z, y < z ∧ z ≤ y + 40 ∧ d ≤ monthLength z m ∧ (⟨z, m, d⟩ : Date).weekday = w := by
  obtain ⟨z, hlt, hle, hz, hdays⟩ := exists_leapYear y
    (⟨Int.emod_nonneg _ (by decide), Int.emod_lt_of_pos _ (by decide)⟩ :
      0 ≤ (w - (daysBeforeMonth leap m + d)) % 7 ∧ (w - (daysBeforeMonth leap m + d)) % 7 < 7)
  have hsame : isLeapYear z = isLeapYear leap := hz.trans hleap.symm
  refine ⟨z, hlt, hle, (monthLength_of_leap hsame m).symm ▸ hd, ?_⟩
  simp only [Date.weekday, Date.ordinal, Date.dayOfYear, daysBeforeMonth_of_leap hsame]
  omega

end CronFire
