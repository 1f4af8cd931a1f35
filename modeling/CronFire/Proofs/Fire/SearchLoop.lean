import CronFire.Proofs.Fire.MonthLoop
import CronFire.Proofs.Fire.NextFire
/-!
# The search ends, and what stops it

The search for a fire time is a loop around the loop over the months.  A turn resolves a date
and a time of day from its floor on, compares them with the end and looks up the day of the
week.  On a wrong day of the week the loop takes another turn, from the start of the next day.
So the dates of the floors increase, and the loop ends with the calendar at the latest.

A moment without an offset has no order with one that has an offset.  The first comparison of
such a pair stops the search, so it has no result exactly if its first turn resolves a date.
Nothing else stops it.

Results:
* `searchTurn_iff`: a turn of the search resolves what `resolve?` answers.
* `exists_searchLoop`: there is a run of the search, it ends like `searchFrom`, and its floors
  increase.
* `search_ends`: the search after any start, for every schedule that is read.
-/
namespace CronFire

/-- The earliest date and time of day that a turn of the search may find. -/
structure Floor where
  date : Date
  time : TimeOfDay
  deriving DecidableEq, Repr

def Floor.after (start : Moment) : Floor := ⟨start.date, Schedule.floorAfter start⟩

/-- A date, and a time of day whose second may be 60. -/
structure Floor.IsReal (f : Floor) : Prop where
  date : f.date.IsReal
  hour : 0 ≤ f.time.hour ∧ f.time.hour ≤ 23
  minute : 0 ≤ f.time.minute ∧ f.time.minute ≤ 59
  second : 0 ≤ f.time.second ∧ f.time.second ≤ 60

theorem Floor.isReal_after {start : Moment} (h : start.IsReal) : (Floor.after start).IsReal := by
  obtain ⟨h1, h2, h3, h4, h5, h6⟩ := h.2.1
  refine ⟨h.1, ⟨h1, h2⟩, ⟨h3, h4⟩, ?_⟩
  simp only [after, Schedule.floorAfter]
  omega

theorem Floor.isReal_midnight {date : Date} (h : date.IsReal) :
    (⟨date, .midnight⟩ : Floor).IsReal := by
  refine ⟨h, ?_, ?_, ?_⟩ <;> simp only [TimeOfDay.midnight] <;> decide

def Found.moment (f : Found) (offset : Option Int) : Except Halt Moment :=
  match f.times with
  | [some second, some minute, some hour] =>
    if f.date.IsReal ∧ (⟨hour, minute, second⟩ : TimeOfDay).IsReal then
      .ok ⟨f.date, ⟨hour, minute, second⟩, 0, offset⟩
    else .error .noSuchMoment
  | _ => .error .noValue

namespace Schedule

/-- What a turn of the search does with a moment that it comes to. -/
def judge (s : Schedule) (stop candidate : Moment) : Except Halt (Turn Floor (Option Moment)) :=
  match candidate.compareWith stop with
  | .error _ => .error .mixed
  | .ok .lt =>
    match s.dayOfWeek.allowed.contains? candidate.weekday with
    | none => .error .belowDomain
    | some true => .ok (.done (some candidate))
    | some false =>
      match candidate.date.tomorrow? with
      | none => .ok (.done none)
      | some next => .ok (.again ⟨next, .midnight⟩)
  | .ok _ => .ok (.done none)

/-- What a turn of the search does with the values found. -/
def weigh (s : Schedule) (start stop : Moment) :
    Option Found → Except Halt (Turn Floor (Option Moment))
  | none => .ok (.done none)
  | some found => found.moment start.offset >>= s.judge stop

/-- A turn of the search.  The loop over the months runs from its floor. -/
def SearchTurn (s : Schedule) (start stop : Moment) (floor : Floor)
    (t : Except Halt (Turn Floor (Option Moment))) : Prop :=
  ∃ retries found, s.MonthRun stop.date floor.date floor.time retries found ∧
    t = found >>= s.weigh start stop

/-- A run of the search after `start` and before `stop`. -/
def SearchRun (s : Schedule) (start stop : Moment) :
    List Floor → Except Halt (Option Moment) → Prop :=
  Run (s.SearchTurn start stop) (.after start)

variable {s : Schedule} {start stop : Moment}

/-- A turn is determined by its floor. -/
theorem SearchTurn.unique {floor : Floor} {t u : Except Halt (Turn Floor (Option Moment))}
    (ht : s.SearchTurn start stop floor t) (hu : s.SearchTurn start stop floor u) : t = u := by
  obtain ⟨cs, r, hr, rfl⟩ := ht
  obtain ⟨ds, q, hq, rfl⟩ := hu
  obtain ⟨-, rfl⟩ := hr.unique hq
  rfl

section
variable (hs : s.Proper)

/-! ## A turn -/

include hs in
/-- The day of the week is not below the domain. -/
theorem contains?_weekday (d : Date) :
    s.dayOfWeek.allowed.contains? d.weekday = some (decide (d.weekday ∈ s.dayOfWeek.allowed)) := by
  have hmin : s.dayOfWeek.allowed.minimum = 0 := hs.dayOfWeek.minimum_eq
  have hle : 0 ≤ d.weekday := Int.emod_nonneg _ (by decide)
  have hmem : d.weekday ∈ s.dayOfWeek.allowed ↔ s.dayOfWeek.allowed.bit d.weekday = true := by
    rw [ValueSet.mem_def, hmin]
    exact and_iff_right hle
  rw [ValueSet.contains?, hmin, if_neg (Int.not_lt.2 hle)]
  simp only [hmem, Bool.decide_eq_true]

include hs in
theorem judge_eq (candidate : Moment) :
    s.judge stop candidate =
      match candidate.compareWith stop with
      | .error _ => .error .mixed
      | .ok .lt =>
        if candidate.weekday ∈ s.dayOfWeek.allowed then .ok (.done (some candidate))
        else
          match candidate.date.tomorrow? with
          | none => .ok (.done none)
          | some next => .ok (.again ⟨next, .midnight⟩)
      | .ok _ => .ok (.done none) := by
  rw [judge, Moment.weekday, contains?_weekday hs]
  by_cases h : candidate.date.weekday ∈ s.dayOfWeek.allowed
  · simp only [h, decide_true, if_true]
  · simp only [h, decide_false, if_false]

include hs in
/-- What was resolved is a moment. -/
theorem weigh_foundOf {d : Date} {u : TimeOfDay} (h : s.Resolves d u) :
    s.weigh start stop (some (foundOf (d, u))) = s.judge stop ⟨d, u, 0, start.offset⟩ := by
  have hmoment : (foundOf (d, u)).moment start.offset = .ok ⟨d, u, 0, start.offset⟩ :=
    if_pos ⟨h.1.2, isReal_of_allowsTime hs h.2⟩
  rw [weigh, hmoment]
  rfl

include hs in
/-- **A turn of the search** takes the first date and time of day from its floor on. -/
theorem searchTurn_iff (hstop : stop.date.IsReal) {floor : Floor} (hfloor : floor.IsReal)
    {t : Except Halt (Turn Floor (Option Moment))} :
    s.SearchTurn start stop floor t ↔
      t = s.weigh start stop ((s.resolve? stop.date floor.date floor.time).map foundOf) := by
  obtain ⟨retries, hrun, -⟩ := exists_monthRun hs floor.time hstop hfloor.date
  have hturn : s.SearchTurn start stop floor
      (s.weigh start stop ((s.resolve? stop.date floor.date floor.time).map foundOf)) :=
    ⟨retries, _, hrun, rfl⟩
  exact ⟨fun h => h.unique hturn, fun h => h ▸ hturn⟩

include hs in
/-- A date on the wrong day of the week is not before the floor, and the day after it is later. -/
theorem ordinal_lt_tomorrow {floor : Floor} {d next : Date} {u : TimeOfDay}
    (hfloor : floor.IsReal) (hd : s.Resolves d u)
    (hle : wallClock floor.date floor.time ≤ wallClock d u) (hnext : d.tomorrow? = some next) :
    floor.date.ordinal < next.ordinal := by
  obtain ⟨rfl, -⟩ := Date.tomorrow?_eq_some hnext
  have h1 := Date.ordinal_tomorrow hd.1.2
  have h2 := TimeOfDay.seconds_bounds (isReal_of_allowsTime hs hd.2)
  have h3 := hfloor.hour
  have h4 := hfloor.minute
  have h5 := hfloor.second
  simp only [wallClock, TimeOfDay.seconds] at hle h2
  omega

include hs in
/-- What a turn of the search does, and what `searchFrom` does there.  It ends with a result, or
at a comparison of moments that have no order, or the search goes on from a later date. -/
theorem searchTurn_cases (hstop : stop.date.IsReal) {floor : Floor} (hfloor : floor.IsReal)
    (days : Nat) :
    (∃ r, s.SearchTurn start stop floor (.ok (.done r)) ∧
      s.searchFrom start stop (days + 1) floor.date floor.time = .ok r) ∨
    (s.SearchTurn start stop floor (.error .mixed) ∧
      s.searchFrom start stop (days + 1) floor.date floor.time = .error ⟨⟩) ∨
    ∃ next : Floor, s.SearchTurn start stop floor (.ok (.again next)) ∧ next.IsReal ∧
      floor.date.ordinal < next.date.ordinal ∧
      s.searchFrom start stop (days + 1) floor.date floor.time =
        s.searchFrom start stop days next.date next.time := by
  have hturn : s.SearchTurn start stop floor _ := (searchTurn_iff hs hstop hfloor).2 rfl
  have hresolve := resolve?_outcome hs hstop hfloor.date hfloor.hour hfloor.minute hfloor.second
  simp only [searchFrom]
  cases hr : s.resolve? stop.date floor.date floor.time with
  | none =>
    rw [hr] at hturn
    exact .inl ⟨none, hturn, rfl⟩
  | some found =>
    obtain ⟨d, u⟩ := found
    rw [hr] at hturn hresolve
    rw [Option.map_some, weigh_foundOf hs hresolve.1, judge_eq hs] at hturn
    simp only
    cases hc : (⟨d, u, 0, start.offset⟩ : Moment).compareWith stop with
    | error e =>
      rw [hc] at hturn
      exact .inr (.inl ⟨hturn, rfl⟩)
    | ok o =>
      rw [hc] at hturn
      cases o with
      | eq => exact .inl ⟨none, hturn, rfl⟩
      | gt => exact .inl ⟨none, hturn, rfl⟩
      | lt =>
        by_cases hweekday : (⟨d, u, 0, start.offset⟩ : Moment).weekday ∈ s.dayOfWeek.allowed
        · simp only [if_pos hweekday] at hturn ⊢
          exact .inl ⟨_, hturn, rfl⟩
        · simp only [if_neg hweekday] at hturn ⊢
          cases hnext : d.tomorrow? with
          | none =>
            rw [hnext] at hturn
            exact .inl ⟨none, hturn, rfl⟩
          | some next =>
            rw [hnext] at hturn
            have hreal := Date.isReal_of_tomorrow? hresolve.1.1.2 hnext
            have hlt := ordinal_lt_tomorrow hs hfloor hresolve.1 hresolve.2.1 hnext
            exact .inr (.inr ⟨⟨next, .midnight⟩, hturn, Floor.isReal_midnight hreal, hlt, rfl⟩)

/-! ## A run -/

include hs in
/-- **The search has a run**, and it ends as `searchFrom` does. -/
theorem exists_searchLoop (hstop : stop.date.IsReal) (days : Nat) {floor : Floor}
    (hfloor : floor.IsReal) (hdays : Date.last.ordinal - floor.date.ordinal < days) :
    ∃ floors, Run (s.SearchTurn start stop) floor floors
        ((s.searchFrom start stop days floor.date floor.time).mapError fun _ => .mixed) ∧
      (floor :: floors).IsChain (fun f g => f.date.ordinal < g.date.ordinal) ∧
      ∀ f ∈ floor :: floors, f.IsReal := by
  induction days generalizing floor with
  | zero =>
    have := Date.ordinal_le_last hfloor.date
    omega
  | succ days ih =>
    have hone : ∀ f ∈ [floor], f.IsReal := by simpa using hfloor
    rcases searchTurn_cases hs hstop hfloor days with
      ⟨r, hturn, heq⟩ | ⟨hturn, heq⟩ | ⟨next, hturn, hnext, hlt, heq⟩
    · rw [heq]
      exact ⟨[], .done hturn, .singleton floor, hone⟩
    · rw [heq]
      exact ⟨[], .halt hturn, .singleton floor, hone⟩
    · obtain ⟨floors, hrun, hchain, hreal⟩ := ih hnext (by omega)
      rw [heq]
      exact ⟨next :: floors, .again hturn hrun, .cons_cons hlt hchain,
        List.forall_mem_cons.2 ⟨hfloor, hreal⟩⟩

end

/-- Two moments that have no order are compared as soon as a date is resolved. -/
theorem nextFire_of_not_comparable (hstart : start.date.IsReal)
    (hmixed : start.comparable stop = false) :
    s.nextFire start stop =
      if (s.resolve? stop.date start.date (floorAfter start)).isSome then .error ⟨⟩
      else .ok none := by
  have hlast := Date.ordinal_le_last hstart
  obtain ⟨days, hdays⟩ : ∃ days, (Date.last.ordinal - start.date.ordinal + 1).toNat = days + 1 :=
    ⟨(Date.last.ordinal - start.date.ordinal).toNat, by omega⟩
  rw [nextFire, hdays, searchFrom]
  cases s.resolve? stop.date start.date (floorAfter start) with
  | none => rfl
  | some found =>
    have hcompare : (⟨found.1, found.2, 0, start.offset⟩ : Moment).compareWith stop = .error ⟨⟩ :=
      if_neg (Bool.eq_false_iff.1 hmixed)
    simp only [hcompare, Option.isSome_some, if_true]

/-- **The search after any start ends**, for every schedule that is read.  It has one run.  The
dates of its floors increase, and from each floor the loop over the months has a run that
nothing stops, whose months increase and stay in the calendar.  Nothing stops the search between
moments that have an order; without a fire time it answers with the end, here `none`.  Between
moments that have no order it is stopped exactly if its first turn resolves a date. -/
theorem search_ends {expression : String} (hread : read expression = .ok s)
    (hstart : start.IsReal) (hstop : stop.IsReal) :
    ∃ floors outcome, s.SearchRun start stop floors outcome ∧
      (∀ gs r, s.SearchRun start stop gs r → gs = floors ∧ r = outcome) ∧
      outcome = ((s.nextFire start stop).mapError fun _ => .mixed) ∧
      (Floor.after start :: floors).IsChain (fun f g => f.date.ordinal < g.date.ordinal) ∧
      (∀ f ∈ Floor.after start :: floors, ∃ retries found,
        s.MonthRun stop.date f.date f.time retries (.ok found) ∧
          s.Advances f.date retries found) ∧
      (start.comparable stop = true → ∃ r, outcome = .ok r) ∧
      (start.comparable stop = false → ∀ retries found,
        s.MonthRun stop.date start.date (floorAfter start) retries (.ok found) →
          outcome = if found.isSome then .error .mixed else .ok none) := by
  have hs := proper_of_read hread
  obtain ⟨floors, hrun, hincreasing, hreal⟩ := @exists_searchLoop _ start _ hs hstop.1
    (Date.last.ordinal - start.date.ordinal + 1).toNat _ (Floor.isReal_after hstart)
    (by simp only [Floor.after]; omega)
  have hsearch : s.SearchRun start stop floors
      ((s.nextFire start stop).mapError fun _ => .mixed) := hrun
  refine ⟨floors, _, hsearch, ?unique, rfl, hincreasing, ?months, ?ordered, ?unordered⟩
  case unique => exact fun gs r h => hsearch.unique (fun _ _ _ ht hu => ht.unique hu) h
  case months =>
    intro f hf
    obtain ⟨retries, hmonths, hadvance⟩ := exists_monthRun hs f.time hstop.1 (hreal f hf).date
    exact ⟨retries, _, hmonths, hadvance⟩
  case ordered =>
    intro hcomparable
    obtain ⟨r, hr, -⟩ := nextFire_outcome hs hstart hstop hcomparable
    exact ⟨r, congrArg _ hr⟩
  case unordered =>
    intro hmixed retries found h
    obtain ⟨cs, hmonths, -⟩ := exists_monthRun hs (floorAfter start) hstop.1 hstart.1
    obtain ⟨-, hfound⟩ := hmonths.unique h
    cases hfound
    rw [nextFire_of_not_comparable hstart.1 hmixed, Option.isSome_map]
    split <;> rfl

theorem search_ends_mondayThe30th : ∃ s, read "0 0 30 * 1" = .ok s ∧
    ∃ floors, s.SearchRun ⟨⟨2023, 2, 27⟩, ⟨12, 0, 0⟩, 0, none⟩
      ⟨⟨2024, 1, 1⟩, ⟨0, 0, 0⟩, 0, none⟩ floors
      (.ok (some ⟨⟨2023, 10, 30⟩, ⟨0, 0, 0⟩, 0, none⟩)) := by
  obtain ⟨s, hread, hfire⟩ : ∃ s, read "0 0 30 * 1" = .ok s ∧
      s.nextFire ⟨⟨2023, 2, 27⟩, ⟨12, 0, 0⟩, 0, none⟩ ⟨⟨2024, 1, 1⟩, ⟨0, 0, 0⟩, 0, none⟩ =
        .ok (some ⟨⟨2023, 10, 30⟩, ⟨0, 0, 0⟩, 0, none⟩) := exists_read (by decide +kernel)
  obtain ⟨floors, outcome, hrun, -, houtcome, -⟩ := search_ends hread
    (by decide : (⟨⟨2023, 2, 27⟩, ⟨12, 0, 0⟩, 0, none⟩ : Moment).IsReal)
    (by decide : (⟨⟨2024, 1, 1⟩, ⟨0, 0, 0⟩, 0, none⟩ : Moment).IsReal)
  rw [hfire] at houtcome
  subst houtcome
  exact ⟨s, hread, floors, hrun⟩

end Schedule

end CronFire
