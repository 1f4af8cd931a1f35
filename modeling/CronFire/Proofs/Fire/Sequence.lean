import CronFire.Fire.Sequence
import CronFire.Proofs.Fire.NextFire
/-!
# Sequences hand out all fire times in order

A sequence stands for a list: the fire times after its current moment, cut off at the number
that may still be handed out.  Each pull hands out the head of that list and leaves the tail,
since the fire times after the first one are those that are left.  So however the pulls are
spread over requests, and over several sequences, the list is handed out from its beginning.

Results:
* `exists_fireList`: the ascending list of all fire times.
* `Holds.pull`, `Holds.pullMany`: what one pull does, and many.
* `exists_toList`: between moments that have an order no pull fails.
* `Holds.serve`: what one of several sequences hands out.
* `serve_fireList`: all of it together.
-/
namespace CronFire

namespace Schedule

variable {s : Schedule} {start stop t u : Moment} {ts : List Moment}

/-! ## The list of fire times -/

/-- The strictly ascending list of all fire times after `start` and before `stop`. -/
structure FireList (s : Schedule) (start stop : Moment) (ts : List Moment) : Prop where
  ascending : ts.Pairwise fun t u => t.instant < u.instant
  mem_iff : ∀ t, t ∈ ts ↔ s.Fires start stop t

/-- The fire times after a fire time are the later ones. -/
theorem fires_after_iff (ht : s.Fires start stop t) :
    s.Fires t stop u ↔ s.Fires start stop u ∧ t.instant < u.instant := by
  have hafter := ht.2
  unfold Fires
  rw [ht.1.clock]
  constructor
  · intro h
    obtain ⟨hdue, hlt⟩ := h
    exact ⟨⟨hdue, by omega⟩, hlt⟩
  · intro h
    obtain ⟨⟨hdue, -⟩, hlt⟩ := h
    exact ⟨hdue, hlt⟩

theorem FireList.cons (ht : s.FirstFire start stop t) (h : s.FireList t stop ts) :
    s.FireList start stop (t :: ts) := by
  have hmem : ∀ u, u ∈ ts ↔ s.Fires start stop u ∧ t.instant < u.instant := fun u =>
    (h.mem_iff u).trans (fires_after_iff ht.1)
  refine ⟨List.pairwise_cons.2 ⟨fun u hu => ((hmem u).1 hu).2, h.ascending⟩, fun u => ?_⟩
  rw [List.mem_cons, hmem]
  constructor
  · intro hx
    rcases hx with rfl | hu
    · exact ht.1
    · exact hu.1
  · intro hu
    rcases Int.lt_or_eq_of_le (ht.2 u hu) with hlt | heq
    · exact .inr ⟨hu, hlt⟩
    · exact .inl (hu.eq_of_instant_eq ht.1 heq.symm)

theorem FireList.of_cons (h : s.FireList start stop (t :: ts)) :
    s.FirstFire start stop t ∧ s.FireList t stop ts := by
  obtain ⟨hfirst, hrest⟩ := List.pairwise_cons.1 h.ascending
  have ht := (h.mem_iff t).1 List.mem_cons_self
  have hleast : ∀ u, s.Fires start stop u → t.instant ≤ u.instant := by
    intro u hu
    rcases List.mem_cons.1 ((h.mem_iff u).2 hu) with rfl | hmem
    · exact Int.le_refl _
    · exact Int.le_of_lt (hfirst u hmem)
  refine ⟨⟨ht, hleast⟩, hrest, fun u => ?_⟩
  rw [fires_after_iff ht, ← h.mem_iff, List.mem_cons]
  constructor
  · exact fun hu => ⟨.inr hu, hfirst u hu⟩
  · intro hx
    obtain ⟨rfl | hu, hlt⟩ := hx
    · exact absurd hlt (Int.lt_irrefl _)
    · exact hu

/-- There is a list of all fire times: each is followed by the first one after it. -/
theorem exists_fireList (s : Schedule) (start stop : Moment) : ∃ ts, s.FireList start stop ts := by
  generalize hn : (stop.instant - start.instant).toNat = n
  induction n using Nat.strongRecOn generalizing start with
  | ind n ih =>
    by_cases hex : ∃ t, s.Fires start stop t
    · obtain ⟨u, hu⟩ := hex
      obtain ⟨t, ht⟩ := exists_firstFire hu
      have hafter := ht.1.2
      have hbefore := ht.1.1.before
      obtain ⟨ts, hts⟩ := ih _ (by omega) t rfl
      exact ⟨t :: ts, hts.cons ht⟩
    · refine ⟨[], .nil, fun t => ?_⟩
      simp only [List.not_mem_nil, false_iff]
      exact fun ht => hex ⟨t, ht⟩

/-- The first element is what a search finds. -/
theorem FireList.head?_eq {r : Option Moment} (h : s.FireList start stop ts)
    (hfirst : FirstBy Moment.instant (s.Fires start stop) r) : r = ts.head? := by
  cases ts with
  | nil => exact hfirst.eq_none_iff.2 fun t ht => nomatch (h.mem_iff t).2 ht
  | cons t ts =>
    exact (hfirst.eq_some_iff fun t u ht hu => ht.eq_of_instant_eq hu).2 h.of_cons.1

/-- Each fire time takes a second of its own. -/
theorem FireList.length_le (h : s.FireList start stop ts) (hstart : start.IsReal) :
    (ts.length : Int) ≤ (Moment.last none).wallSeconds - start.wallSeconds := by
  induction ts generalizing start with
  | nil =>
    have h1 := Date.ordinal_le_last hstart.1
    have h2 := TimeOfDay.seconds_bounds hstart.2.1
    have h3 : (Moment.last none).time.seconds = 86399 := rfl
    have h4 : (Moment.last none).date = Date.last := rfl
    simp only [List.length_nil, Moment.wallSeconds, h3, h4]
    omega
  | cons t ts ih =>
    obtain ⟨ht, hts⟩ := h.of_cons
    have h1 := ih hts ht.1.1.real
    have h2 := (Moment.instant_lt_iff hstart ht.1.1.whole ht.1.1.clock).1 ht.1.2
    rw [List.length_cons]
    omega

end Schedule

namespace FireSequence

/-! ## What is left of a sequence -/

/-- The beginning of a list, as far as a count allows. -/
def upTo {α : Type} (count : Option Nat) (ts : List α) : List α :=
  count.elim ts fun n => ts.take n

@[simp] theorem upTo_nil {α : Type} (count : Option Nat) : upTo count ([] : List α) = [] := by
  cases count with
  | none => rfl
  | some n => exact List.take_nil

theorem upTo_cons {α : Type} {count : Option Nat} (h : count ≠ some 0) (a : α) (as : List α) :
    upTo count (a :: as) = a :: upTo (count.map (· - 1)) as := by
  cases count with
  | none => rfl
  | some n =>
    cases n with
    | zero => exact absurd rfl h
    | succ n => rfl

/-- What the sequence still hands out, on one clock. -/
structure Holds (f : FireSequence) (ts : List Moment) : Prop where
  proper : f.schedule.Proper
  current : f.current.IsReal
  stop : f.stop.IsReal
  clock : f.current.offset = f.stop.offset
  left : ∃ all, f.schedule.FireList f.current f.stop all ∧ ts = upTo f.remaining all

theorem holds_start {s : Schedule} {current stop : Moment} {all : List Moment} (hs : s.Proper)
    (hcurrent : current.IsReal) (hstop : stop.IsReal) (hclock : current.offset = stop.offset)
    (count : Option Int) (hall : s.FireList current stop all) :
    (start s current stop count).Holds (upTo (count.map Int.toNat) all) :=
  ⟨hs, hcurrent, hstop, hclock, all, hall, rfl⟩

variable {f : FireSequence} {ts : List Moment}

theorem pull_eq (h : f.remaining ≠ some 0) : f.pull =
    match f.schedule.nextFire f.current f.stop with
    | .error mixed => (.error mixed, f.ended)
    | .ok none => (.ok none, f.ended)
    | .ok (some found) =>
      (.ok (some found), { f with current := found, remaining := f.remaining.map (· - 1) }) := by
  unfold pull
  split
  · rename_i h0; exact absurd h0 h
  · rfl

/-- **One pull** hands out the head and leaves the tail. -/
theorem Holds.pull (h : f.Holds ts) :
    ∃ rest, f.pull = (.ok ts.head?, rest) ∧ rest.Holds ts.tail := by
  obtain ⟨all, hall, rfl⟩ := h.left
  by_cases hzero : f.remaining = some 0
  · refine ⟨f, ?_, h.proper, h.current, h.stop, h.clock, all, hall, ?_⟩
    · unfold FireSequence.pull
      simp [hzero, upTo]
    · simp [hzero, upTo]
  · obtain ⟨r, hrun, hfirst⟩ := Schedule.first_nextFire h.proper h.current h.stop h.clock
    obtain rfl := hall.head?_eq hfirst
    rw [pull_eq hzero, hrun]
    cases all with
    | nil => exact ⟨f.ended, by simp, h.proper, h.current, h.stop, h.clock, [], hall, by simp⟩
    | cons t all =>
      obtain ⟨ht, hrest⟩ := hall.of_cons
      rw [upTo_cons hzero]
      exact ⟨_, rfl, h.proper, ht.1.1.real, h.stop, ht.1.1.clock.trans h.clock, all, hrest, rfl⟩

theorem Holds.pullMany (n : Nat) (h : f.Holds ts) :
    ∃ rest, f.pullMany n = (.ok ((List.range n).map fun k => ts[k]?), rest) ∧
      rest.Holds (ts.drop n) := by
  induction n generalizing f ts with
  | zero => exact ⟨f, rfl, h⟩
  | succ n ih =>
    obtain ⟨rest, hpull, hrest⟩ := h.pull
    obtain ⟨last, hmany, hlast⟩ := ih hrest
    refine ⟨last, ?_, by simpa using hlast⟩
    simp only [FireSequence.pullMany, hpull, hmany, List.range_succ_eq_map, List.map_cons,
      List.map_map, Function.comp_def, List.head?_eq_getElem?, List.getElem?_tail]

theorem Holds.takeUpTo (n : Nat) (h : f.Holds ts) : f.takeUpTo n = .ok (ts.take n) := by
  induction n generalizing f ts with
  | zero => rfl
  | succ n ih =>
    obtain ⟨rest, hpull, hrest⟩ := h.pull
    cases ts with
    | nil => simp [FireSequence.takeUpTo, hpull]
    | cons t ts => simp [FireSequence.takeUpTo, hpull, ih hrest]; rfl

/-- The seconds that are left suffice for the fire times that are left. -/
theorem Holds.toList (h : f.Holds ts) : f.toList = .ok ts := by
  obtain ⟨all, hall, rfl⟩ := h.left
  have hlen := hall.length_le h.current
  unfold FireSequence.toList
  rw [h.takeUpTo]
  congr 1
  cases hremaining : f.remaining with
  | some n => simp [upTo, List.take_take]
  | none =>
    simp only [upTo, Option.elim_none, Option.getD_none]
    exact List.take_of_length_le (by simp only [secondsLeft]; omega)

/-! ## Between moments that have an order -/

/-- A search between moments that have an order compares nothing else, and stays on its clock. -/
theorem exists_searchFrom {s : Schedule} {start stop : Moment}
    (h : start.comparable stop = true) (days : Nat) (date : Date) (time : TimeOfDay) :
    ∃ r, s.searchFrom start stop days date time = .ok r ∧ ∀ t ∈ r, t.offset = start.offset := by
  induction days generalizing date time with
  | zero => exact ⟨none, rfl, by simp⟩
  | succ days ih =>
    rw [Schedule.searchFrom]
    split
    · exact ⟨none, rfl, by simp⟩
    · rename_i d t _
      have hcompare : (⟨d, t, 0, start.offset⟩ : Moment).compareWith stop =
          .ok (compare (⟨d, t, 0, start.offset⟩ : Moment).instant stop.instant) := if_pos h
      simp only [hcompare]
      split
      · rename_i heq; cases heq
      · split
        · exact ⟨_, rfl, by simp⟩
        · split
          · exact ⟨none, rfl, by simp⟩
          · exact ih _ _
      · exact ⟨none, rfl, by simp⟩

theorem exists_takeUpTo (n : Nat) (h : f.current.comparable f.stop = true) :
    ∃ ts, f.takeUpTo n = .ok ts := by
  induction n generalizing f with
  | zero => exact ⟨[], rfl⟩
  | succ n ih =>
    by_cases hzero : f.remaining = some 0
    · exact ⟨[], by simp [FireSequence.takeUpTo, FireSequence.pull, hzero]⟩
    · obtain ⟨r, hrun, hclock⟩ := exists_searchFrom (s := f.schedule) h
        (Date.last.ordinal - f.current.date.ordinal + 1).toNat f.current.date
        (Schedule.floorAfter f.current)
      rw [FireSequence.takeUpTo, pull_eq hzero, Schedule.nextFire, hrun]
      cases r with
      | none => exact ⟨[], rfl⟩
      | some t =>
        have ht : t.comparable f.stop = true := by
          rw [Moment.comparable, hclock t rfl]
          exact h
        obtain ⟨ts, hts⟩ := @ih { f with current := t, remaining := f.remaining.map (· - 1) } ht
        exact ⟨t :: ts, by simp only [hts]; rfl⟩

/-- **Between moments that have an order** a sequence never stops at a mixed pair. -/
theorem exists_toList (h : f.current.comparable f.stop = true) : ∃ ts, f.toList = .ok ts :=
  exists_takeUpTo _ h

/-! ## Several sequences -/

/-- What one sequence of a pool hands out, however many requests go to the others in between:
each answer has the asked-for size, and together they run through the list. -/
theorem Holds.serve {ι : Type} [DecidableEq ι] {pool : ι → FireSequence} {i : ι}
    (h : (pool i).Holds ts) (requests : List (ι × Nat)) :
    ∃ answers : List (List (Option Moment)),
      (serve pool requests).filter (·.1 = i) = answers.map (fun answer => (i, .ok answer)) ∧
      answers.map List.length = (requests.filter (·.1 = i)).map (·.2) ∧
      answers.flatten = (List.range answers.flatten.length).map fun k => ts[k]? := by
  induction requests generalizing pool ts with
  | nil => exact ⟨[], rfl, rfl, rfl⟩
  | cons request requests ih =>
    obtain ⟨j, n⟩ := request
    simp only [FireSequence.serve]
    by_cases hij : j = i
    · subst hij
      obtain ⟨rest, hmany, hrest⟩ := h.pullMany n
      obtain ⟨answers, hserve, hsizes, hall⟩ :=
        @ih _ (fun k => if k = j then rest else pool k) (by simpa using hrest)
      refine ⟨((List.range n).map fun k => ts[k]?) :: answers, ?_, ?_, ?_⟩
      · simp [hmany, hserve]
      · simp [hsizes]
      · -- the rest of the list is the list from the place that the first answer stops at
        simp only [List.flatten_cons, List.length_append, List.length_map, List.length_range,
          List.range_add, List.map_append, List.map_map]
        rw [List.append_cancel_left_eq, hall]
        simp [Function.comp_def]
    · obtain ⟨answers, hserve, hsizes, hall⟩ :=
        @ih _ (fun k => if k = j then ((pool j).pullMany n).2 else pool k)
          (by simpa [Ne.symm hij] using h)
      exact ⟨answers, by simpa [hij] using hserve, by simpa [hij] using hsizes, hall⟩

/-- **All fire times in order.** There is one ascending list of them, and a sequence hands out
its beginning, of `count` fire times: all at once, or in answer to requests of any sizes,
between requests to any other sequences, and nothing after that. -/
theorem serve_fireList {expression : String} {s : Schedule}
    (hread : Schedule.read expression = .ok s) {current stop : Moment} (hcurrent : current.IsReal)
    (hstop : stop.IsReal) (hclock : current.offset = stop.offset) (count : Option Int) :
    ∃ all, s.FireList current stop all ∧
      (∀ now start? stop?, start?.getD now = current → stop?.getD current.defaultEnd = stop →
        ofExpression (some expression) now start? stop? count =
          .ok (start s current stop count)) ∧
      (start s current stop count).toList =
        .ok (count.elim all fun n => all.take (max n 0).toNat) ∧
      ∀ {ι : Type} [DecidableEq ι] (pool : ι → FireSequence) (i : ι) (requests : List (ι × Nat)),
        pool i = start s current stop count →
        ∃ answers : List (List (Option Moment)),
          (serve pool requests).filter (·.1 = i) = answers.map (fun answer => (i, .ok answer)) ∧
          answers.map List.length = (requests.filter (·.1 = i)).map (·.2) ∧
          answers.flatten = (List.range answers.flatten.length).map fun k =>
            (count.elim all fun n => all.take (max n 0).toNat)[k]? := by
  obtain ⟨all, hall⟩ := Schedule.exists_fireList s current stop
  have hholds := holds_start (Schedule.proper_of_read hread) hcurrent hstop hclock count hall
  have hbound : upTo (count.map Int.toNat) all =
      count.elim all fun n => all.take (max n 0).toNat := by
    cases count with
    | none => rfl
    | some n =>
      have : (max n 0).toNat = n.toNat := by omega
      simp [upTo, this]
  rw [hbound] at hholds
  refine ⟨all, hall, ?_, hholds.toList, fun pool i requests hpool => ?_⟩
  · intro now start? stop? hbegin hend
    subst hbegin hend
    simp only [ofExpression, Schedule.read?, hread]
    rfl
  · rw [← hpool] at hholds
    exact hholds.serve requests

theorem serve_fireList_spring : ∃ s, Schedule.read "0 0 1 * *" = .ok s ∧
    s.FireList ⟨⟨2024, 1, 1⟩, ⟨0, 0, 0⟩, 0, none⟩ ⟨⟨2024, 4, 1⟩, ⟨0, 0, 0⟩, 0, none⟩
      [⟨⟨2024, 2, 1⟩, ⟨0, 0, 0⟩, 0, none⟩, ⟨⟨2024, 3, 1⟩, ⟨0, 0, 0⟩, 0, none⟩] := by
  obtain ⟨s, hread, hrun⟩ : ∃ s, Schedule.read "0 0 1 * *" = .ok s ∧
      (start s ⟨⟨2024, 1, 1⟩, ⟨0, 0, 0⟩, 0, none⟩ ⟨⟨2024, 4, 1⟩, ⟨0, 0, 0⟩, 0, none⟩ none).toList =
        .ok [⟨⟨2024, 2, 1⟩, ⟨0, 0, 0⟩, 0, none⟩, ⟨⟨2024, 3, 1⟩, ⟨0, 0, 0⟩, 0, none⟩] :=
    Schedule.exists_read (by decide +kernel)
  obtain ⟨all, hall, -, htoList, -⟩ := serve_fireList hread
    (by decide : (⟨⟨2024, 1, 1⟩, ⟨0, 0, 0⟩, 0, none⟩ : Moment).IsReal)
    (by decide : (⟨⟨2024, 4, 1⟩, ⟨0, 0, 0⟩, 0, none⟩ : Moment).IsReal) rfl none
  rw [hrun, Option.elim_none, Except.ok.injEq] at htoList
  exact ⟨s, hread, htoList ▸ hall⟩

end FireSequence

end CronFire
