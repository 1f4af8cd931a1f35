import CronFire.Proofs.Field.Members
/-!
# The spans that a set is merged from

Merging goes from left to right, with a rule of its own for each end of the reach.  What it comes
to is told by the spans alone: the members are their values, the reach begins at the least of their
starts and ends at the greatest of their arrivals.  So neither the order of the spans counts nor how
often one of them is merged.  Where no span is empty, the reach begins and ends with a member.

Results:
* `lowReach?_ofSpans`, `highReach?_ofSpans`: the reach of a merged set.
* `ofSpans_congr`: two lists of the same spans give the same set.
* `sameValues_iff`: sets compare equal if they list the same values over the same domain.
* `Field.tight_allowed`: the reach of a field that was read, over a domain that its names fit.
-/
namespace CronFire

theorem min?_congr {xs ys : List Int} (h : ∀ x, x ∈ xs ↔ x ∈ ys) : xs.min? = ys.min? := by
  refine Option.ext fun a => ?_
  simp only [List.min?_eq_some_iff, h]

theorem max?_congr {xs ys : List Int} (h : ∀ x, x ∈ xs ↔ x ∈ ys) : xs.max? = ys.max? := by
  refine Option.ext fun a => ?_
  simp only [List.max?_eq_some_iff, h]

namespace Span

variable {s : Span} {v : Int}

/-- A span that holds a value begins with one. -/
theorem first_mem (h : v ∈ s) : s.first ∈ s := by
  obtain ⟨k, hk, -⟩ := mem_iff.1 h
  exact mem_iff.2 ⟨0, by omega, by simp [nth]⟩

/-- A span that holds a value arrives at one. -/
theorem reached_mem (h : v ∈ s) : s.reached ∈ s := by
  obtain ⟨k, hk, -⟩ := mem_iff.1 h
  exact mem_iff.2 ⟨s.size - 1, by omega, rfl⟩

end Span

namespace ValueSet

/-! ## The reach -/

section
variable (d : Domain) (spans : List Span)

theorem reach_foldl_addSpan {s : ValueSet} {low high : Int} (h : s.reach = some (low, high)) :
    (spans.foldl addSpan s).reach = some ((spans.map Span.first).foldl min low,
      (spans.map Span.reached).foldl max high) := by
  induction spans generalizing s low high with
  | nil => exact h
  | cons span spans ih =>
    have hstep : (s.addSpan span).reach = some (min low span.first, max high span.reached) := by
      show some (widen span s.reach) = _
      rw [h, widen]
    rw [List.foldl_cons, ih hstep]
    rfl

theorem reach_ofSpans_cons (span : Span) :
    (ofSpans d (span :: spans)).reach = some ((spans.map Span.first).foldl min span.first,
      (spans.map Span.reached).foldl max span.reached) :=
  reach_foldl_addSpan spans rfl

/-- The reach begins at the least value that a merged span starts from. -/
theorem lowReach?_ofSpans : (ofSpans d spans).lowReach? = (spans.map Span.first).min? := by
  cases spans with
  | nil => rfl
  | cons span spans =>
    rw [lowReach?, reach_ofSpans_cons, List.map_cons, List.min?_cons']
    rfl

/-- The reach ends at the greatest value that a merged span arrives at. -/
theorem highReach?_ofSpans : (ofSpans d spans).highReach? = (spans.map Span.reached).max? := by
  cases spans with
  | nil => rfl
  | cons span spans =>
    rw [highReach?, reach_ofSpans_cons, List.map_cons, List.max?_cons']
    rfl

theorem maximum_foldl_addSpan (s : ValueSet) : (spans.foldl addSpan s).maximum = s.maximum := by
  induction spans generalizing s with
  | nil => rfl
  | cons span spans ih => rw [List.foldl_cons, ih, maximum_addSpan]

@[simp] theorem maximum_ofSpans : (ofSpans d spans).maximum = d.maximum :=
  maximum_foldl_addSpan spans _

end

/-! ## Sets with the same members -/

section
variable {s t : ValueSet}

theorem testBit_mask_iff {i : Nat} : s.mask.testBit i = true ↔ s.minimum + i ∈ s := by
  have hi : (s.minimum + i - s.minimum).toNat = i := by omega
  rw [mem_def, bit, hi]
  exact (and_iff_right (by omega)).symm

/-- The mask is told by the members. -/
theorem mask_eq_of_mem_iff (hmin : s.minimum = t.minimum) (h : ∀ v, v ∈ s ↔ v ∈ t) :
    s.mask = t.mask := by
  refine Nat.eq_of_testBit_eq fun i => ?_
  rw [Bool.eq_iff_iff, testBit_mask_iff, testBit_mask_iff, h, hmin]

theorem reach_eq_of_ends (hlow : s.lowReach? = t.lowReach?) (hhigh : s.highReach? = t.highReach?) :
    s.reach = t.reach := by
  unfold lowReach? at hlow
  unfold highReach? at hhigh
  cases hs : s.reach with
  | none =>
    rw [hs] at hlow
    exact (Option.map_eq_none_iff.1 hlow.symm).symm
  | some r =>
    rw [hs] at hlow hhigh
    obtain ⟨r', ht, hfst⟩ := Option.map_eq_some_iff.1 hlow.symm
    rw [ht] at hhigh
    have hsnd : r.2 = r'.2 := Option.some.inj hhigh
    rw [ht, Prod.ext hfst.symm hsnd]

/-- A set is told by its domain, its members and the two ends of its reach. -/
theorem eq_of_mem_iff (hmin : s.minimum = t.minimum) (hmax : s.maximum = t.maximum)
    (h : ∀ v, v ∈ s ↔ v ∈ t) (hlow : s.lowReach? = t.lowReach?)
    (hhigh : s.highReach? = t.highReach?) : s = t := by
  have hmask := mask_eq_of_mem_iff hmin h
  have hreach := reach_eq_of_ends hlow hhigh
  cases s
  cases t
  simp_all

theorem sameValues_iff_mask : s.sameValues t = true ↔
    s.minimum = t.minimum ∧ s.maximum = t.maximum ∧ s.mask = t.mask := by
  simp only [sameValues, Bool.and_eq_true, beq_iff_eq, and_assoc]

/-- Two sets compare equal if they list the same values over the same domain. -/
theorem sameValues_iff (hs : s.Sound) (ht : t.Sound) : s.sameValues t = true ↔
    s.minimum = t.minimum ∧ s.maximum = t.maximum ∧ s.toList = t.toList := by
  rw [sameValues_iff_mask]
  refine and_congr_right fun hmin => and_congr_right fun _ => ?_
  constructor
  · intro hmask
    rw [toList_eq_map_bitIndices hs, toList_eq_map_bitIndices ht, hmin, hmask]
  · intro hlist
    refine mask_eq_of_mem_iff hmin fun v => ?_
    rw [← mem_toList hs, ← mem_toList ht, hlist]

/-- Equal sets have the same members. -/
theorem mem_iff_of_sameValues (h : s.sameValues t = true) (v : Int) : v ∈ s ↔ v ∈ t := by
  obtain ⟨hmin, -, hmask⟩ := sameValues_iff_mask.1 h
  rw [mem_def, mem_def, bit, bit, hmin, hmask]

/-- The next value is told by the members, whatever the reach. -/
theorem next?_congr (hs : s.Sound) (ht : t.Sound) (h : ∀ v, v ∈ s ↔ v ∈ t) (start : Int) :
    s.next? start = t.next? start := by
  have hfirst := (first_next? hs start).congr fun v => and_congr_left' (h v)
  refine Option.ext fun v => ?_
  rw [hfirst.eq_some_iff fun _ _ _ _ heq => heq,
    (first_next? ht start).eq_some_iff fun _ _ _ _ heq => heq]

theorem first?_congr (hs : s.Sound) (ht : t.Sound) (h : ∀ v, v ∈ s ↔ v ∈ t) :
    s.first? = t.first? := by
  have hfirst := (first_first? hs).congr h
  refine Option.ext fun v => ?_
  rw [hfirst.eq_some_iff fun _ _ _ _ heq => heq,
    (first_first? ht).eq_some_iff fun _ _ _ _ heq => heq]

end

/-! ## The order and the number of the spans -/

variable {d : Domain} {spans spans' : List Span}

/-- Two lists of the same spans give the same set. -/
theorem ofSpans_congr (hfirst : ∀ span ∈ spans, d.minimum ≤ span.first)
    (h : ∀ span, span ∈ spans' ↔ span ∈ spans) : ofSpans d spans' = ofSpans d spans := by
  have hfirst' : ∀ span ∈ spans', d.minimum ≤ span.first := fun span hspan =>
    hfirst span ((h span).1 hspan)
  refine eq_of_mem_iff (by simp) (by simp) (fun v => ?_) ?_ ?_
  · rw [mem_ofSpans hfirst, mem_ofSpans hfirst']
    simp only [h]
  · rw [lowReach?_ofSpans, lowReach?_ofSpans]
    refine min?_congr fun x => ?_
    simp only [List.mem_map, h]
  · rw [highReach?_ofSpans, highReach?_ofSpans]
    refine max?_congr fun x => ?_
    simp only [List.mem_map, h]

/-! ## Tight reaches -/

theorem Sound.lowReach_le {s : ValueSet} (hs : s.Sound) {low v : Int}
    (h : s.lowReach? = some low) (hv : v ∈ s) : low ≤ v := by
  obtain ⟨r, hr, rfl⟩ := Option.map_eq_some_iff.1 h
  exact ((hs.bounds hr).2 v hv).1

theorem Sound.le_highReach {s : ValueSet} (hs : s.Sound) {high v : Int}
    (h : s.highReach? = some high) (hv : v ∈ s) : v ≤ high := by
  obtain ⟨r, hr, rfl⟩ := Option.map_eq_some_iff.1 h
  exact ((hs.bounds hr).2 v hv).2

/-- The reach begins and ends with a member. -/
structure Tight (s : ValueSet) : Prop where
  low : ∃ v ∈ s, s.lowReach? = some v
  high : ∃ v ∈ s, s.highReach? = some v

/-- The reach of a set is tight if some span was merged, and none of them was empty. -/
theorem tight_ofSpans (hfirst : ∀ span ∈ spans, d.minimum ≤ span.first) (hne : spans ≠ [])
    (hvalue : ∀ span ∈ spans, ∃ v, v ∈ span) : (ofSpans d spans).Tight := by
  have hstarts : spans.map Span.first ≠ [] := by simpa using hne
  have harrivals : spans.map Span.reached ≠ [] := by simpa using hne
  constructor
  · obtain ⟨low, hlow⟩ := Option.isSome_iff_exists.1 (List.isSome_min?_of_ne_nil hstarts)
    obtain ⟨span, hspan, rfl⟩ := List.mem_map.1 (List.min?_mem hlow)
    obtain ⟨v, hv⟩ := hvalue span hspan
    exact ⟨span.first, (mem_ofSpans hfirst).2 ⟨span, hspan, Span.first_mem hv⟩,
      (lowReach?_ofSpans d spans).trans hlow⟩
  · obtain ⟨high, hhigh⟩ := Option.isSome_iff_exists.1 (List.isSome_max?_of_ne_nil harrivals)
    obtain ⟨span, hspan, rfl⟩ := List.mem_map.1 (List.max?_mem hhigh)
    obtain ⟨v, hv⟩ := hvalue span hspan
    exact ⟨span.reached, (mem_ofSpans hfirst).2 ⟨span, hspan, Span.reached_mem hv⟩,
      (highReach?_ofSpans d spans).trans hhigh⟩

end ValueSet

namespace Field

variable {d : Domain} {token : Option String} {f : Field}

theorem maximum_allowed (h : read d token = .ok f) : f.allowed.maximum = d.maximum := by
  obtain ⟨parts, -, rfl⟩ := read_eq_ok_iff.1 h
  exact ValueSet.maximum_ofSpans d _

/-- Over a domain that its names fit, the reach of a field that was read is tight. -/
theorem tight_allowed (hd : d.Fits) (h : read d token = .ok f) : f.allowed.Tight := by
  obtain ⟨parts, hparts, rfl⟩ := read_eq_ok_iff.1 h
  have hmax := Token.ends_of_read (Q := (· ≤ d.maximum))
    (fun _ _ ha => Token.le_maximum_of_readValue hd ha) hparts
  refine ValueSet.tight_ofSpans (minimum_le_first hparts)
    (by simpa using Token.ne_nil_of_read hparts) ?_
  rw [List.forall_mem_map]
  intro part hpart
  obtain ⟨v, hv⟩ := Part.allows_some hd.1 (hmax part hpart)
  exact ⟨v, Part.mem_span_iff.2 hv⟩

end Field

end CronFire
