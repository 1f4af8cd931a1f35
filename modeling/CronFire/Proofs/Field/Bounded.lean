import CronFire.Proofs.Field.Reach
import CronFire.Proofs.Schedule.Accepted
/-!
# The bounds of a field

A field keeps two bounds beside its values: the least value that a part starts from and the
greatest one that a part arrives at, which need not be the end that the part is written with.  The
search for a fire time relies on them and on there being a value, without looking.  Over a domain
that its names fit, every part has a value and stays in the domain, so the field has one and the
bounds are its least and its greatest.

A value may be looked up wherever it lies.  Outside the domain the answer is known without a look
at the mask, which has no bit for a value below the minimum.

Results:
* `lookUp?_eq`: every look-up has an answer.
* `Proper.bounded`: what a set in its domain with a tight reach comes to.
* `Field.reach_bounds_values`: the fields that are read, and those of a schedule.
-/
namespace CronFire

namespace ValueSet

variable {d : Domain} {s : ValueSet}

/-- Membership as it is asked for.  The domain comes first; only inside it the bit is asked for,
and a bit below the domain has no answer. -/
def lookUp? (s : ValueSet) (v : Int) : Option Bool :=
  if v < s.minimum ∨ s.maximum < v then some false else s.contains? v

/-- The bit is asked for only where it has an answer. -/
theorem lookUp?_eq (s : ValueSet) (v : Int) : s.lookUp? v = some (s.has v) := by
  unfold lookUp? has
  by_cases hout : v < s.minimum ∨ s.maximum < v
  · have hoff : (decide (s.minimum ≤ v) && decide (v ≤ s.maximum)) = false := by
      rw [← Bool.decide_and, decide_eq_false_iff_not]
      omega
    rw [if_pos hout, hoff, Bool.false_and]
  · have hon : (decide (s.minimum ≤ v) && decide (v ≤ s.maximum)) = true := by
      rw [← Bool.decide_and, decide_eq_true_iff]
      omega
    rw [if_neg hout, hon, Bool.true_and, contains?, if_neg (by omega)]

/-- A value is in the set exactly if it is a member in the domain. -/
theorem has_iff {v : Int} : s.has v = true ↔ v ∈ s ∧ v ≤ s.maximum := by
  simp only [has, Bool.and_eq_true, decide_eq_true_iff, mem_def]
  tauto

/-- A set of values of a domain that are all listed, with its reach for their least and their
greatest.  Any value can be looked up, and only those listed are found. -/
structure Bounded (d : Domain) (s : ValueSet) : Prop where
  domain : s.minimum = d.minimum ∧ s.maximum = d.maximum
  listed : ∀ v, v ∈ s.toList ↔ v ∈ s
  inhabited : s.toList ≠ []
  inside : ∀ v ∈ s.toList, d.minimum ≤ v ∧ v ≤ d.maximum
  least : ∃ low ∈ s.toList, s.lowReach? = some low ∧ ∀ v ∈ s.toList, low ≤ v
  greatest : ∃ high ∈ s.toList, s.highReach? = some high ∧ ∀ v ∈ s.toList, v ≤ high
  lookUp : ∀ v, s.lookUp? v = some (s.has v) ∧ (s.has v = true ↔ v ∈ s.toList)

/-- A set of values of its domain whose reach is tight is bounded by its reach. -/
theorem Proper.bounded (hs : s.Proper d) (ht : s.Tight) (hmax : s.maximum = d.maximum) :
    s.Bounded d := by
  have hlisted : ∀ v, v ∈ s.toList ↔ v ∈ s := fun v => mem_toList hs.sound
  obtain ⟨low, hlow, hlowReach⟩ := ht.low
  obtain ⟨high, hhigh, hhighReach⟩ := ht.high
  refine
    { domain := ⟨hs.minimum_eq, hmax⟩
      listed := hlisted
      inhabited := List.ne_nil_of_mem ((hlisted low).2 hlow)
      inside := fun v hv => hs.inside v ((hlisted v).1 hv)
      least := ⟨low, (hlisted low).2 hlow, hlowReach, fun v hv =>
        hs.sound.lowReach_le hlowReach ((hlisted v).1 hv)⟩
      greatest := ⟨high, (hlisted high).2 hhigh, hhighReach, fun v hv =>
        hs.sound.le_highReach hhighReach ((hlisted v).1 hv)⟩
      lookUp := fun v => ⟨s.lookUp?_eq v, ?_⟩ }
  rw [has_iff, hlisted]
  exact and_iff_left_of_imp fun hv => hmax ▸ (hs.inside v hv).2

end ValueSet

namespace Field

theorem bounded_allowed {d : Domain} {token : Option String} {f : Field} (hd : d.Fits)
    (h : read d token = .ok f) : f.allowed.Bounded d :=
  (proper_allowed hd h).bounded (tight_allowed hd h) (maximum_allowed h)

/-- **The bounds of a field are its least and its greatest value.** Over a domain that its names
fit, every token that is read gives at least one value and only values of the domain, the reach
begins and ends with the least and the greatest of them, and looking up any value answers whether
it is listed.  The domains of the six kinds are such, so it holds of every field of a schedule. -/
theorem reach_bounds_values :
    (∀ (d : Domain) (token : Option String) (f : Field), d.Fits → read d token = .ok f →
      f.allowed.Bounded d) ∧
    ∀ (expression : String) (s : Schedule), Schedule.read expression = .ok s →
      ∀ kind : FieldKind, (s.allowed kind).Bounded kind.domain := by
  refine ⟨fun d token f hd h => bounded_allowed hd h, fun expression s h kind => ?_⟩
  obtain ⟨token, hf⟩ := Schedule.field_of_read h kind
  exact bounded_allowed kind.fits_domain hf

/-- The range is written up to 8, the fourth name, but by steps of two it arrives at 7, so 8 is
found as little as -1 is.  The domain of a minute begins with 0. -/
theorem reach_bounds_values_compass : ∃ f s,
    (⟨5, 9, ["north", "east", "south", "west"]⟩ : Domain).Fits ∧
      read ⟨5, 9, ["north", "east", "south", "west"]⟩ (some "west-NORTH/2,6") = .ok f ∧
      f.allowed.Bounded ⟨5, 9, ["north", "east", "south", "west"]⟩ ∧
      f.allowed.highReach? = some 7 ∧ f.allowed.lookUp? (-1) = some false ∧
      8 ∉ f.allowed.toList ∧ Schedule.read "50-20/7 * * * *" = .ok s ∧
      (s.allowed .minute).Bounded ⟨0, 59, []⟩ ∧ (s.allowed .minute).highReach? = some 48 := by
  obtain ⟨hfields, hschedules⟩ := reach_bounds_values
  have hfits : (⟨5, 9, ["north", "east", "south", "west"]⟩ : Domain).Fits := by
    unfold Domain.Fits
    decide
  have hread : read ⟨5, 9, ["north", "east", "south", "west"]⟩ (some "west-NORTH/2,6") =
      .ok ⟨some "west-NORTH/2,6", ⟨5, 9, 7, some (5, 7)⟩⟩ := by decide +kernel
  obtain ⟨s, hs, hhigh⟩ : ∃ s, Schedule.read "50-20/7 * * * *" = .ok s ∧
      (s.allowed .minute).highReach? = some 48 := Schedule.exists_read (by decide +kernel)
  have hfield := hfields _ _ _ hfits hread
  refine ⟨_, s, hfits, hread, hfield, rfl, rfl, fun hmem => ?_, hs, hschedules _ s hs .minute, hhigh⟩
  exact absurd ((hfield.lookUp 8).2.2 hmem) (by decide)

end Field

end CronFire
