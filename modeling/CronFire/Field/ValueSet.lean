import CronFire.Field.Domain
/-!
# Sets of field values

A value set keeps its members in one number: bit `v - minimum` is set when `v` is a member.
Beside it stands the reach, the least value and the greatest that any merged span started from
or arrived at.  The reach only widens, and an empty span widens it too, so it bounds the
members without always touching them.

* `mem_insert`, `mem_addSpan`: what merging does to the members.
* `le_of_next?`: the value found is not below the one asked for.
-/
namespace CronFire

def lowestBit? (n : Nat) : Option Nat :=
  if n = 0 then none
  else if n % 2 = 1 then some 0
  else (lowestBit? (n / 2)).map (· + 1)

def bitCount (n : Nat) : Nat := if n = 0 then 0 else n % 2 + bitCount (n / 2)

/-- The values allowed for a field, over the domain from `minimum` to `maximum`. -/
structure ValueSet where
  minimum : Int
  maximum : Int
  mask : Nat
  /-- The least start and the greatest arrival of the spans merged so far. -/
  reach : Option (Int × Int)
  deriving DecidableEq, Repr

namespace ValueSet

/-- No members, and nothing merged yet. -/
def empty (minimum maximum : Int) : ValueSet := ⟨minimum, maximum, 0, none⟩

/-- The bit of `v`; of a value below the domain it has none to look at. -/
def bit (s : ValueSet) (v : Int) : Bool := s.mask.testBit (v - s.minimum).toNat

/-- A member is a value from `minimum` on whose bit is set. -/
instance : Membership Int ValueSet := ⟨fun s v => s.minimum ≤ v ∧ s.bit v = true⟩

theorem mem_def {s : ValueSet} {v : Int} : v ∈ s ↔ s.minimum ≤ v ∧ s.bit v = true := Iff.rfl

instance (s : ValueSet) (v : Int) : Decidable (v ∈ s) :=
  decidable_of_iff (s.minimum ≤ v ∧ s.bit v = true) Iff.rfl

def insert (s : ValueSet) (v : Int) : ValueSet :=
  { s with mask := s.mask ||| 1 <<< (v - s.minimum).toNat }

def widen (s : Span) : Option (Int × Int) → Int × Int
  | none => (s.first, s.reached)
  | some (low, high) => (min low s.first, max high s.reached)

def addSpan (s : ValueSet) (span : Span) : ValueSet :=
  { span.toList.foldl insert s with reach := some (widen span s.reach) }

/-- The set of the values of the spans, merged from left to right. -/
def ofSpans (d : Domain) (spans : List Span) : ValueSet :=
  spans.foldl addSpan (empty d.minimum d.maximum)

/-- The least value a merged span started from. -/
def lowReach? (s : ValueSet) : Option Int := s.reach.map (·.1)

/-- The greatest value a merged span arrived at. -/
def highReach? (s : ValueSet) : Option Int := s.reach.map (·.2)

/-- The least member from `start` on.  `start` may lie outside the domain. -/
def next? (s : ValueSet) (start : Int) : Option Int :=
  match s.reach with
  | none => none
  | some (low, high) =>
    if high < max start low then none
    else
      (lowestBit? (s.mask >>> (max start low - s.minimum).toNat)).map fun (i : Nat) =>
        max start low + (i : Int)

def first? (s : ValueSet) : Option Int := s.lowReach?.bind s.next?

/-- Whether `v` has its bit set; a value below the domain has no bit, and no answer. -/
def contains? (s : ValueSet) (v : Int) : Option Bool :=
  if v < s.minimum then none else some (s.bit v)

/-- Whether `v` lies in the domain and has its bit set. -/
def has (s : ValueSet) (v : Int) : Bool :=
  decide (s.minimum ≤ v) && decide (v ≤ s.maximum) && s.bit v

def size (s : ValueSet) : Nat := bitCount s.mask

theorem le_of_next? {s : ValueSet} {start v : Int} (h : s.next? start = some v) :
    start ≤ v ∧ ∃ r, s.reach = some r ∧ start ≤ r.2 := by
  unfold next? at h
  split at h
  · cases h
  · rename_i low high hr
    split at h
    · cases h
    · rename_i hlt
      obtain ⟨i, _, rfl⟩ := Option.map_eq_some_iff.1 h
      exact ⟨by omega, (low, high), hr, by simp only; omega⟩

def listFrom (s : ValueSet) (start : Int) : List Int :=
  match _ : s.next? start with
  | none => []
  | some v => v :: s.listFrom (v + 1)
termination_by ((s.highReach?.getD 0) + 1 - start).toNat
decreasing_by
  rename_i h
  obtain ⟨hv, r, hr, hle⟩ := le_of_next? h
  simp only [highReach?, hr, Option.map_some, Option.getD_some]
  omega

def toList (s : ValueSet) : List Int :=
  match s.lowReach? with
  | none => []
  | some low => s.listFrom low

/-- The sets have the same domain and the same members. -/
def sameValues (s t : ValueSet) : Bool :=
  s.minimum == t.minimum && s.maximum == t.maximum && s.mask == t.mask

/-- The number of sets among these, where two count once if they have the same values. -/
def countDistinct : List ValueSet → Nat
  | [] => 0
  | s :: ss => (if ss.any s.sameValues then 0 else 1) + countDistinct ss

@[simp] theorem minimum_insert (s : ValueSet) (v : Int) : (s.insert v).minimum = s.minimum := rfl

@[simp] theorem maximum_insert (s : ValueSet) (v : Int) : (s.insert v).maximum = s.maximum := rfl

theorem minimum_foldl_insert (vs : List Int) (s : ValueSet) :
    (vs.foldl insert s).minimum = s.minimum := by
  induction vs generalizing s with
  | nil => rfl
  | cons v vs ih => rw [List.foldl_cons, ih, minimum_insert]

theorem maximum_foldl_insert (vs : List Int) (s : ValueSet) :
    (vs.foldl insert s).maximum = s.maximum := by
  induction vs generalizing s with
  | nil => rfl
  | cons v vs ih => rw [List.foldl_cons, ih, maximum_insert]

@[simp] theorem minimum_addSpan (s : ValueSet) (span : Span) :
    (s.addSpan span).minimum = s.minimum := minimum_foldl_insert _ _

@[simp] theorem maximum_addSpan (s : ValueSet) (span : Span) :
    (s.addSpan span).maximum = s.maximum := maximum_foldl_insert _ _

/-- Inserting a value of the domain adds that member and no other. -/
theorem mem_insert {s : ValueSet} {v w : Int} (h : s.minimum ≤ v) :
    w ∈ s.insert v ↔ w = v ∨ w ∈ s := by
  simp only [mem_def, bit, insert, Nat.testBit_or, Nat.one_shiftLeft, Nat.testBit_two_pow,
    Bool.or_eq_true, decide_eq_true_eq]
  constructor
  · rintro ⟨hw, hb | hb⟩
    · exact .inr ⟨hw, hb⟩
    · exact .inl (by omega)
  · rintro (rfl | ⟨hw, hb⟩)
    · exact ⟨h, .inr rfl⟩
    · exact ⟨hw, .inl hb⟩

theorem mem_foldl_insert {vs : List Int} {s : ValueSet} {w : Int}
    (h : ∀ v ∈ vs, s.minimum ≤ v) : w ∈ vs.foldl insert s ↔ w ∈ vs ∨ w ∈ s := by
  induction vs generalizing s with
  | nil => simp
  | cons v vs ih =>
    have hs : ∀ u ∈ vs, (s.insert v).minimum ≤ u := fun u hu => h u (List.mem_cons_of_mem _ hu)
    rw [List.foldl_cons, ih hs, mem_insert
      (h v List.mem_cons_self), List.mem_cons]
    constructor
    · rintro (hw | hw | hw) <;> simp [hw]
    · rintro ((hw | hw) | hw) <;> simp [hw]

/-- Merging a span that starts inside the domain adds exactly its values. -/
theorem mem_addSpan {s : ValueSet} {span : Span} {w : Int} (h : s.minimum ≤ span.first) :
    w ∈ s.addSpan span ↔ w ∈ span ∨ w ∈ s := by
  have : ∀ v ∈ span.toList, s.minimum ≤ v := by
    intro v hv
    obtain ⟨k, _, rfl⟩ := Span.mem_iff.1 hv
    simp only [Span.nth]
    omega
  exact mem_foldl_insert this

end ValueSet

end CronFire
