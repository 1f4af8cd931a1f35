/-!
# Domains and spans

A domain is the range of values one field may take, with names for its first values.  A span
is what one part of a field's token stands for: from a first value on, every `stride`-th value
that does not pass a last one.  A span whose last value lies below its first is empty.
-/
namespace CronFire

/-- The values of a field, ends included, and names for the values from `minimum` on. -/
structure Domain where
  minimum : Int
  maximum : Int
  names : List String := []
  deriving DecidableEq, Repr

/-- The values `first`, `first + stride`, … that are at most `last`. -/
structure Span where
  first : Int
  last : Int
  stride : Nat := 1
  deriving DecidableEq, Repr

namespace Span

/-- How many values the span holds. -/
def size (s : Span) : Nat :=
  if s.last < s.first then 0 else ((s.last - s.first) / s.stride).toNat + 1

/-- The `k`-th value counted from the first. -/
def nth (s : Span) (k : Nat) : Int := s.first + (s.stride * k : Nat)

def toList (s : Span) : List Int := (List.range s.size).map s.nth

/-- The greatest value of the span; its first value when it is empty. -/
def reached (s : Span) : Int := s.nth (s.size - 1)

/-- Some value of the span is `v`. -/
instance : Membership Int Span := ⟨fun s v => v ∈ s.toList⟩

theorem mem_iff {s : Span} {v : Int} : v ∈ s ↔ ∃ k < s.size, v = s.nth k := by
  show v ∈ s.toList ↔ _
  simp only [toList, List.mem_map, List.mem_range]
  constructor
  · rintro ⟨k, hk, rfl⟩; exact ⟨k, hk, rfl⟩
  · rintro ⟨k, hk, rfl⟩; exact ⟨k, hk, rfl⟩

end Span

end CronFire
