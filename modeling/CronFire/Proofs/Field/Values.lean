import CronFire.Field.Basic
import CronFire.Proofs.Field.Grammar
import CronFire.Proofs.Field.Queries
/-!
# The values that a token allows

A field that was read holds exactly the values of its parts.  Its set is sound over every
domain, also one whose minimum lies above its maximum or whose names reach past it; over a
domain that its names fit (`Domain.Fits`) it lies in the domain and is not empty.

Results:
* `Part.mem_span_iff`: the span of a part holds the values that the part allows.
* `Field.mem_allowed_iff`, `Field.sound_allowed`: the values of a field that was read.
* `Field.proper_allowed`: its set is `Proper` when the names fit the domain.
-/
namespace CronFire

/-- The domain has a value, and every name stands for one of its values. -/
def Domain.Fits (d : Domain) : Prop :=
  d.minimum ≤ d.maximum ∧ d.minimum + d.names.length ≤ d.maximum + 1

/-- A set of values of the domain, not empty, whose reach bounds its members. -/
structure ValueSet.Proper (d : Domain) (s : ValueSet) : Prop where
  minimum_eq : s.minimum = d.minimum
  sound : s.Sound
  inside : ∀ v ∈ s, d.minimum ≤ v ∧ v ≤ d.maximum
  inhabited : ∃ v, v ∈ s

/-! ## The ends of a part -/

/-- The values that the part is written with have a property. -/
def Part.Ends (Q : Int → Prop) : Part → Prop
  | .every _ => True
  | .only a => Q a
  | .onward a => Q a
  | .range a b _ => Q a ∧ Q b

namespace Token

/-- A value is a number of the domain or counted from its minimum by a name. -/
theorem readValue_cases {d : Domain} {text : List Char} {a : Int}
    (h : readValue d text = .ok a) :
    (d.minimum ≤ a ∧ a ≤ d.maximum) ∨ ∃ i < d.names.length, a = d.minimum + i := by
  unfold readValue at h
  split at h
  · cases h
  · split at h
    · split at h
      · cases h
      · cases h
      · split at h
        · cases h
        · rename_i hin
          simp only [Bool.or_eq_true, decide_eq_true_eq] at hin
          cases h
          exact .inl (by omega)
    · split at h
      · cases h
      · split at h
        · rename_i i hi
          cases h
          exact .inr ⟨i, (List.findIdx?_eq_some_iff_getElem.1 hi).1, rfl⟩
        · cases h

theorem minimum_le_of_readValue {d : Domain} {text : List Char} {a : Int}
    (h : readValue d text = .ok a) : d.minimum ≤ a := by
  rcases readValue_cases h with h | ⟨i, _, rfl⟩ <;> omega

theorem le_maximum_of_readValue {d : Domain} (hd : d.Fits) {text : List Char} {a : Int}
    (h : readValue d text = .ok a) : a ≤ d.maximum := by
  have := hd.2
  rcases readValue_cases h with h | ⟨i, _, rfl⟩ <;> omega

section
variable {d : Domain} {Q : Int → Prop} (hQ : ∀ text a, readValue d text = .ok a → Q a)

include hQ in
theorem ends_of_readStepped {text : List Char} {step : Nat} {part : Part}
    (h : readStepped d text step = .ok part) : part.Ends Q := by
  unfold readStepped at h
  split at h
  · cases h
    trivial
  · split at h
    · obtain ⟨a, ha, h⟩ := bind_eq_ok_iff.1 h
      obtain ⟨b, hb, h⟩ := bind_eq_ok_iff.1 h
      cases h
      exact ⟨hQ _ a ha, hQ _ b hb⟩
    · obtain ⟨a, ha, h⟩ := bind_eq_ok_iff.1 h
      split at h
      · cases h
        exact hQ _ a ha
      · cases h
        exact hQ _ a ha
      · cases h

include hQ in
theorem ends_of_readPart {text : List Char} {part : Part} (h : readPart d text = .ok part) :
    part.Ends Q := by
  unfold readPart at h
  split at h
  · cases h
  · split at h
    · exact ends_of_readStepped hQ h
    · cases h
    · obtain ⟨step, _, h⟩ := bind_eq_ok_iff.1 h
      exact ends_of_readStepped hQ h

include hQ in
theorem ends_of_readParts {texts : List (List Char)} {parts : List Part}
    (h : readParts d texts = .ok parts) : ∀ part ∈ parts, part.Ends Q := by
  induction texts generalizing parts with
  | nil => cases h; simp
  | cons text texts ih =>
    obtain ⟨part, hpart, h⟩ := bind_eq_ok_iff.1 h
    obtain ⟨rest, hrest, h⟩ := bind_eq_ok_iff.1 h
    cases h
    exact List.forall_mem_cons.2 ⟨ends_of_readPart hQ hpart, ih hrest⟩

include hQ in
theorem ends_of_read {token : Option String} {parts : List Part} (h : read d token = .ok parts) :
    ∀ part ∈ parts, part.Ends Q := by
  cases token with
  | none => cases h
  | some token => exact ends_of_readParts hQ h

end

theorem ne_nil_of_read {d : Domain} {token : Option String} {parts : List Part}
    (h : read d token = .ok parts) : parts ≠ [] := by
  cases token with
  | none => cases h
  | some token =>
    rw [read, pieces_eq_splitOn] at h
    cases hs : token.toList.splitOn ',' with
    | nil => exact absurd hs (List.splitOn_ne_nil _ _)
    | cons text texts =>
      rw [hs] at h
      obtain ⟨part, _, h⟩ := bind_eq_ok_iff.1 h
      obtain ⟨rest, _, h⟩ := bind_eq_ok_iff.1 h
      cases h
      exact List.cons_ne_nil part rest

end Token

/-! ## The values of a part -/

namespace Part

theorem mem_span_iff {d : Domain} {part : Part} {v : Int} :
    v ∈ part.span d ↔ part.Allows d v := by
  cases part with
  | every n =>
    rw [Span.mem_iff_le_last (by simp only [span]; omega)]
    simp [span, Allows, Int.mul_comm]
  | only a =>
    rw [Span.mem_iff_le_last (by simp [span])]
    simp only [span, Allows]
    constructor
    · intro hx
      obtain ⟨k, rfl, h⟩ := hx
      omega
    · intro hx
      subst hx
      exact ⟨0, by simp, Int.le_refl v⟩
  | onward a =>
    rw [Span.mem_iff_le_last (by simp [span])]
    simp only [span, Allows]
    constructor
    · intro hx
      obtain ⟨k, rfl, h⟩ := hx
      omega
    · intro hx
      obtain ⟨h1, h2⟩ := hx
      exact ⟨(v - a).toNat, by omega, h2⟩
  | range a b n =>
    rw [Span.mem_iff_le_last (by simp only [span]; omega)]
    simp [span, Allows, Int.mul_comm]

theorem minimum_le_first_span {d : Domain} {part : Part} (h : part.Ends (d.minimum ≤ ·)) :
    d.minimum ≤ (part.span d).first := by
  cases part with
  | every n => exact Int.le_refl d.minimum
  | only a => exact h
  | onward a => exact h
  | range a b n => have h1 := h.1; have h2 := h.2; simp only [span]; omega

theorem inside_of_allows {d : Domain} {part : Part}
    (h : part.Ends fun a => d.minimum ≤ a ∧ a ≤ d.maximum) {v : Int} (hv : part.Allows d v) :
    d.minimum ≤ v ∧ v ≤ d.maximum := by
  cases part with
  | every n =>
    obtain ⟨k, rfl, hk⟩ := hv
    have := Int.mul_nonneg (Int.natCast_nonneg k) (Int.natCast_nonneg (max n 1))
    omega
  | only a => cases hv; exact h
  | onward a => exact ⟨by have := h.1; have := hv.1; omega, hv.2⟩
  | range a b n =>
    obtain ⟨k, rfl, hk⟩ := hv
    have := Int.mul_nonneg (Int.natCast_nonneg k) (Int.natCast_nonneg (max n 1))
    obtain ⟨ha, hb⟩ := h
    omega

theorem allows_some {d : Domain} (hd : d.minimum ≤ d.maximum) {part : Part}
    (h : part.Ends (· ≤ d.maximum)) : ∃ v, part.Allows d v := by
  cases part with
  | every n => exact ⟨d.minimum, 0, by simp, hd⟩
  | only a => exact ⟨a, rfl⟩
  | onward a => exact ⟨a, Int.le_refl a, h⟩
  | range a b n => exact ⟨min a b, 0, by simp, by omega⟩

end Part

/-! ## The values of a field -/

namespace Field

variable {d : Domain} {token : Option String} {f : Field}

theorem read_eq_ok_iff : read d token = .ok f ↔ ∃ parts, Token.read d token = .ok parts ∧
    f = ⟨token, .ofSpans d (parts.map (Part.span d))⟩ := by
  unfold read
  split
  · rename_i h; simp [h]
  · rename_i h; simp [h, eq_comm]

theorem minimum_le_first {parts : List Part} (h : Token.read d token = .ok parts) :
    ∀ span ∈ parts.map (Part.span d), d.minimum ≤ span.first := by
  rw [List.forall_mem_map]
  exact fun part hpart => Part.minimum_le_first_span
    (Token.ends_of_read (fun _ _ => Token.minimum_le_of_readValue) h part hpart)

theorem sound_allowed (h : read d token = .ok f) : f.allowed.Sound := by
  obtain ⟨parts, hparts, rfl⟩ := read_eq_ok_iff.1 h
  exact ValueSet.sound_ofSpans (minimum_le_first hparts)

/-- The values of a field are those that its parts allow. -/
theorem mem_allowed_iff {parts : List Part} (h : Token.read d token = .ok parts)
    (hf : read d token = .ok f) {v : Int} :
    v ∈ f.allowed ↔ ∃ part ∈ parts, part.Allows d v := by
  obtain ⟨_, hparts, rfl⟩ := read_eq_ok_iff.1 hf
  rw [hparts] at h
  cases h
  rw [ValueSet.mem_ofSpans (minimum_le_first hparts)]
  simp only [List.mem_map, exists_exists_and_eq_and, Part.mem_span_iff]

theorem proper_allowed (hd : d.Fits) (hf : read d token = .ok f) : f.allowed.Proper d := by
  obtain ⟨parts, hparts, hfield⟩ := read_eq_ok_iff.1 hf
  have hends := Token.ends_of_read (Q := fun a => d.minimum ≤ a ∧ a ≤ d.maximum)
    (fun _ _ ha => ⟨Token.minimum_le_of_readValue ha, Token.le_maximum_of_readValue hd ha⟩) hparts
  have hmax := Token.ends_of_read (Q := (· ≤ d.maximum))
    (fun _ _ ha => Token.le_maximum_of_readValue hd ha) hparts
  refine ⟨by rw [hfield, ValueSet.minimum_ofSpans], sound_allowed hf, fun v hv => ?_, ?_⟩
  · obtain ⟨part, hpart, hv⟩ := (mem_allowed_iff hparts hf).1 hv
    exact Part.inside_of_allows (hends part hpart) hv
  · obtain ⟨part, hpart⟩ := List.exists_mem_of_ne_nil parts (Token.ne_nil_of_read hparts)
    obtain ⟨v, hv⟩ := Part.allows_some hd.1 (hmax part hpart)
    exact ⟨v, (mem_allowed_iff hparts hf).2 ⟨part, hpart, hv⟩⟩

end Field

end CronFire
