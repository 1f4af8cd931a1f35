import CronFire.Field.ValueSet
/-!
# What the queries of a value set answer

The mask says which values are members, the reach only where to look for them.  As long as the
reach bounds the members (`Sound`), it never changes an answer, and merging a span that starts
in the domain keeps it so, also when the span is empty and the reach bounds nothing.

Results:
* `sound_ofSpans`, `mem_ofSpans`: the members of a merged set are the values of its spans.
* `first_next?`, `first_first?`: the answers are the least members.
* `mem_toList`, `pairwise_toList`: the list holds each member once, ascending.
-/
namespace CronFire

/-- An element of least rank among those with `P`; it is missing when there are none. -/
def FirstBy {α : Type} (rank : α → Int) (P : α → Prop) : Option α → Prop
  | none => ∀ a, ¬ P a
  | some a => P a ∧ ∀ b, P b → rank a ≤ rank b

theorem FirstBy.congr {α : Type} {rank : α → Int} {P Q : α → Prop} {r : Option α}
    (h : FirstBy rank P r) (hPQ : ∀ a, P a ↔ Q a) : FirstBy rank Q r := by
  cases r with
  | none => exact fun a hq => h a ((hPQ a).2 hq)
  | some a => exact ⟨(hPQ a).1 h.1, fun b hq => h.2 b ((hPQ b).2 hq)⟩

theorem FirstBy.eq_none_iff {α : Type} {rank : α → Int} {P : α → Prop} {r : Option α}
    (h : FirstBy rank P r) : r = none ↔ ∀ a, ¬ P a := by
  cases r with
  | none => exact ⟨fun _ => h, fun _ => rfl⟩
  | some a => exact ⟨fun hr => absurd hr (Option.some_ne_none a), fun hno => absurd h.1 (hno a)⟩

/-- Where the rank tells elements apart, there is one least. -/
theorem FirstBy.eq_some_iff {α : Type} {rank : α → Int} {P : α → Prop} {r : Option α}
    (h : FirstBy rank P r) (hinj : ∀ a b, P a → P b → rank a = rank b → a = b) {a : α} :
    r = some a ↔ P a ∧ ∀ b, P b → rank a ≤ rank b := by
  constructor
  · intro hx
    subst hx
    exact h
  · intro hx
    obtain ⟨ha, hleast⟩ := hx
    cases r with
    | none => exact absurd ha (h a)
    | some b =>
      exact congrArg some (hinj b a h.1 ha (Int.le_antisymm (h.2 a ha) (hleast b h.1)))

/-! ## The lowest bit -/

theorem testBit_of_lowestBit?_eq_none {n : Nat} (h : lowestBit? n = none) (i : Nat) :
    n.testBit i = false := by
  fun_induction lowestBit? n generalizing i with
  | case1 => exact Nat.zero_testBit i
  | case2 => cases h
  | case3 n _ hodd ih =>
    have hhalf := Option.map_eq_none_iff.1 h
    cases i with
    | zero => simp [Nat.testBit_zero, hodd]
    | succ i => rw [Nat.testBit_succ]; exact ih hhalf i

theorem testBit_of_lowestBit?_eq_some {n i : Nat} (h : lowestBit? n = some i) :
    n.testBit i = true ∧ ∀ j < i, n.testBit j = false := by
  fun_induction lowestBit? n generalizing i with
  | case1 => cases h
  | case2 n _ hodd =>
    cases h
    exact ⟨by simp [Nat.testBit_zero, hodd], fun j hj => absurd hj (Nat.not_lt_zero j)⟩
  | case3 n _ hodd ih =>
    obtain ⟨k, hk, rfl⟩ := Option.map_eq_some_iff.1 h
    obtain ⟨hbit, hlow⟩ := ih hk
    refine ⟨by rw [Nat.testBit_succ]; exact hbit, fun j hj => ?_⟩
    cases j with
    | zero => simp [Nat.testBit_zero, hodd]
    | succ j => rw [Nat.testBit_succ]; exact hlow j (by omega)

namespace Span

theorem first_le_of_mem {s : Span} {v : Int} (h : v ∈ s) : s.first ≤ v := by
  obtain ⟨k, -, rfl⟩ := mem_iff.1 h
  simp only [nth]; omega

theorem le_reached_of_mem {s : Span} {v : Int} (h : v ∈ s) : v ≤ s.reached := by
  obtain ⟨k, hk, rfl⟩ := mem_iff.1 h
  have : s.stride * k ≤ s.stride * (s.size - 1) := Nat.mul_le_mul_left _ (by omega)
  simp only [reached, nth]; omega

/-- The values of a span, without the count of them. -/
theorem mem_iff_le_last {s : Span} {v : Int} (h : 0 < s.stride) :
    v ∈ s ↔ ∃ k : Nat, v = s.first + s.stride * k ∧ v ≤ s.last := by
  rw [mem_iff]
  have hpos : (0 : Int) < s.stride := by omega
  constructor
  · intro hx
    obtain ⟨k, hk, rfl⟩ := hx
    refine ⟨k, by simp [nth], ?_⟩
    unfold size at hk
    split at hk
    · omega
    · rename_i hle
      have hq : (k : Int) ≤ (s.last - s.first) / s.stride := by
        have := Int.ediv_nonneg (show 0 ≤ s.last - s.first by omega) (Int.le_of_lt hpos)
        omega
      have := Int.mul_le_of_le_ediv hpos hq
      simp only [nth, Int.natCast_mul]
      rw [Int.mul_comm] at this; omega
  · intro hx
    obtain ⟨k, rfl, hle⟩ := hx
    have hmul : (k : Int) * s.stride ≤ s.last - s.first := by rw [Int.mul_comm]; omega
    have hq := Int.le_ediv_of_mul_le hpos hmul
    have hnn : (0 : Int) ≤ s.stride * k := Int.mul_nonneg (Int.le_of_lt hpos) (Int.natCast_nonneg k)
    refine ⟨k, ?_, by simp [nth]⟩
    unfold size
    rw [if_neg (by omega)]
    omega

end Span

namespace ValueSet

/-! ## The reach bounds the members -/

/-- The reach begins in the domain and bounds the members; before any was merged there is no
member. -/
def Sound (s : ValueSet) : Prop :=
  match s.reach with
  | none => ∀ v, v ∉ s
  | some (low, high) => s.minimum ≤ low ∧ ∀ v ∈ s, low ≤ v ∧ v ≤ high

theorem Sound.not_mem {s : ValueSet} (hs : s.Sound) (hr : s.reach = none) (v : Int) : v ∉ s := by
  unfold Sound at hs; rw [hr] at hs; exact hs v

theorem Sound.bounds {s : ValueSet} (hs : s.Sound) {low high : Int}
    (hr : s.reach = some (low, high)) : s.minimum ≤ low ∧ ∀ v ∈ s, low ≤ v ∧ v ≤ high := by
  unfold Sound at hs; rw [hr] at hs; exact hs

theorem not_mem_empty (minimum maximum v : Int) : v ∉ empty minimum maximum := by
  simp [mem_def, bit, empty]

theorem sound_empty (minimum maximum : Int) : (empty minimum maximum).Sound :=
  not_mem_empty minimum maximum

theorem sound_addSpan {s : ValueSet} {span : Span} (hs : s.Sound) (h : s.minimum ≤ span.first) :
    (s.addSpan span).Sound := by
  have hmem : ∀ v, v ∈ s.addSpan span ↔ v ∈ span ∨ v ∈ s := fun _ => mem_addSpan h
  have hreach : (s.addSpan span).reach = some (widen span s.reach) := rfl
  unfold Sound
  rw [hreach]
  cases hr : s.reach with
  | none =>
    refine ⟨by simpa [widen] using h, fun v hv => ?_⟩
    rcases (hmem v).1 hv with hv | hv
    · exact ⟨Span.first_le_of_mem hv, Span.le_reached_of_mem hv⟩
    · exact absurd hv (hs.not_mem hr v)
  | some r =>
    obtain ⟨hmin, hbounds⟩ := hs.bounds hr
    simp only [widen, minimum_addSpan]
    refine ⟨by omega, fun v hv => ?_⟩
    rcases (hmem v).1 hv with hv | hv
    · have h1 := Span.first_le_of_mem hv; have h2 := Span.le_reached_of_mem hv; omega
    · have := hbounds v hv; omega

theorem minimum_foldl_addSpan (spans : List Span) (s : ValueSet) :
    (spans.foldl addSpan s).minimum = s.minimum := by
  induction spans generalizing s with
  | nil => rfl
  | cons span spans ih => rw [List.foldl_cons, ih, minimum_addSpan]

theorem sound_foldl_addSpan {spans : List Span} {s : ValueSet} (hs : s.Sound)
    (h : ∀ span ∈ spans, s.minimum ≤ span.first) : (spans.foldl addSpan s).Sound := by
  induction spans generalizing s with
  | nil => exact hs
  | cons span spans ih =>
    rw [List.forall_mem_cons] at h
    exact ih (sound_addSpan hs h.1) (by simpa using h.2)

theorem mem_foldl_addSpan {spans : List Span} {s : ValueSet} {v : Int}
    (h : ∀ span ∈ spans, s.minimum ≤ span.first) :
    v ∈ spans.foldl addSpan s ↔ (∃ span ∈ spans, v ∈ span) ∨ v ∈ s := by
  induction spans generalizing s with
  | nil => simp
  | cons span spans ih =>
    rw [List.forall_mem_cons] at h
    rw [List.foldl_cons, ih (by simpa using h.2), mem_addSpan h.1]
    simp only [List.mem_cons, exists_eq_or_imp]
    grind

@[simp] theorem minimum_ofSpans (d : Domain) (spans : List Span) :
    (ofSpans d spans).minimum = d.minimum := minimum_foldl_addSpan spans _

theorem sound_ofSpans {d : Domain} {spans : List Span}
    (h : ∀ span ∈ spans, d.minimum ≤ span.first) : (ofSpans d spans).Sound :=
  sound_foldl_addSpan (sound_empty _ _) h

theorem mem_ofSpans {d : Domain} {spans : List Span} {v : Int}
    (h : ∀ span ∈ spans, d.minimum ≤ span.first) :
    v ∈ ofSpans d spans ↔ ∃ span ∈ spans, v ∈ span := by
  rw [ofSpans, mem_foldl_addSpan h]
  simp [not_mem_empty]

/-! ## The least member -/

/-- The shifted mask, seen from the value the search starts at. -/
theorem testBit_shift {s : ValueSet} {from' v : Int} (hm : s.minimum ≤ from') (hv : from' ≤ v) :
    (s.mask >>> (from' - s.minimum).toNat).testBit (v - from').toNat = s.bit v := by
  rw [Nat.testBit_shiftRight, bit]
  congr 1; omega

theorem first_next? {s : ValueSet} (hs : s.Sound) (start : Int) :
    FirstBy id (fun v => v ∈ s ∧ start ≤ v) (s.next? start) := by
  unfold next?
  cases hr : s.reach with
  | none => exact fun v hv => hs.not_mem hr v hv.1
  | some r =>
    obtain ⟨low, high⟩ := r
    obtain ⟨hmin, hmem⟩ := hs.bounds hr
    simp only
    have hfrom : s.minimum ≤ max start low := by omega
    have hle : ∀ v ∈ s, start ≤ v → max start low ≤ v := by
      intro v hv hle
      have := hmem v hv; omega
    split
    · intro v hv
      have h1 := hle v hv.1 hv.2
      have h2 := hmem v hv.1
      omega
    · cases hb : lowestBit? (s.mask >>> (max start low - s.minimum).toNat) with
      | none =>
        intro v hv
        have hbit := testBit_shift hfrom (hle v hv.1 hv.2)
        rw [testBit_of_lowestBit?_eq_none hb] at hbit
        rw [mem_def, ← hbit] at hv
        exact absurd hv.1.2 (by decide)
      | some i =>
        obtain ⟨hi, hlow⟩ := testBit_of_lowestBit?_eq_some hb
        have hself := testBit_shift hfrom (v := max start low + i) (by omega)
        rw [show (max start low + i - max start low).toNat = i by omega, hi] at hself
        have hmem' : max start low + i ∈ s := mem_def.2 ⟨by omega, hself.symm⟩
        refine ⟨⟨hmem', show start ≤ max start low + i by omega⟩, fun v hv => ?_⟩
        have hv' := hle v hv.1 hv.2
        have hbit := testBit_shift hfrom hv'
        refine Int.not_lt.1 fun (hlt : v < max start low + i) => ?_
        rw [hlow _ (by omega), (mem_def.1 hv.1).2] at hbit
        exact absurd hbit (by decide)

theorem first_first? {s : ValueSet} (hs : s.Sound) : FirstBy id (· ∈ s) s.first? := by
  unfold first? lowReach?
  cases hr : s.reach with
  | none => exact hs.not_mem hr
  | some r =>
    exact (first_next? hs r.1).congr fun v =>
      ⟨fun h => h.1, fun h => ⟨h, ((hs.bounds hr).2 v h).1⟩⟩

/-! ## The list of members -/

theorem mem_listFrom {s : ValueSet} (hs : s.Sound) {start v : Int} :
    v ∈ s.listFrom start ↔ v ∈ s ∧ start ≤ v := by
  fun_induction listFrom s start with
  | case1 start hn =>
    have := first_next? hs start
    rw [hn] at this
    simpa using this v
  | case2 start w hw ih =>
    have hfirst := first_next? hs start
    rw [hw] at hfirst
    rw [List.mem_cons, ih]
    constructor
    · intro h
      rcases h with rfl | ⟨hv, hle⟩
      · exact hfirst.1
      · exact ⟨hv, by have := hfirst.1.2; omega⟩
    · intro hv
      have hle : w ≤ v := hfirst.2 v hv
      rcases Int.le_iff_eq_or_lt.1 hle with rfl | hlt
      · exact .inl rfl
      · exact .inr ⟨hv.1, hlt⟩

theorem pairwise_listFrom {s : ValueSet} (hs : s.Sound) (start : Int) :
    (s.listFrom start).Pairwise (· < ·) := by
  fun_induction listFrom s start with
  | case1 => exact List.Pairwise.nil
  | case2 start w hw ih =>
    refine List.Pairwise.cons (fun v hv => ?_) ih
    have := ((mem_listFrom hs).1 hv).2
    omega

/-- The list of members holds exactly the members. -/
theorem mem_toList {s : ValueSet} (hs : s.Sound) {v : Int} : v ∈ s.toList ↔ v ∈ s := by
  unfold toList lowReach?
  cases hr : s.reach with
  | none => simpa using hs.not_mem hr v
  | some r =>
    rw [Option.map_some, mem_listFrom hs]
    exact ⟨fun h => h.1, fun h => ⟨h, ((hs.bounds hr).2 v h).1⟩⟩

/-- The list of members is strictly ascending. -/
theorem pairwise_toList {s : ValueSet} (hs : s.Sound) : s.toList.Pairwise (· < ·) := by
  unfold toList
  split
  · exact List.Pairwise.nil
  · exact pairwise_listFrom hs _

end ValueSet

end CronFire
