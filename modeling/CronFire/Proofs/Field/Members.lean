import CronFire.Proofs.Field.Values
import Mathlib.Data.Nat.BitIndices
import Mathlib.Data.Set.Card
/-!
# The queries agree with plain membership

A value set answers its queries from a mask and a reach: the lowest bit of the shifted mask, and
two bounds that save a look at it.  A field that was read answers as if it looked at each value
from the minimum on, also over a domain that is empty or whose names run past it, where an empty
range leaves a reach with no member behind it.

Results:
* `toList_eq_map_bitIndices`: the members are listed in the order of their bits.
* `length_toList`: as many as there are bits set.
* `walk_iff`: asking for the next value past each one ends, and gives this list.
* `queries_exact`: all queries of a field that was read.
-/
namespace CronFire

/-- The bits that are counted are the bits that are set. -/
theorem bitCount_eq_length (n : Nat) : bitCount n = n.bitIndices.length := by
  fun_induction bitCount n with
  | case1 => rfl
  | case2 n _ ih =>
    rcases Nat.mod_two_eq_zero_or_one n with h | h
    · rw [h, ih]
      nth_rewrite 2 [show n = 2 * (n / 2) by omega]
      rw [Nat.bitIndices_two_mul, List.length_map, Nat.zero_add]
    · rw [h, ih]
      nth_rewrite 2 [show n = 2 * (n / 2) + 1 by omega]
      rw [Nat.bitIndices_two_mul_add_one, List.length_cons, List.length_map, Nat.add_comm]

namespace ValueSet

variable {s : ValueSet}

theorem contains?_eq_some_true_iff {v : Int} :
    s.minimum ≤ v ∧ s.contains? v = some true ↔ v ∈ s := by
  unfold contains?
  rw [mem_def]
  refine and_congr_right fun hv => ?_
  rw [if_neg (by omega), Option.some.injEq]

theorem mem_iff_mem_bitIndices {v : Int} :
    v ∈ s ↔ v ∈ s.mask.bitIndices.map fun (i : Nat) => s.minimum + i := by
  simp only [List.mem_map, Nat.mem_bitIndices, mem_def, bit]
  constructor
  · intro hv
    exact ⟨_, hv.2, by omega⟩
  · intro hx
    obtain ⟨i, hi, rfl⟩ := hx
    exact ⟨by omega, by rwa [show (s.minimum + i - s.minimum).toNat = i by omega]⟩

/-- The members are listed in the order of their bits. -/
theorem toList_eq_map_bitIndices (hs : s.Sound) :
    s.toList = s.mask.bitIndices.map fun (i : Nat) => s.minimum + i := by
  have hbits : (s.mask.bitIndices.map fun (i : Nat) => s.minimum + i).Pairwise (· < ·) :=
    List.pairwise_map.2 (Nat.bitIndices_sorted.pairwise.imp fun h => by omega)
  -- both lists ascend and hold the same values
  refine List.Perm.eq_of_pairwise (fun v w _ _ h h' => absurd h' (by omega))
    (pairwise_toList hs) hbits ?_
  refine (List.perm_ext_iff_of_nodup (pairwise_toList hs).nodup hbits.nodup).2 fun v => ?_
  rw [mem_toList hs, mem_iff_mem_bitIndices]

/-- There are as many members as bits set. -/
theorem length_toList (hs : s.Sound) : s.toList.length = s.size := by
  rw [toList_eq_map_bitIndices hs, List.length_map, size, bitCount_eq_length]

theorem encard_members (hs : s.Sound) : {v | v ∈ s}.encard = s.size := by
  have hset : {v | v ∈ s} = (s.toList.toFinset : Set Int) := by
    ext v
    simp [mem_toList hs]
  rw [hset, Set.encard_coe_eq_coe_finsetCard,
    List.toFinset_card_of_nodup (pairwise_toList hs).nodup, length_toList hs]

/-! ## The walk through a set -/

/-- A walk through the set hands out a value, asks for the next one past it, and so on until there
is none.  Nothing bounds its length. -/
inductive Walk (s : ValueSet) : Option Int → List Int → Prop
  | stop : s.Walk none []
  | step {v : Int} {vs : List Int} : s.Walk (s.next? (v + 1)) vs → s.Walk (some v) (v :: vs)

theorem Walk.unique {start : Option Int} {vs ws : List Int} (hv : s.Walk start vs)
    (hw : s.Walk start ws) : vs = ws := by
  induction hv generalizing ws with
  | stop => cases hw; rfl
  | step _ ih =>
    cases hw with
    | step hw => rw [ih hw]

theorem walk_listFrom (s : ValueSet) (start : Int) :
    s.Walk (s.next? start) (s.listFrom start) := by
  fun_induction listFrom s start with
  | case1 start hn => rw [hn]; exact .stop
  | case2 start v hv ih => rw [hv]; exact .step ih

/-- The walk from the first member ends, and the list of members is what it hands out. -/
theorem walk_iff {vs : List Int} : s.Walk s.first? vs ↔ vs = s.toList := by
  have hwalk : s.Walk s.first? s.toList := by
    unfold first? toList
    cases s.lowReach? with
    | none => exact .stop
    | some low => exact walk_listFrom s low
  exact ⟨fun h => h.unique hwalk, fun h => h ▸ hwalk⟩

theorem Sound.minimum_le_lowReach (hs : s.Sound) {low : Int} (h : s.lowReach? = some low) :
    s.minimum ≤ low := by
  obtain ⟨r, hr, rfl⟩ := Option.map_eq_some_iff.1 h
  exact (hs.bounds hr).1

end ValueSet

namespace Field

theorem minimum_allowed {d : Domain} {token : Option String} {f : Field}
    (h : read d token = .ok f) : f.allowed.minimum = d.minimum := by
  obtain ⟨parts, -, rfl⟩ := read_eq_ok_iff.1 h
  exact ValueSet.minimum_ofSpans d _

/-- **Queries and plain membership.** Over any domain, the members of a field that was read are
the values from the minimum on that it contains, and each query answers by them alone: the least
member from a start on, the least of all, the walk through them, and their number.  No value below
the minimum was merged, so the mask is never shifted by a negative number. -/
theorem queries_exact {d : Domain} {token : Option String} {f : Field}
    (h : read d token = .ok f) :
    let Member (v : Int) : Prop := d.minimum ≤ v ∧ f.allowed.contains? v = some true
    (∀ start, FirstBy id (fun v => Member v ∧ start ≤ v) (f.allowed.next? start)) ∧
      FirstBy id Member f.allowed.first? ∧
      (∀ vs, f.allowed.Walk f.allowed.first? vs ↔ vs = f.allowed.toList) ∧
      f.allowed.toList.Pairwise (· < ·) ∧ (∀ v, v ∈ f.allowed.toList ↔ Member v) ∧
      {v | Member v}.encard = f.allowed.size ∧
      ∀ low, f.allowed.lowReach? = some low → d.minimum ≤ low := by
  have hs := sound_allowed h
  simp only [← minimum_allowed h, ValueSet.contains?_eq_some_true_iff]
  exact ⟨ValueSet.first_next? hs, ValueSet.first_first? hs, fun vs => ValueSet.walk_iff,
    ValueSet.pairwise_toList hs, fun v => ValueSet.mem_toList hs, ValueSet.encard_members hs,
    fun low hlow => hs.minimum_le_lowReach hlow⟩

/-- The last of four names stands for 8 in a domain that ends with 6, and the reach with it: the
values are 5 and 6 all the same, and there is none from 7 on. -/
theorem queries_exact_pastMaximum : ∃ f,
    read ⟨5, 6, ["north", "east", "south", "west"]⟩ (some "west/0,*") = .ok f ∧
      f.allowed.highReach? = some 8 ∧ f.allowed.toList = [5, 6] ∧
      ∀ v, ¬ ((5 ≤ v ∧ f.allowed.contains? v = some true) ∧ 7 ≤ v) := by
  have hread : read ⟨5, 6, ["north", "east", "south", "west"]⟩ (some "west/0,*") =
      .ok ⟨some "west/0,*", ⟨5, 6, 3, some (5, 8)⟩⟩ := by decide +kernel
  have hnext := (queries_exact hread).1 7
  rw [show (⟨5, 6, 3, some (5, 8)⟩ : ValueSet).next? 7 = none by decide +kernel] at hnext
  exact ⟨_, hread, rfl, by decide +kernel, hnext⟩

end Field

end CronFire
