import CronFire.Proofs.Journal.Kept
import CronFire.Proofs.Text.Digits
import Mathlib.Data.List.TakeWhile
/-!
# What is written of an entry

An entry is written line by line, up to the first line that cannot be encoded.  The strays of an
entry are those of its message and of the name of its caller, so these two decide whether it is
written in full.

Results:
* `isEntry_of_entryText`: what the text of an entry is.
* `isEncodable_entry`: an entry can be encoded exactly if its message and its caller can.
* `encodedText_eq_iff`: exactly then it is written in full.
-/
namespace CronFire.Journal

open Text

section
variable {now : Moment} {columns : Nat} {note : Note} {text : String}

/-- A text is the entry of a message: its heading, lines that hold the message, and a blank line. -/
def IsEntry (now : Moment) (columns : Nat) (note : Note) (text : String) : Prop :=
  ∃ lines, Keeps columns note.message lines ∧
    text = heading now note ++ String.ofList (lines.flatMap ('\n' :: ·)) ++ "\n\n"

theorem exists_entryText (h : margin < columns) (now : Moment) (note : Note) :
    ∃ text, entryText now columns note = .ok text := by
  rw [entryText, if_neg (Nat.not_le.2 h)]
  exact ⟨_, rfl⟩

theorem entryText_eq_error (h : columns ≤ margin) (now : Moment) (note : Note) :
    entryText now columns note = .error ⟨⟩ := by
  rw [entryText, if_pos h]

theorem join_entryLines (now : Moment) (columns : Nat) (note : Note) :
    String.join (entryLines now columns note) = heading now note ++
      String.ofList ((bodyLines columns note.message).flatMap fun line => '\n' :: indent ++ line) ++
      "\n\n" := by
  have hbody : String.join ((bodyLines columns note.message).map fun line =>
      String.ofList ('\n' :: indent ++ line)) = String.ofList
        ((bodyLines columns note.message).flatMap fun line => '\n' :: indent ++ line) := by
    rw [← String.toList_inj, String.toList_join, List.flatMap_map, String.toList_ofList]
    simp only [String.toList_ofList]
  rw [entryLines, List.cons_append, String.join_cons, String.join_append, hbody,
    ← String.append_assoc]
  rfl

/-- The text of an entry is that of its lines. -/
theorem entryText_eq_ok_iff : entryText now columns note = .ok text ↔
    margin < columns ∧ String.join (entryLines now columns note) = text := by
  rw [entryText, join_entryLines]
  split
  · rename_i hnarrow
    exact iff_of_false (fun h => by cases h) fun h => absurd h.1 (Nat.not_lt.2 hnarrow)
  · rename_i hwide
    rw [Except.ok.injEq, and_iff_right (Nat.not_le.1 hwide)]

theorem isEntry_of_entryText (h : entryText now columns note = .ok text) :
    IsEntry now columns note text := by
  refine ⟨_, keeps_bodyLines columns note.message, ?_⟩
  rw [← (entryText_eq_ok_iff.1 h).2, join_entryLines, List.flatMap_map]
  rfl

/-! ## What can be encoded -/

variable [Strays]

theorem isStray_of_isBlank {c : Char} (h : isBlank c = true) : isStray c = false := by
  refine isStray_eq_false ?_
  simp only [isBlank, Bool.or_eq_true, Bool.and_eq_true, decide_eq_true_eq, beq_iff_eq] at h
  omega

theorem all_not_isStray_withoutBlanks (cs : List Char) :
    (withoutBlanks cs).all (!isStray ·) = cs.all (!isStray ·) := by
  rw [withoutBlanks, List.all_filter]
  congr 1
  funext c
  cases hblank : isBlank c with
  | true => rw [isStray_of_isBlank hblank]; rfl
  | false => rfl

theorem isEncodable_join (texts : List String) :
    isEncodable (String.join texts) = texts.all isEncodable := by
  induction texts with
  | nil => rfl
  | cons text texts ih => rw [String.join_cons, isEncodable_append, ih, List.all_cons]

theorem isEncodable_heading (now : Moment) (note : Note) :
    isEncodable (heading now note) = isEncodable note.caller := by
  have hclock : isEncodable (String.ofList now.clockText) = true := by
    refine isEncodable_of_low ?_
    have hdigit : ∀ c : Char, c.isDigit = true → c.toNat < 0xf0000 := fun c hc =>
      Nat.lt_of_le_of_lt (Char.isDigit_iff_toNat.1 hc).2 (by decide)
    have hnumber : ∀ n, (zeroPadded 2 n).all (fun c => c.toNat < 0xf0000) = true := fun n =>
      List.all_eq_true.2 fun c hc => decide_eq_true (hdigit c (isDigit_of_mem_zeroPadded hc))
    simp [Moment.clockText, hnumber]
  have hfirst : isEncodable "- " = true := isEncodable_of_low (by decide)
  have hblank : isEncodable " " = true := isEncodable_of_low (by decide)
  have hkind : isEncodable note.kind.label = true :=
    isEncodable_of_low (by cases note.kind <;> decide)
  have hmsg : isEncodable "_msg (" = true := isEncodable_of_low (by decide)
  have hlast : isEncodable "):  " = true := isEncodable_of_low (by decide)
  simp [heading, isEncodable_append, hclock, hfirst, hblank, hkind, hmsg, hlast]

/-- An entry can be encoded exactly if its message and the name of its caller can. -/
theorem isEncodable_entry (now : Moment) (columns : Nat) (note : Note) :
    isEncodable (String.join (entryLines now columns note)) =
      (isEncodable note.caller && isEncodable note.message) := by
  have hbody : isEncodable (String.ofList
      ((bodyLines columns note.message).flatMap fun line => '\n' :: indent ++ line)) =
      isEncodable note.message := by
    have hblank : ('\n' :: indent).all isBlank = true := by decide
    have hindent : ('\n' :: indent).all (!isStray ·) = true :=
      List.all_eq_true.2 fun c hc => by
        rw [isStray_of_isBlank (List.all_eq_true.1 hblank c hc)]
        rfl
    have hlines := all_not_isStray_withoutBlanks (bodyLines columns note.message).flatten
    rw [bodyLines, withoutBlanks_fill, withoutBlanks_trim, all_not_isStray_withoutBlanks,
      ← bodyLines, List.all_flatten] at hlines
    simp only [isEncodable, String.toList_ofList, List.all_flatMap, List.all_append, hindent,
      Bool.true_and, hlines]
  have hend : isEncodable "\n\n" = true := isEncodable_of_low (by decide)
  rw [join_entryLines, isEncodable_append, isEncodable_append, isEncodable_heading, hbody, hend,
    Bool.and_true]

/-- An entry is written in full exactly if it can be encoded. -/
theorem encodedText_eq_iff :
    encodedText now columns note = String.join (entryLines now columns note) ↔
      isEncodable note.caller = true ∧ isEncodable note.message = true := by
  rw [← Bool.and_eq_true, ← isEncodable_entry now columns note]
  constructor
  · intro h
    rw [← h, encodedText, isEncodable_join, List.all_eq_true]
    exact fun line => List.mem_takeWhile_imp
  · intro h
    rw [isEncodable_join, List.all_eq_true] at h
    rw [encodedText, List.takeWhile_eq_self_iff.2 h]

end

end CronFire.Journal
