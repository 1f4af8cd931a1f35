import CronFire.Proofs.Text.Words
import Mathlib.Data.List.TakeWhile
/-!
# The words of texts that are joined

A blank ends a word, so texts that are joined with a blank between any two hold the words of each,
one text after the other, and blanks at the two ends do not count.

Results:
* `words_trim`: the words of a text without the blanks at its ends.
* `words_intercalate`: the words of joined texts.
* `trim_eq_nil_iff`: a text without words is blank.
-/
namespace CronFire.Text

/-- The words before a blank and those after it. -/
theorem words_append_blank (before : List Char) {c : Char} (hc : isBlank c = true)
    (after : List Char) : words (before ++ c :: after) = words before ++ words after := by
  have hsplit := splitsInto_words before
  generalize words before = ws at hsplit ⊢
  induction hsplit with
  | nil => exact words_of_blank hc
  | blank hd _ ih => rw [List.cons_append, words_of_blank hd, ih]
  | @word w cs ws hne hw hcs _ ih =>
    have hnext : ∀ d ∈ (cs ++ c :: after).head?, isBlank d = true := by
      cases cs with
      | nil =>
        intro d hd
        cases hd
        exact hc
      | cons d cs => exact hcs
    rw [List.append_assoc, words_append hne hw hnext, ih, List.cons_append]

theorem words_append_allBlank (cs : List Char) {blanks : List Char}
    (h : ∀ c ∈ blanks, isBlank c = true) : words (cs ++ blanks) = words cs := by
  induction blanks generalizing cs with
  | nil => rw [List.append_nil]
  | cons c blanks ih =>
    rw [List.forall_mem_cons] at h
    have hnone : words blanks = [] := ih [] h.2
    rw [words_append_blank cs h.1, hnone, List.append_nil]

theorem words_trimStart (cs : List Char) : words (trimStart cs) = words cs := by
  induction cs with
  | nil => rfl
  | cons c cs ih =>
    by_cases hc : isBlank c = true
    · rw [words_of_blank hc, ← ih, trimStart, trimStart, List.dropWhile_cons_of_pos hc]
    · rw [trimStart, List.dropWhile_cons_of_neg hc]

/-- A text is what is left of it without the blanks at its end, and those blanks. -/
theorem exists_eq_trimEnd_append (cs : List Char) :
    ∃ blanks, cs = trimEnd cs ++ blanks ∧ ∀ c ∈ blanks, isBlank c = true := by
  refine ⟨(cs.reverse.takeWhile isBlank).reverse, ?_, fun c hc => ?_⟩
  · rw [trimEnd, ← List.reverse_append, List.takeWhile_append_dropWhile, List.reverse_reverse]
  · rw [List.mem_reverse] at hc
    exact List.all_eq_true.1 List.all_takeWhile c hc

theorem words_trimEnd (cs : List Char) : words (trimEnd cs) = words cs := by
  obtain ⟨blanks, hcs, hblanks⟩ := exists_eq_trimEnd_append cs
  calc words (trimEnd cs) = words (trimEnd cs ++ blanks) :=
        (words_append_allBlank _ hblanks).symm
    _ = words cs := by rw [← hcs]

theorem words_trim (cs : List Char) : words (trim cs) = words cs := by
  rw [trim, words_trimEnd, words_trimStart]

/-- Texts with a blank between any two hold the words of each. -/
theorem words_intercalate (texts : List (List Char)) :
    words (List.intercalate [' '] texts) = texts.flatMap words := by
  induction texts with
  | nil => rfl
  | cons text texts ih =>
    cases texts with
    | nil => simp
    | cons next texts =>
      rw [List.intercalate_cons_cons, List.append_assoc, List.singleton_append,
        words_append_blank text (by decide), ih, ← List.flatMap_cons]

/-- A text without words holds nothing but blanks. -/
theorem isBlank_of_words_eq_nil {cs : List Char} (h : words cs = []) :
    ∀ c ∈ cs, isBlank c = true := by
  have hsplit : SplitsInto cs [] := splitsInto_iff.2 h
  clear h
  generalize hnil : ([] : List (List Char)) = ws at hsplit
  induction hsplit with
  | nil => exact List.forall_mem_nil _
  | blank hc _ ih => exact List.forall_mem_cons.2 ⟨hc, ih hnil⟩
  | word => cases hnil

theorem trim_eq_nil_iff {cs : List Char} : trim cs = [] ↔ words cs = [] := by
  constructor
  · intro h
    rw [← words_trim, h]
    rfl
  · intro h
    have hstart : trimStart cs = [] :=
      List.dropWhile_eq_nil_iff.2 (isBlank_of_words_eq_nil h)
    rw [trim, hstart]
    rfl

end CronFire.Text
