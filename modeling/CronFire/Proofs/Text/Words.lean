import CronFire.Text.Blank
/-!
# Texts as words between blanks

`SplitsInto` says what the words of a text are without a rule for finding them: the text is the
words in order, with one blank or more between two of them and any number around them.

Results:
* `splitsInto_iff`: the words found are the only ones a text splits into.
* `SplitsInto.hasNoBlank`: no word holds a blank.
-/
namespace CronFire.Text

def HasNoBlank (cs : List Char) : Prop := ∀ c ∈ cs, isBlank c = false

instance (cs : List Char) : Decidable (HasNoBlank cs) := List.decidableBAll _ _

theorem HasNoBlank.of_append {a b : List Char} (h : HasNoBlank (a ++ b)) :
    HasNoBlank a ∧ HasNoBlank b :=
  ⟨fun c hc => h c (List.mem_append_left b hc), fun c hc => h c (List.mem_append_right a hc)⟩

theorem HasNoBlank.of_cons {c : Char} {cs : List Char} (h : HasNoBlank (c :: cs)) :
    HasNoBlank cs := fun x hx => h x (List.mem_cons_of_mem c hx)

theorem isAllBlank_of_hasNoBlank {cs : List Char} (h : HasNoBlank cs) :
    isAllBlank cs = cs.isEmpty := by
  cases cs with
  | nil => rfl
  | cons c cs => simp [isAllBlank, h c List.mem_cons_self]

/-- The text is these words, with blanks around them and at least one between two of them. -/
inductive SplitsInto : List Char → List (List Char) → Prop
  | nil : SplitsInto [] []
  | blank {c : Char} {cs : List Char} {ws : List (List Char)} : isBlank c = true →
      SplitsInto cs ws → SplitsInto (c :: cs) ws
  | word {w cs : List Char} {ws : List (List Char)} : w ≠ [] → HasNoBlank w →
      (∀ c ∈ cs.head?, isBlank c = true) → SplitsInto cs ws → SplitsInto (w ++ cs) (w :: ws)

section
variable {c d : Char} {cs : List Char}

theorem words_of_blank (hc : isBlank c = true) : words (c :: cs) = words cs := if_pos hc

theorem words_singleton (hc : isBlank c = false) : words [c] = [[c]] :=
  if_neg (ne_true_of_eq_false hc)

theorem words_of_blank_next (hc : isBlank c = false) (hd : isBlank d = true) :
    words (c :: d :: cs) = [c] :: words (d :: cs) := by
  refine (if_neg (ne_true_of_eq_false hc)).trans ?_
  cases words (d :: cs) with
  | nil => rfl
  | cons w ws => exact if_pos hd

theorem words_of_not_blank_next (hc : isBlank c = false) (hd : isBlank d = false)
    {w : List Char} {ws : List (List Char)} (h : words (d :: cs) = w :: ws) :
    words (c :: d :: cs) = (c :: w) :: ws := by
  refine (if_neg (ne_true_of_eq_false hc)).trans ?_
  rw [h]
  exact if_neg (ne_true_of_eq_false hd)

end

/-- A word ends where a blank, or nothing, follows it. -/
theorem words_append {w cs : List Char} (hne : w ≠ []) (hw : HasNoBlank w)
    (hcs : ∀ c ∈ cs.head?, isBlank c = true) : words (w ++ cs) = w :: words cs := by
  induction w with
  | nil => exact absurd rfl hne
  | cons c w ih =>
    have hc : isBlank c = false := hw c List.mem_cons_self
    cases w with
    | nil =>
      cases cs with
      | nil => exact words_singleton hc
      | cons d cs => exact words_of_blank_next hc (hcs d rfl)
    | cons d w =>
      have hd : isBlank d = false := hw d (by simp)
      exact words_of_not_blank_next hc hd (ih (List.cons_ne_nil d w) hw.of_cons)

theorem splitsInto_words (cs : List Char) : SplitsInto cs (words cs) := by
  induction hn : cs.length using Nat.strongRecOn generalizing cs with
  | ind n ih =>
    cases cs with
    | nil => exact .nil
    | cons c cs =>
      by_cases hc : isBlank c = true
      · rw [words_of_blank hc]
        exact .blank hc (ih cs.length (by simp at hn; omega) cs rfl)
      · -- the first word is the longest start without a blank
        let w := (c :: cs).takeWhile fun x => !isBlank x
        let rest := (c :: cs).dropWhile fun x => !isBlank x
        have hsplit : c :: cs = w ++ rest := List.takeWhile_append_dropWhile.symm
        have hne : w ≠ [] := by simp [w, hc]
        have hw : HasNoBlank w := fun x hx => by
          simpa using List.all_eq_true.1 List.all_takeWhile x hx
        have hrest : ∀ x ∈ rest.head?, isBlank x = true := by
          intro x hx
          have := List.head?_dropWhile_not (fun x => !isBlank x) (c :: cs)
          simp only [rest] at hx
          rw [hx] at this
          simpa using this
        have hlen : rest.length < n := by
          have := congrArg List.length hsplit
          have := List.length_pos_iff.2 hne
          simp at *; omega
        rw [hsplit, words_append hne hw hrest]
        exact .word hne hw hrest (ih rest.length hlen rest rfl)

/-- A text splits into its words and nothing else. -/
theorem splitsInto_iff {cs : List Char} {ws : List (List Char)} :
    SplitsInto cs ws ↔ words cs = ws := by
  refine ⟨fun h => ?_, fun h => h ▸ splitsInto_words cs⟩
  induction h with
  | nil => rfl
  | blank hc _ ih => rw [words_of_blank hc, ih]
  | word hne hw hcs _ ih => rw [words_append hne hw hcs, ih]

theorem SplitsInto.hasNoBlank {cs : List Char} {ws : List (List Char)} (h : SplitsInto cs ws) :
    ∀ w ∈ ws, HasNoBlank w := by
  induction h with
  | nil => simp
  | blank _ _ ih => exact ih
  | word _ hw _ _ ih => exact List.forall_mem_cons.2 ⟨hw, ih⟩

/-- The words are written in the text without a gap. -/
theorem SplitsInto.infix_of_mem {cs w : List Char} {ws : List (List Char)}
    (h : SplitsInto cs ws) (hw : w ∈ ws) : w <:+: cs := by
  induction h with
  | nil => cases hw
  | blank _ _ ih => exact (ih hw).trans (List.suffix_cons _ _).isInfix
  | word _ _ _ _ ih =>
    rcases List.mem_cons.1 hw with rfl | hw
    · exact (List.prefix_append _ _).isInfix
    · exact (ih hw).trans (List.suffix_append _ _).isInfix

end CronFire.Text
