import CronFire.Terminal.Cells
import CronFire.Text.Blank
/-!
# Lines

A text is laid on terminal lines of a given width, word by word, each word with the blanks
behind it.  A word that does not fit on what is left of a line starts a new one.  A word wider
than a whole line is broken where the line is full, or is left to be cut.  The blanks at the end
of a line that lie beyond the width are dropped.

* `wrap`: the lines of a text.
* `wrap_of_le`: a text that fits is its only line.
-/
namespace CronFire.Terminal

open Text

/-- Tabs filled up with blanks to the next multiple of eight cells, from a cell on. -/
def fillTabs : (cell : Nat) → List Char → List Char
  | _, [] => []
  | cell, c :: cs =>
    if c = '\t' then
      let fill := 8 - cell % 8
      List.replicate fill ' ' ++ fillTabs (cell + fill) cs
    else c :: fillTabs (cell + cellWidth c) cs

theorem fillTabs_of_not_mem {cell : Nat} {cs : List Char} (h : '\t' ∉ cs) :
    fillTabs cell cs = cs := by
  induction cs generalizing cell with
  | nil => rfl
  | cons c cs ih =>
    obtain ⟨hc, hcs⟩ : '\t' ≠ c ∧ '\t' ∉ cs := by simpa using h
    rw [fillTabs, if_neg (Ne.symm hc), ih hcs]

/-- The text cut before every word but the first; `begun` tells that a word has begun. -/
def cutBeforeWords (begun : Bool) : List Char → List (List Char)
  | [] => []
  | c :: cs =>
    let begun := begun || !isBlank c
    match cutBeforeWords begun cs with
    | [] => [[c]]
    | word :: words =>
      if begun && isBlank c && word.head?.any (!isBlank ·) then [c] :: word :: words
      else (c :: word) :: words

theorem flatten_cutBeforeWords (begun : Bool) (cs : List Char) :
    (cutBeforeWords begun cs).flatten = cs := by
  induction cs generalizing begun with
  | nil => rfl
  | cons c cs ih =>
    have ih := ih (begun || !isBlank c)
    simp only [cutBeforeWords]
    generalize cutBeforeWords (begun || !isBlank c) cs = words at ih ⊢
    cases words with
    | nil => simpa using ih
    | cons word words =>
      simp only
      split <;> simpa using ih

/-- A word broken into parts of at most `width` cells, the first part with what is left of a
line on which some cells are taken. -/
def breakWord (width : Nat) : (taken : Nat) → List Char → List (List Char)
  | _, [] => [[]]
  | taken, c :: cs =>
    if taken + cellWidth c ≤ width then
      match breakWord width (taken + cellWidth c) cs with
      | part :: parts => (c :: part) :: parts
      | [] => [[c]]
    else
      match breakWord width (cellWidth c) cs with
      | part :: parts => [] :: (c :: part) :: parts
      | [] => [[], [c]]

/-- What becomes of a word that is wider than a line. -/
inductive Overflow where
  /-- It is broken into lines. -/
  | fold
  /-- It stays on one line, which is cut. -/
  | cut
  deriving DecidableEq, Repr

def Overflow.parts (overflow : Overflow) (width : Nat) (word : List Char) : List (List Char) :=
  match overflow with
  | .fold => breakWord width 0 word
  | .cut => [word]

/-- The lines of some words, the first of which are on `line` already. -/
def layWords (overflow : Overflow) (width : Nat) (line : List Char) :
    List (List Char) → List (List Char)
  | [] => [line]
  | word :: words =>
    let size := cells (trimEnd word)
    if cells line + size ≤ width then layWords overflow width (line ++ word) words
    else if size ≤ width then line :: layWords overflow width word words
    else
      let parts := overflow.parts width word
      let lines := if line.isEmpty then parts.dropWhile List.isEmpty else line :: parts
      lines.dropLast ++ layWords overflow width (lines.getLastD []) words

def dropBlanksBeyond (width : Nat) (line : List Char) : List Char :=
  line.take (max width (trimEnd line).length)

/-- The lines of a text without line feeds. -/
def wrap (overflow : Overflow) (width : Nat) (cs : List Char) : List (List Char) :=
  (layWords overflow width [] (cutBeforeWords false (fillTabs 0 cs))).map (dropBlanksBeyond width)

theorem cells_trimEnd_le (cs : List Char) : cells (trimEnd cs) ≤ cells cs := by
  have h := List.takeWhile_append_dropWhile (p := isBlank) (l := cs.reverse)
  have : cells cs = cells (cs.reverse.dropWhile isBlank).reverse +
      cells (cs.reverse.takeWhile isBlank).reverse := by
    rw [← cells_append, ← List.reverse_append, h, List.reverse_reverse]
  rw [trimEnd, this]
  omega

theorem layWords_of_le {overflow : Overflow} {width : Nat} {line : List Char}
    {words : List (List Char)} (h : cells line + cells words.flatten ≤ width) :
    layWords overflow width line words = [line ++ words.flatten] := by
  induction words generalizing line with
  | nil => simp [layWords]
  | cons word words ih =>
    rw [List.flatten_cons, cells_append] at h
    have := cells_trimEnd_le word
    simp only [layWords]
    rw [if_pos (by omega), ih (by rw [cells_append]; omega)]
    simp

/-- A text without tabs that fits is its only line. -/
theorem wrap_of_le {overflow : Overflow} {width : Nat} {cs : List Char} (tab : '\t' ∉ cs)
    (size : cells cs ≤ width) (length : cs.length ≤ width) : wrap overflow width cs = [cs] := by
  rw [wrap, fillTabs_of_not_mem tab, layWords_of_le]
  · simp only [flatten_cutBeforeWords, List.nil_append, List.map_cons, List.map_nil]
    rw [dropBlanksBeyond, List.take_of_length_le (by omega)]
  · rwa [flatten_cutBeforeWords, cells_nil, Nat.zero_add]

end CronFire.Terminal
