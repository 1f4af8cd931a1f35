import CronFire.Proofs.Text.Joined
import CronFire.Terminal.Printed
/-!
# Text on lines

A text that is too wide for the terminal is printed on several lines.  Nothing of it is lost but
blanks where a line ends: words are kept together where they fit and broken where they do not, and
what is cropped in the end is blank.  That takes lines of two cells at least, since a character
may take two, and a text whose blanks are all spaces, since tabs, line ends and wide blanks are
not printed as they are.

Results:
* `flatten_layWords`, `fits_layWords`: the lines hold the whole text, and fit but for blanks.
* `shownAs_screenLines`: a text on the screen.
* `ShownAs.countP_eq`, `countP_screenLines`: the characters that show are counted.
-/
namespace CronFire.Terminal

open Text

/-- The text is cut into lines, with blanks left out only where a line ends. -/
inductive Wraps : List Char → List (List Char) → Prop
  | nil : Wraps [] []
  | cons {line gap rest : List Char} {lines : List (List Char)} : isAllBlank gap = true →
      Wraps rest lines → Wraps (line ++ gap ++ rest) (line :: lines)

/-- What is shown is the text as it stands, on lines of at most `columns` cells. -/
def ShownAs (columns : Nat) (text : List Char) (shown : String) : Prop :=
  ∃ lines, shown = stack lines ∧ Wraps text lines ∧
    ∀ line ∈ lines, '\n' ∉ line ∧ cells line ≤ columns

/-- All blanks of the text are spaces. -/
def PlainBlanks (cs : List Char) : Prop := ∀ c ∈ cs, isBlank c = true → c = ' '

instance (cs : List Char) : Decidable (PlainBlanks cs) :=
  decidable_of_iff (cs.all (fun c => !isBlank c || c = ' ') = true)
    (by simp [PlainBlanks, imp_iff_not_or])

/-- No character of the text is dropped. -/
def Kept (cs : List Char) : Prop := ∀ c ∈ cs, isDropped c = false

instance (cs : List Char) : Decidable (Kept cs) :=
  decidable_of_iff (cs.all (!isDropped ·) = true) (by simp [Kept])

theorem PlainBlanks.append {cs ds : List Char} (hcs : PlainBlanks cs) (hds : PlainBlanks ds) :
    PlainBlanks (cs ++ ds) := List.forall_mem_append.2 ⟨hcs, hds⟩

theorem PlainBlanks.not_mem {cs : List Char} (h : PlainBlanks cs) {c : Char}
    (hblank : isBlank c = true) (hspace : c ≠ ' ') : c ∉ cs :=
  fun hmem => hspace (h c hmem hblank)

/-! ## Trimming and cropping -/

section
variable {cs ds gap line word : List Char} {room width : Nat}

theorem trimEnd_append_of_blank (h : ∀ c ∈ gap, isBlank c = true) :
    trimEnd (cs ++ gap) = trimEnd cs := by
  rw [trimEnd, trimEnd, List.reverse_append, List.dropWhile_append_of_pos]
  exact fun c hc => h c (List.mem_reverse.1 hc)

theorem cells_trimEnd_append_le (line word : List Char) :
    cells (trimEnd (line ++ word)) ≤ cells line + cells (trimEnd word) := by
  obtain ⟨gap, hword, hgap⟩ := exists_eq_trimEnd_append word
  have hsplit : line ++ word = (line ++ trimEnd word) ++ gap := by
    rw [List.append_assoc, ← hword]
  calc cells (trimEnd (line ++ word))
      = cells (trimEnd (line ++ trimEnd word)) := by
        rw [hsplit, trimEnd_append_of_blank hgap]
    _ ≤ cells (line ++ trimEnd word) := cells_trimEnd_le _
    _ = cells line + cells (trimEnd word) := cells_append _ _

theorem cellWidth_le_two (c : Char) : cellWidth c ≤ 2 := by
  unfold cellWidth
  dsimp only
  split
  · omega
  · split
    · omega
    · split
      · omega
      · split <;> omega

theorem cells_replicate_space (n : Nat) : cells (List.replicate n ' ') = n := by
  induction n with
  | zero => rfl
  | succ n ih =>
    have hspace : cellWidth ' ' = 1 := by decide
    rw [List.replicate_succ, cells_cons, ih, hspace, Nat.add_comm]

theorem cells_crop_le (room : Nat) (cs : List Char) : cells (crop room cs) ≤ room := by
  induction cs generalizing room with
  | nil => exact Nat.zero_le room
  | cons c cs ih =>
    rw [crop]
    split
    · have := ih (room - cellWidth c)
      rw [cells_cons]
      omega
    · rw [cells_replicate_space]

theorem crop_append (h : cells cs ≤ room) (ds : List Char) :
    crop room (cs ++ ds) = cs ++ crop (room - cells cs) ds := by
  induction cs generalizing room with
  | nil => rfl
  | cons c cs ih =>
    rw [cells_cons] at h
    rw [List.cons_append, crop, if_pos (by omega), ih (by omega), cells_cons, Nat.sub_sub]
    rfl

theorem crop_replicate_space (room n : Nat) :
    crop room (List.replicate n ' ') = List.replicate (min room n) ' ' := by
  induction n generalizing room with
  | zero =>
    rw [Nat.min_zero]
    rfl
  | succ n ih =>
    have hspace : cellWidth ' ' = 1 := by decide
    rw [List.replicate_succ, crop, hspace]
    split
    · rw [ih, ← List.replicate_succ]
      congr 1
      omega
    · congr 1
      omega

/-- Of a line that fits but for blanks only blanks are taken away. -/
theorem exists_gap_of_fits (hblanks : PlainBlanks line) (h : cells (trimEnd line) ≤ width) :
    ∃ gap, isAllBlank gap = true ∧ line = crop width (dropBlanksBeyond width line) ++ gap := by
  obtain ⟨blanks, hline, hblank⟩ := exists_eq_trimEnd_append line
  obtain ⟨n, hn⟩ : ∃ n, blanks = List.replicate n ' ' :=
    ⟨blanks.length, List.eq_replicate_iff.2 ⟨rfl, fun c hc =>
      hblanks c (hline ▸ List.mem_append_right _ hc) (hblank c hc)⟩⟩
  subst hn
  generalize htrimmed : trimEnd line = start at hline h
  obtain ⟨m, hm, hdropped⟩ : ∃ m ≤ n, dropBlanksBeyond width line =
      start ++ List.replicate m ' ' := by
    refine ⟨min (max width start.length - start.length) n, Nat.min_le_right _ _, ?_⟩
    rw [dropBlanksBeyond, htrimmed, hline, List.take_append,
      List.take_of_length_le (Nat.le_max_right _ _), List.take_replicate]
  refine ⟨List.replicate (n - min (width - cells start) m) ' ', ?_, ?_⟩
  · exact List.all_eq_true.2 fun c hc => by rw [List.eq_of_mem_replicate hc]; decide
  · rw [hdropped, crop_append h, crop_replicate_space, List.append_assoc,
      List.replicate_append_replicate, hline]
    congr 2
    omega

/-! ## Words on lines -/

theorem breakWord_ne_nil (width taken : Nat) (word : List Char) :
    breakWord width taken word ≠ [] := by
  cases word with
  | nil => exact List.cons_ne_nil _ _
  | cons c cs =>
    rw [breakWord]
    split <;> split <;> exact List.cons_ne_nil _ _

theorem flatten_breakWord (width taken : Nat) (word : List Char) :
    (breakWord width taken word).flatten = word := by
  induction word generalizing taken with
  | nil => rfl
  | cons c cs ih =>
    rw [breakWord]
    split
    · have hcs := ih (taken + cellWidth c)
      split
      · rename_i part parts heq
        rw [heq] at hcs
        rw [List.flatten_cons, List.cons_append, ← List.flatten_cons, hcs]
      · rename_i heq
        exact absurd heq (breakWord_ne_nil _ _ _)
    · have hcs := ih (cellWidth c)
      split
      · rename_i part parts heq
        rw [heq] at hcs
        rw [List.flatten_cons, List.nil_append, List.flatten_cons, List.cons_append,
          ← List.flatten_cons, hcs]
      · rename_i heq
        exact absurd heq (breakWord_ne_nil _ _ _)

/-- The parts of a word fit, the first one behind the cells that are taken. -/
theorem fits_breakWord (hwidth : 2 ≤ width) (taken : Nat) (htaken : taken ≤ width)
    (word : List Char) : ∃ part parts, breakWord width taken word = part :: parts ∧
      taken + cells part ≤ width ∧ ∀ p ∈ parts, cells p ≤ width := by
  induction word generalizing taken with
  | nil => exact ⟨[], [], rfl, htaken, List.forall_mem_nil _⟩
  | cons c cs ih =>
    have hc := cellWidth_le_two c
    rw [breakWord]
    split
    · rename_i hroom
      obtain ⟨part, parts, heq, hpart, hparts⟩ := ih (taken + cellWidth c) hroom
      rw [heq]
      exact ⟨c :: part, parts, rfl, by rw [cells_cons]; omega, hparts⟩
    · obtain ⟨part, parts, heq, hpart, hparts⟩ := ih (cellWidth c) (by omega)
      rw [heq]
      exact ⟨[], (c :: part) :: parts, rfl, htaken, List.forall_mem_cons.2 ⟨hpart, hparts⟩⟩

/-- The lines that a wide word begins, the last of which goes on. -/
def linesBefore (width : Nat) (line word : List Char) : List (List Char) :=
  if line.isEmpty then (breakWord width 0 word).dropWhile List.isEmpty
  else line :: breakWord width 0 word

theorem flatten_dropWhile_isEmpty (parts : List (List Char)) :
    (parts.dropWhile List.isEmpty).flatten = parts.flatten := by
  induction parts with
  | nil => rfl
  | cons part parts ih =>
    cases part with
    | nil =>
      rw [List.dropWhile_cons_of_pos rfl, ih]
      rfl
    | cons c cs => rw [List.dropWhile_cons_of_neg (by simp)]

theorem flatten_linesBefore (width : Nat) (line word : List Char) :
    (linesBefore width line word).flatten = line ++ word := by
  unfold linesBefore
  cases line with
  | nil => exact (flatten_dropWhile_isEmpty _).trans (flatten_breakWord width 0 word)
  | cons c cs => exact congrArg (c :: cs ++ ·) (flatten_breakWord width 0 word)

theorem fits_linesBefore (word : List Char) (hwidth : 2 ≤ width) (hline : cells (trimEnd line) ≤ width) :
    ∀ l ∈ linesBefore width line word, cells (trimEnd l) ≤ width := by
  obtain ⟨part, parts, heq, hpart, hparts⟩ := fits_breakWord hwidth 0 (Nat.zero_le _) word
  have hall : ∀ l ∈ breakWord width 0 word, cells (trimEnd l) ≤ width := by
    intro l hl
    rw [heq, List.mem_cons] at hl
    refine Nat.le_trans (cells_trimEnd_le l) ?_
    rcases hl with rfl | hl
    · omega
    · exact hparts l hl
  unfold linesBefore
  split
  · exact fun l hl => hall l (List.dropWhile_sublist _ |>.subset hl)
  · exact List.forall_mem_cons.2 ⟨hline, hall⟩

theorem dropLast_append_getLastD (lines : List (List Char)) :
    lines.dropLast.flatten ++ lines.getLastD [] = lines.flatten := by
  rcases List.eq_nil_or_concat lines with rfl | ⟨before, last, rfl⟩
  · rfl
  · simp

/-- The step of the layout: a word stays on the line, begins the next one or is broken. -/
theorem layWords_cons (width : Nat) (line word : List Char) (words : List (List Char)) :
    layWords .fold width line (word :: words) =
      if cells line + cells (trimEnd word) ≤ width then layWords .fold width (line ++ word) words
      else if cells (trimEnd word) ≤ width then line :: layWords .fold width word words
      else (linesBefore width line word).dropLast ++
        layWords .fold width ((linesBefore width line word).getLastD []) words := rfl

/-- Nothing is lost when words are laid on lines. -/
theorem flatten_layWords (width : Nat) (line : List Char) (words : List (List Char)) :
    (layWords .fold width line words).flatten = line ++ words.flatten := by
  induction words generalizing line with
  | nil => rfl
  | cons word words ih =>
    rw [layWords_cons, List.flatten_cons]
    split
    · rw [ih, List.append_assoc]
    · split
      · rw [List.flatten_cons, ih]
      · rw [List.flatten_append, ih, ← List.append_assoc, dropLast_append_getLastD,
          flatten_linesBefore, List.append_assoc]

/-- The lines fit, but for blanks at their ends. -/
theorem fits_layWords (hwidth : 2 ≤ width) (words : List (List Char))
    (hline : cells (trimEnd line) ≤ width) :
    ∀ l ∈ layWords .fold width line words, cells (trimEnd l) ≤ width := by
  induction words generalizing line with
  | nil => exact fun l hl => by rwa [List.mem_singleton.1 hl]
  | cons word words ih =>
    rw [layWords_cons]
    split
    · rename_i hroom
      exact ih (Nat.le_trans (cells_trimEnd_append_le line word) hroom)
    · split
      · rename_i hword
        exact List.forall_mem_cons.2 ⟨hline, ih hword⟩
      · have hbefore := fits_linesBefore word hwidth hline
        refine List.forall_mem_append.2
          ⟨fun l hl => hbefore l ((List.dropLast_sublist _).subset hl), ih ?_⟩
        rcases List.eq_nil_or_concat (linesBefore width line word) with hnil | ⟨before, last, heq⟩
        · rw [hnil]
          exact Nat.zero_le _
        · rw [heq, List.concat_eq_append, List.getLastD_concat]
          exact hbefore last (by simp [heq])

end

/-! ## The screen -/

section
variable {columns : Nat} {cs : List Char} {ls : List (List Char)} {shown : String}

/-- Lines that lose blanks at their ends. -/
theorem wraps_map {f : List Char → List Char} {ls : List (List Char)}
    (h : ∀ l ∈ ls, ∃ gap, isAllBlank gap = true ∧ l = f l ++ gap) :
    Wraps ls.flatten (ls.map f) := by
  induction ls with
  | nil => exact .nil
  | cons l ls ih =>
    rw [List.forall_mem_cons] at h
    obtain ⟨⟨gap, hgap, hl⟩, hls⟩ := h
    have hwraps : Wraps (f l ++ gap ++ ls.flatten) (f l :: ls.map f) := .cons hgap (ih hls)
    rwa [← hl] at hwraps

theorem Wraps.mem (h : Wraps cs ls) {l : List Char} (hl : l ∈ ls) : ∀ c ∈ l, c ∈ cs := by
  induction h with
  | nil => cases hl
  | cons _ _ ih =>
    intro c hc
    rcases List.mem_cons.1 hl with rfl | hl
    · simp [hc]
    · simp [ih hl c hc]

/-- The lines that a text without characters that are dropped is printed on. -/
theorem screenLines_eq (hblanks : PlainBlanks cs) (hkept : Kept cs) :
    screenLines columns cs = (layWords .fold columns [] (cutBeforeWords false cs)).map
      fun l => crop columns (dropBlanksBeyond columns l) := by
  have hfilter : cs.filter (!isDropped ·) = cs :=
    List.filter_eq_self.2 fun c hc => by simp [hkept c hc]
  have hline : '\n' ∉ cs := hblanks.not_mem (by decide) (by decide)
  have htab : '\t' ∉ cs := hblanks.not_mem (by decide) (by decide)
  rw [screenLines, hfilter, pieces_of_not_mem hline, List.flatMap_singleton, wrap,
    fillTabs_of_not_mem htab, List.map_map]
  rfl

/-- A text is shown on the screen as it stands, if its blanks are spaces and none of its
characters is dropped. -/
theorem shownAs_screenLines (hcolumns : 2 ≤ columns) (hblanks : PlainBlanks cs)
    (hkept : Kept cs) :
    ShownAs columns cs (stack (screenLines columns cs)) := by
  have hflatten := flatten_layWords columns [] (cutBeforeWords false cs)
  rw [flatten_cutBeforeWords, List.nil_append] at hflatten
  have hempty : cells (trimEnd []) ≤ columns := Nat.zero_le _
  have hfits := fits_layWords hcolumns (cutBeforeWords false cs) hempty
  have hwraps := wraps_map fun l hl =>
    exists_gap_of_fits (fun c hc => hblanks c (hflatten ▸ List.mem_flatten_of_mem hl hc))
      (hfits l hl)
  rw [hflatten] at hwraps
  refine ⟨_, rfl, screenLines_eq hblanks hkept ▸ hwraps, fun line hl => ?_⟩
  rw [screenLines_eq hblanks hkept] at hl
  refine ⟨fun hmem => hblanks.not_mem (by decide) (by decide) (hwraps.mem hl _ hmem), ?_⟩
  obtain ⟨l, -, rfl⟩ := List.mem_map.1 hl
  exact cells_crop_le _ _

/-! ## What shows -/

section
variable {p : Char → Bool} (hp : ∀ c, isBlank c = true → p c = false)
include hp

theorem countP_eq_zero (h : isAllBlank cs = true) : cs.countP p = 0 := by
  rw [List.countP_eq_zero]
  intro c hc
  rw [hp c (List.all_eq_true.1 h c hc)]
  exact Bool.false_ne_true

theorem Wraps.countP_eq (h : Wraps cs ls) : cs.countP p = ls.flatten.countP p := by
  induction h with
  | nil => rfl
  | cons hgap _ ih =>
    rw [List.flatten_cons, List.countP_append, List.countP_append, List.countP_append, ih,
      countP_eq_zero hp hgap, Nat.add_zero]

theorem countP_stack (ls : List (List Char)) :
    (stack ls).toList.countP p = ls.flatten.countP p := by
  rw [stack, String.toList_ofList]
  induction ls with
  | nil => rfl
  | cons l ls ih =>
    have hline : ['\n'].countP p = 0 := countP_eq_zero hp (by decide)
    rw [List.flatMap_cons, List.flatten_cons, List.countP_append, List.countP_append,
      List.countP_append, ih, hline, Nat.add_zero]

/-- As many characters of a kind show as the text has, if blanks are not of that kind. -/
theorem ShownAs.countP_eq (h : ShownAs columns cs shown) :
    shown.toList.countP p = cs.countP p := by
  obtain ⟨ls, rfl, hwraps, -⟩ := h
  rw [countP_stack hp, hwraps.countP_eq hp]

/-- On the screen characters are lost only if they are dropped. -/
theorem countP_screenLines (hcolumns : 2 ≤ columns) (hblanks : PlainBlanks cs) :
    (stack (screenLines columns cs)).toList.countP p = (cs.filter (!isDropped ·)).countP p := by
  have hscreen : screenLines columns cs = screenLines columns (cs.filter (!isDropped ·)) := by
    rw [screenLines, screenLines, List.filter_filter]
    simp only [Bool.and_self]
  rw [hscreen]
  refine (shownAs_screenLines hcolumns (fun c hc => hblanks c (List.mem_filter.1 hc).1)
    fun c hc => ?_).countP_eq hp
  simpa using (List.mem_filter.1 hc).2

end

/-- The number of characters of a text that are not blank. -/
def ink (cs : List Char) : Nat := cs.countP (!isBlank ·)

def colons (cs : List Char) : Nat := cs.countP (· == ':')

@[simp] theorem ink_nil : ink [] = 0 := rfl

@[simp] theorem colons_nil : colons [] = 0 := rfl

@[simp] theorem ink_append (cs ds : List Char) : ink (cs ++ ds) = ink cs + ink ds :=
  List.countP_append

@[simp] theorem colons_append (cs ds : List Char) : colons (cs ++ ds) = colons cs + colons ds :=
  List.countP_append

theorem ink_cons (c : Char) (cs : List Char) :
    ink (c :: cs) = ink cs + if isBlank c then 0 else 1 := by
  rw [ink, List.countP_cons]
  cases isBlank c <;> rfl

theorem not_colon_of_isBlank (c : Char) (h : isBlank c = true) : (c == ':') = false := by
  rw [beq_eq_false_iff_ne]
  rintro rfl
  revert h
  decide

theorem ShownAs.ink_eq (h : ShownAs columns cs shown) : ink shown.toList = ink cs :=
  h.countP_eq fun _ hc => by rw [hc]; rfl

theorem ShownAs.colons_eq (h : ShownAs columns cs shown) : colons shown.toList = colons cs :=
  h.countP_eq not_colon_of_isBlank

theorem ink_screenLines (hcolumns : 2 ≤ columns) (hblanks : PlainBlanks cs) :
    ink (stack (screenLines columns cs)).toList = ink (cs.filter (!isDropped ·)) :=
  countP_screenLines (fun _ hc => by rw [hc]; rfl) hcolumns hblanks

/-- No colon is lost on the screen. -/
theorem colons_screenLines (hcolumns : 2 ≤ columns) (hblanks : PlainBlanks cs) :
    colons (stack (screenLines columns cs)).toList = colons cs := by
  refine (countP_screenLines not_colon_of_isBlank hcolumns hblanks).trans ?_
  rw [List.countP_filter, colons]
  refine List.countP_congr fun c _ => ?_
  rw [Bool.and_eq_true, and_iff_left_of_imp]
  intro hc
  rw [beq_iff_eq.1 hc]
  decide

end

end CronFire.Terminal
