import CronFire.Proofs.Text.Joined
import CronFire.Text.Fill
import Mathlib.Data.List.Flatten
/-!
# What filled lines keep

A text is flattened, cut into chunks and laid on lines.  Tabs and line ends become spaces, and
blank chunks are dropped where a line begins or ends.  Nothing else is changed, so the lines hold
the characters of the text that are not blank, in their order.  A line is as wide as asked for, or
holds one character if that is no width at all.

Results:
* `layLines_induction`: what every line keeps is kept by all of them.
* `withoutBlanks_fill`: the lines keep all that is not blank.
* `length_le_of_mem_fill`, `newline_not_mem_fill`: how long a line is, and that it is one.
-/
namespace CronFire.Text

/-! ## The characters that are not blank -/

def withoutBlanks (cs : List Char) : List Char := cs.filter (!isBlank ·)

@[simp] theorem withoutBlanks_append (cs ds : List Char) :
    withoutBlanks (cs ++ ds) = withoutBlanks cs ++ withoutBlanks ds := List.filter_append cs ds

theorem withoutBlanks_eq_nil {cs : List Char} (h : ∀ c ∈ cs, isBlank c = true) :
    withoutBlanks cs = [] := by
  rw [withoutBlanks, List.filter_eq_nil_iff]
  intro c hc
  simp [h c hc]

theorem withoutBlanks_of_allBlank {cs : List Char} (h : isAllBlank cs = true) :
    withoutBlanks cs = [] := withoutBlanks_eq_nil (List.all_eq_true.1 h)

theorem withoutBlanks_cons (c : Char) (cs : List Char) :
    withoutBlanks (c :: cs) = withoutBlanks [c] ++ withoutBlanks cs :=
  withoutBlanks_append [c] cs

theorem withoutBlanks_trim (cs : List Char) : withoutBlanks (trim cs) = withoutBlanks cs := by
  obtain ⟨after, hafter, hblank⟩ := exists_eq_trimEnd_append (trimStart cs)
  have hbefore : withoutBlanks (cs.takeWhile isBlank) = [] :=
    withoutBlanks_of_allBlank List.all_takeWhile
  symm
  calc withoutBlanks cs
      = withoutBlanks (cs.takeWhile isBlank ++ trimStart cs) :=
        congrArg withoutBlanks List.takeWhile_append_dropWhile.symm
    _ = withoutBlanks (trimStart cs) := by rw [withoutBlanks_append, hbefore, List.nil_append]
    _ = withoutBlanks (trim cs ++ after) := congrArg withoutBlanks hafter
    _ = withoutBlanks (trim cs) := by
        rw [withoutBlanks_append, withoutBlanks_eq_nil hblank, List.append_nil]

theorem isBlank_of_isAsciiSpace {c : Char} (h : isAsciiSpace c = true) : isBlank c = true := by
  simp only [isAsciiSpace, Bool.or_eq_true, decide_eq_true_eq, Bool.and_eq_true] at h
  rcases h with rfl | h
  · decide
  · simp [isBlank, h]

theorem withoutBlanks_expandTabs (size column : Nat) (cs : List Char) :
    withoutBlanks (expandTabs size column cs) = withoutBlanks cs := by
  induction cs generalizing column with
  | nil => rfl
  | cons c cs ih =>
    have htab : withoutBlanks ['\t'] = [] := by decide
    simp only [expandTabs]
    split
    · rename_i hc
      have hfill : withoutBlanks (List.replicate (size - column % size) ' ') = [] :=
        withoutBlanks_eq_nil fun d hd => by rw [List.eq_of_mem_replicate hd]; decide
      rw [withoutBlanks_append, hfill, ih, withoutBlanks_cons c, hc, htab]
    · rw [withoutBlanks_cons, ih, ← withoutBlanks_cons]

/-- Flattening changes blanks only. -/
theorem withoutBlanks_flattenLines (cs : List Char) :
    withoutBlanks (flattenLines cs) = withoutBlanks cs := by
  rw [flattenLines, ← withoutBlanks_expandTabs 8 0 cs]
  induction expandTabs 8 0 cs with
  | nil => rfl
  | cons c cs ih =>
    rw [List.map_cons, withoutBlanks_cons, withoutBlanks_cons c, ih]
    congr 1
    split
    · rename_i hc
      have hblank : withoutBlanks [c] = [] :=
        withoutBlanks_of_allBlank (by simp [isAllBlank, isBlank_of_isAsciiSpace hc])
      rw [hblank]
      decide
    · rfl

theorem newline_not_mem_flattenLines (cs : List Char) : '\n' ∉ flattenLines cs := by
  rw [flattenLines, List.mem_map]
  rintro ⟨c, -, hc⟩
  split at hc
  · exact absurd hc (by decide)
  · rename_i hspace
    subst hc
    exact hspace (by decide)

/-! ## One line -/

section
variable {width : Nat} {chunks : List (List Char)}

/-- The columns that are left on a line for a chunk that has to be cut. -/
def roomLeft (width : Nat) (taken : List (List Char)) : Nat :=
  if width = 0 then 1 else width - taken.flatten.length

/-- A line takes what fits, and then the start of the next chunk if that is wider than a line. -/
theorem layLine_cases (width : Nat) (chunks : List (List Char)) :
    layLine width chunks = takeFitting width chunks ∨
    ∃ chunk rest place, (takeFitting width chunks).2 = chunk :: rest ∧ width < chunk.length ∧
      place = cutPlace (roomLeft width (takeFitting width chunks).1) chunk ∧
      layLine width chunks =
        ((takeFitting width chunks).1 ++ [chunk.take place], chunk.drop place :: rest) := by
  rw [layLine]
  split
  · rename_i taken chunk rest heq
    rw [heq]
    split
    · rename_i hwide
      exact .inr ⟨chunk, rest, _, rfl, hwide, rfl, rfl⟩
    · exact .inl rfl
  · rename_i taken heq
    exact .inl heq.symm

/-- A line is cut off the chunks. -/
theorem flatten_layLine (width : Nat) (chunks : List (List Char)) :
    (layLine width chunks).1.flatten ++ (layLine width chunks).2.flatten = chunks.flatten := by
  have happ := congrArg List.flatten (append_takeFitting width chunks)
  rw [List.flatten_append] at happ
  rcases layLine_cases width chunks with heq | ⟨chunk, rest, place, hrest, -, -, heq⟩
  · rw [heq, happ]
  · rw [hrest, List.flatten_cons] at happ
    rw [heq, ← happ]
    simp only [List.flatten_append, List.flatten_cons, List.flatten_nil, List.append_nil,
      List.append_assoc]
    rw [← List.append_assoc (chunk.take place), List.take_append_drop]

theorem length_flatten_takeFitting_le (room : Nat) (chunks : List (List Char)) :
    (takeFitting room chunks).1.flatten.length ≤ room := by
  induction chunks generalizing room with
  | nil => exact Nat.zero_le room
  | cons chunk chunks ih =>
    simp only [takeFitting]
    split
    · have := ih (room - chunk.length)
      simp only [List.flatten_cons, List.length_append]
      omega
    · exact Nat.zero_le room

theorem lastIndex?_lt {c : Char} {cs : List Char} {i : Nat} (h : lastIndex? c cs = some i) :
    i < cs.length := by
  induction cs generalizing i with
  | nil => cases h
  | cons d cs ih =>
    simp only [lastIndex?] at h
    split at h
    · rename_i j hj
      cases h
      simpa using ih hj
    · split at h
      · cases h
        simp
      · cases h

theorem cutPlace_le (room : Nat) (chunk : List Char) : cutPlace room chunk ≤ room := by
  unfold cutPlace
  split
  · exact Nat.le_refl room
  · split
    · exact Nat.le_refl room
    · rename_i i hi
      have h1 := lastIndex?_lt hi
      have h2 := List.length_take_le room chunk
      split <;> omega

/-- A line fits the width, or holds one character if there is no width. -/
theorem length_flatten_layLine_le (width : Nat) (chunks : List (List Char)) :
    (layLine width chunks).1.flatten.length ≤ max width 1 := by
  have hfit := length_flatten_takeFitting_le width chunks
  rcases layLine_cases width chunks with heq | ⟨chunk, rest, place, -, -, hplace, heq⟩
  · rw [heq]
    omega
  · have hcut := cutPlace_le (roomLeft width (takeFitting width chunks).1) chunk
    have htake := List.length_take_le place chunk
    rw [← hplace, roomLeft] at hcut
    rw [heq]
    simp only [List.flatten_append, List.flatten_cons, List.flatten_nil, List.append_nil,
      List.length_append]
    split at hcut <;> omega

end

/-! ## The lines -/

section
variable {width : Nat} {started : Bool} {chunks : List (List Char)}

theorem withoutBlanks_dropLastBlank (line : List (List Char)) :
    withoutBlanks (dropLastBlank line).flatten = withoutBlanks line.flatten := by
  unfold dropLastBlank
  rcases List.eq_nil_or_concat line with rfl | ⟨before, last, rfl⟩
  · rfl
  · rw [List.concat_eq_append, List.getLast?_concat, Option.any_some, List.dropLast_concat]
    split
    · rename_i hblank
      rw [List.flatten_append, List.flatten_singleton, withoutBlanks_append,
        withoutBlanks_of_allBlank hblank, List.append_nil]
    · rfl

theorem withoutBlanks_dropFirstBlank (chunks : List (List Char)) :
    withoutBlanks (dropFirstBlank chunks).flatten = withoutBlanks chunks.flatten := by
  cases chunks with
  | nil => rfl
  | cons chunk chunks =>
    rw [dropFirstBlank]
    split
    · rename_i hblank
      rw [List.flatten_cons, withoutBlanks_append, withoutBlanks_of_allBlank hblank,
        List.nil_append]
    · rfl

theorem dropLastBlank_sublist (line : List (List Char)) : (dropLastBlank line).Sublist line := by
  unfold dropLastBlank
  split
  · exact List.dropLast_sublist line
  · exact List.Sublist.refl line

/-- What a line is laid from: a blank chunk is dropped if a line stands before it. -/
def lineStart (started : Bool) (chunks : List (List Char)) : List (List Char) :=
  if started then dropFirstBlank chunks else chunks

theorem withoutBlanks_lineStart (started : Bool) (chunks : List (List Char)) :
    withoutBlanks (lineStart started chunks).flatten = withoutBlanks chunks.flatten := by
  cases started with
  | true => exact withoutBlanks_dropFirstBlank chunks
  | false => rfl

theorem lineStart_cases (started : Bool) (chunks : List (List Char)) :
    lineStart started chunks = chunks ∨ lineStart started chunks = chunks.tail := by
  cases started with
  | false => exact .inl rfl
  | true =>
    cases chunks with
    | nil => exact .inl rfl
    | cons chunk more =>
      rw [lineStart, if_pos rfl, dropFirstBlank]
      split
      · exact .inr rfl
      · exact .inl rfl

theorem lineStart_sublist (started : Bool) (chunks : List (List Char)) :
    (lineStart started chunks).Sublist chunks := by
  rcases lineStart_cases started chunks with heq | heq
  · simp only [heq, List.Sublist.refl]
  · simp only [heq, List.tail_sublist]

theorem weight_lineStart_le (started : Bool) (chunks : List (List Char)) :
    weight (lineStart started chunks) ≤ weight chunks := by
  cases started with
  | true => exact weight_dropFirstBlank_le chunks
  | false => exact Nat.le_refl _

/-- The chunks of the next line, without blank ones at its ends, and the rest. -/
def nextLine (width : Nat) (started : Bool) (chunks : List (List Char)) :
    List (List Char) × List (List Char) :=
  (dropLastBlank (layLine width (lineStart started chunks)).1,
    (layLine width (lineStart started chunks)).2)

/-- A line and those after it.  A line without any chunk is left out. -/
def putBefore (line : List (List Char)) (lines : List (List Char)) : List (List Char) :=
  if line = [] then lines else line.flatten :: lines

theorem flatten_putBefore (line lines : List (List Char)) :
    (putBefore line lines).flatten = line.flatten ++ lines.flatten := by
  unfold putBefore
  split
  · rename_i hline
    rw [hline, List.flatten_nil, List.nil_append]
  · exact List.flatten_cons

theorem layLines_nil (width : Nat) (started : Bool) : layLines width started [] = [] := by
  cases started <;> rw [layLines] <;> simp [dropFirstBlank]

theorem layLines_eq (width : Nat) (started : Bool) (chunks : List (List Char)) :
    layLines width started chunks = putBefore (nextLine width started chunks).1
      (layLines width (started || (nextLine width started chunks).1 ≠ [])
        (nextLine width started chunks).2) := by
  rw [layLines]
  split
  · rename_i hempty
    have hnext : nextLine width started chunks = ([], []) := by
      rw [nextLine, lineStart, hempty]
      rfl
    rw [hnext, layLines_nil]
    rfl
  · rename_i chunk more hstart
    have hnext : nextLine width started chunks =
        (dropLastBlank (layLine width (chunk :: more)).1, (layLine width (chunk :: more)).2) := by
      rw [nextLine, lineStart, hstart]
    rw [hnext]
    split
    · rename_i hline
      simp [putBefore, hline]
    · rename_i line hline
      have hmade : dropLastBlank (layLine width (chunk :: more)).1 ≠ [] := hline
      rw [putBefore, if_neg hmade, decide_eq_true hmade, Bool.or_true]

/-- A line takes something from the chunks, or the blank chunk before it was the last. -/
theorem weight_nextLine_lt (width : Nat) (started : Bool) (h : chunks ≠ []) :
    weight (nextLine width started chunks).2 < weight chunks := by
  rw [nextLine]
  by_cases hempty : lineStart started chunks = []
  · obtain ⟨chunk, more, rfl⟩ := List.exists_cons_of_ne_nil h
    rw [hempty, weight_cons]
    simp only [layLine, takeFitting, weight_nil]
    omega
  · exact Nat.lt_of_lt_of_le (weight_layLine_lt hempty) (weight_lineStart_le started chunks)

/-- What holds without chunks, and is kept by every line, holds of the chunks and their lines. -/
theorem layLines_induction {P : List (List Char) → List (List Char) → Prop} (nil : P [] [])
    (line : ∀ started chunks lines, P (nextLine width started chunks).2 lines →
      P chunks (putBefore (nextLine width started chunks).1 lines))
    (started : Bool) (chunks : List (List Char)) : P chunks (layLines width started chunks) := by
  by_cases h : chunks = []
  · rw [h, layLines_nil]
    exact nil
  · have := weight_nextLine_lt width started h
    rw [layLines_eq]
    exact line started chunks _ (layLines_induction nil line _ _)
termination_by weight chunks

/-- The lines are within the chunks. -/
theorem flatten_layLines_sublist :
    (layLines width started chunks).flatten.Sublist chunks.flatten := by
  refine layLines_induction (P := fun chunks lines => lines.flatten.Sublist chunks.flatten)
    (List.Sublist.refl _) (fun started chunks lines ih => ?_) started chunks
  have hline : (putBefore (nextLine width started chunks).1 lines).flatten.Sublist
      (lineStart started chunks).flatten := by
    rw [flatten_putBefore, ← flatten_layLine width (lineStart started chunks)]
    exact (dropLastBlank_sublist _).flatten.append ih
  exact hline.trans (lineStart_sublist started chunks).flatten

/-- The lines hold all of the chunks that is not blank. -/
theorem withoutBlanks_layLines :
    withoutBlanks (layLines width started chunks).flatten = withoutBlanks chunks.flatten := by
  refine layLines_induction
    (P := fun chunks lines => withoutBlanks lines.flatten = withoutBlanks chunks.flatten)
    rfl (fun started chunks lines ih => ?_) started chunks
  calc withoutBlanks (putBefore (nextLine width started chunks).1 lines).flatten
      = withoutBlanks (nextLine width started chunks).1.flatten ++ withoutBlanks lines.flatten := by
        rw [flatten_putBefore, withoutBlanks_append]
    _ = withoutBlanks (layLine width (lineStart started chunks)).1.flatten ++
          withoutBlanks (layLine width (lineStart started chunks)).2.flatten := by
        rw [ih, nextLine, withoutBlanks_dropLastBlank]
    _ = withoutBlanks chunks.flatten := by
        rw [← withoutBlanks_append, flatten_layLine, withoutBlanks_lineStart]

theorem length_le_of_mem_layLines :
    ∀ line ∈ layLines width started chunks, line.length ≤ max width 1 := by
  refine layLines_induction (P := fun _ lines => ∀ line ∈ lines, line.length ≤ max width 1)
    (List.forall_mem_nil _) (fun started chunks lines ih => ?_) started chunks
  unfold putBefore
  split
  · exact ih
  · exact List.forall_mem_cons.2 ⟨Nat.le_trans (dropLastBlank_sublist _).flatten.length_le
      (length_flatten_layLine_le width _), ih⟩

end

/-! ## Filled texts -/

section
variable (width : Nat) (cs : List Char)

/-- The lines hold all of the text that is not blank. -/
theorem withoutBlanks_fill : withoutBlanks (fill width cs).flatten = withoutBlanks cs := by
  rw [fill, withoutBlanks_layLines, flatten_chunks, withoutBlanks_flattenLines]

theorem length_le_of_mem_fill : ∀ line ∈ fill width cs, line.length ≤ max width 1 :=
  length_le_of_mem_layLines

theorem newline_not_mem_fill : ∀ line ∈ fill width cs, '\n' ∉ line := by
  intro line hline hmem
  have hflat : '\n' ∈ (chunks (flattenLines cs)).flatten :=
    flatten_layLines_sublist.mem (List.mem_flatten_of_mem hline hmem)
  rw [flatten_chunks] at hflat
  exact newline_not_mem_flattenLines cs hflat

end

end CronFire.Text
