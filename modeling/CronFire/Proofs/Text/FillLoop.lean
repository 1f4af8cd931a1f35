import CronFire.Proofs.Text.Filled
/-!
# The loop that fills lines ends

The filling of a text can be told as a loop that has no bound, with a width that may be negative.
On such a width not even an empty chunk fits.  A chunk that is cut leaves an empty one behind when
all of it was taken, and only the dropping of blanks before a line removes that one: without a line
before it the loop would lay it down again and again.  A text that does not begin with a blank makes
a line in the first turn, so this does not happen.

Results:
* `layInto_eq`: one line, on a width that may be negative.
* `Filling.Sound.turn`, `Filling.Sound.ends`: what a turn keeps, and that the loop ends.
* `not_ends_of_empty`: where it would not end.
* `ends_fill`: the loop ends with the lines of `fill`.
-/
namespace CronFire.Text

/-! ## Widths below zero -/

/-- The chunks that fit into some columns, or into less than none, and the rest. -/
def takeInto : (room : Int) → List (List Char) → List (List Char) × List (List Char)
  | _, [] => ([], [])
  | room, chunk :: chunks =>
    if chunk.length ≤ room then
      let (taken, rest) := takeInto (room - chunk.length) chunks
      (chunk :: taken, rest)
    else ([], chunk :: chunks)

/-- The chunks of one line, of which the width may be negative, and the rest. -/
def layInto (width : Int) (chunks : List (List Char)) : List (List Char) × List (List Char) :=
  match takeInto width chunks with
  | (taken, chunk :: rest) =>
    if width < chunk.length then
      let room := if width < 1 then 1 else (width - taken.flatten.length).toNat
      let place := cutPlace room chunk
      (taken ++ [chunk.take place], chunk.drop place :: rest)
    else (taken, chunk :: rest)
  | (taken, []) => (taken, [])

theorem takeInto_natCast (room : Nat) (chunks : List (List Char)) :
    takeInto room chunks = takeFitting room chunks := by
  induction chunks generalizing room with
  | nil => rfl
  | cons chunk chunks ih =>
    simp only [takeInto, takeFitting]
    by_cases hfit : chunk.length ≤ room
    · rw [if_pos hfit, if_pos (Int.ofNat_le.2 hfit), ← Int.ofNat_sub hfit, ih]
    · rw [if_neg hfit, if_neg (by omega)]

theorem takeInto_of_neg {room : Int} (h : room < 0) (chunks : List (List Char)) :
    takeInto room chunks = ([], chunks) := by
  cases chunks with
  | nil => rfl
  | cons chunk chunks => rw [takeInto, if_neg (by omega)]

/-- A negative width is like no width, unless the first chunk is empty. -/
theorem layInto_eq (width : Int) {chunks : List (List Char)} (h : chunks.head? ≠ some []) :
    layInto width chunks = layLine width.toNat chunks := by
  by_cases hneg : width < 0
  · cases chunks with
    | nil => rw [layInto, takeInto, layLine, takeFitting]
    | cons chunk chunks =>
      have hlength : 0 < chunk.length := List.length_pos_iff.2 fun hnil => h (by rw [hnil]; rfl)
      rw [Int.toNat_of_nonpos (by omega), layInto, takeInto_of_neg hneg, layLine, takeFitting,
        if_neg (by omega)]
      simp only [if_pos (show width < chunk.length by omega), if_pos (show width < 1 by omega),
        if_pos hlength, if_true]
  · obtain ⟨n, rfl⟩ := Int.eq_ofNat_of_zero_le (Int.not_lt.1 hneg)
    rw [Int.toNat_natCast, layInto, takeInto_natCast, layLine]
    rcases takeFitting n chunks with ⟨taken, _ | ⟨chunk, rest⟩⟩
    · rfl
    · have hroom : (if (n : Int) < 1 then 1 else ((n : Int) - taken.flatten.length).toNat) =
          if n = 0 then 1 else n - taken.flatten.length := by
        split <;> split <;> omega
      simp only [hroom, Int.ofNat_lt]

/-! ## Chunks that are not empty -/

section
variable {width : Nat} {chunks : List (List Char)}

/-- The first chunk gives the line its beginning. -/
theorem flatten_layLine_ne_nil {chunk : List Char} (h : chunk ≠ []) :
    (layLine width (chunk :: chunks)).1.flatten ≠ [] := by
  have hlength := List.length_pos_iff.2 h
  by_cases hfit : chunk.length ≤ width
  · have htaken : (takeFitting width (chunk :: chunks)).1 =
        chunk :: (takeFitting (width - chunk.length) chunks).1 := by
      rw [takeFitting, if_pos hfit]
    rcases layLine_cases width (chunk :: chunks) with heq | ⟨_, _, _, -, -, -, heq⟩ <;>
      simp [heq, htaken, h]
  · have hnone : takeFitting width (chunk :: chunks) = ([], chunk :: chunks) := by
      rw [takeFitting, if_neg hfit]
    have hcut : (layLine width (chunk :: chunks)).1 =
        [chunk.take (cutPlace (roomLeft width []) chunk)] := by
      rw [layLine, hnone]
      exact congrArg Prod.fst (if_pos (Nat.not_le.1 hfit))
    have hplace : 0 < cutPlace (roomLeft width []) chunk := by
      refine cutPlace_pos ?_
      rw [roomLeft, List.flatten_nil, List.length_nil, Nat.sub_zero]
      split <;> omega
    rw [hcut, List.flatten_singleton]
    exact List.ne_nil_of_length_pos (by rw [List.length_take]; omega)

/-- Behind the chunk that a line leaves first there are only chunks that were not the first. -/
theorem mem_tail_layLine {chunk : List Char} (h : chunk ∈ (layLine width chunks).2.tail) :
    chunk ∈ chunks.tail := by
  have happ := append_takeFitting width chunks
  have htail : (layLine width chunks).2.tail = (takeFitting width chunks).2.tail := by
    rcases layLine_cases width chunks with heq | ⟨_, _, _, hrest, -, -, heq⟩
    · rw [heq]
    · rw [heq, hrest]
      rfl
  rw [htail] at h
  rw [← happ]
  cases (takeFitting width chunks).1 with
  | nil => exact h
  | cons _ taken => exact List.mem_append_right taken (List.mem_of_mem_tail h)

theorem mem_tail_lineStart {started : Bool} {chunk : List Char}
    (h : chunk ∈ (lineStart started chunks).tail) : chunk ∈ chunks.tail := by
  rcases lineStart_cases started chunks with heq | heq <;> rw [heq] at h
  · exact h
  · exact List.mem_of_mem_tail h

end

theorem putBefore_eq (line lines : List (List Char)) :
    putBefore line lines = putBefore line [] ++ lines := by
  unfold putBefore
  split <;> rfl

theorem putBefore_nil_eq_nil {line : List (List Char)} : putBefore line [] = [] ↔ line = [] := by
  simp [putBefore]

/-! ## The loop -/

/-- The lines that are done, and the chunks that are left. -/
structure Filling where
  lines : List (List Char)
  left : List (List Char)
  deriving DecidableEq, Repr

namespace Filling
variable {width : Int} {f : Filling}

/-- A turn of the loop lays a line. -/
def turn (width : Int) (f : Filling) : Filling :=
  let laid := layInto width (lineStart (f.lines ≠ []) f.left)
  ⟨f.lines ++ putBefore (dropLastBlank laid.1) [], laid.2⟩

/-- The loop turns as long as chunks are left, and ends with some lines. -/
inductive Ends (width : Int) : Filling → List (List Char) → Prop where
  | done {f : Filling} (h : f.left = []) : Ends width f f.lines
  | turn {f : Filling} {lines : List (List Char)} (h : f.left ≠ [])
      (rest : Ends width (f.turn width) lines) : Ends width f lines

theorem Ends.unique {lines others : List (List Char)} (h : Ends width f lines)
    (h' : Ends width f others) : others = lines := by
  induction h with
  | done hleft =>
    cases h' with
    | done => rfl
    | turn hmore => exact absurd hleft hmore
  | turn hmore _ ih =>
    cases h' with
    | done hleft => exact absurd hleft hmore
    | turn _ rest => exact ih rest

/-- On a negative width an empty chunk that no line stands before is laid down for ever. -/
theorem not_ends_of_empty (h : width < 0) (chunks lines : List (List Char)) :
    ¬ Ends width ⟨[], [] :: chunks⟩ lines := by
  have hsame : Filling.turn width ⟨[], [] :: chunks⟩ = ⟨[], [] :: chunks⟩ := by
    have hlaid : layInto width ([] :: chunks) = ([[]], [] :: chunks) := by
      rw [layInto, takeInto_of_neg h]
      exact (if_pos h).trans (by simp only [List.take_nil, List.drop_nil, List.nil_append])
    have hstart : lineStart (([] : List (List Char)) ≠ []) ([] :: chunks) = [] :: chunks := rfl
    rw [Filling.turn, hstart, hlaid]
    rfl
  intro hends
  generalize hf : (⟨[], [] :: chunks⟩ : Filling) = f at hends
  induction hends with
  | done hleft =>
    subst hf
    cases hleft
  | turn _ _ ih =>
    subst hf
    exact ih hsame.symm

/-- Only the first of the chunks that are left may be empty, and not before there is a line: then
it begins with something that is not blank. -/
structure Sound (f : Filling) : Prop where
  more : ∀ chunk ∈ f.left.tail, chunk ≠ []
  first : f.lines = [] → ∀ chunk ∈ f.left.head?, ∃ c cs, chunk = c :: cs ∧ isBlank c = false

/-- The chunks that a line is laid from do not begin with an empty one. -/
theorem Sound.head?_lineStart (h : f.Sound) :
    (lineStart (f.lines ≠ []) f.left).head? ≠ some [] := by
  intro hhead
  by_cases hlines : f.lines = []
  · rw [decide_eq_false (not_not_intro hlines)] at hhead
    obtain ⟨c, cs, hchunk, -⟩ := h.first hlines [] hhead
    cases hchunk
  · rw [decide_eq_true hlines, lineStart, if_pos rfl] at hhead
    have hmore := h.more
    cases hleft : f.left with
    | nil =>
      rw [hleft] at hhead
      cases hhead
    | cons chunk more =>
      rw [hleft, List.tail_cons] at hmore
      rw [hleft, dropFirstBlank] at hhead
      split at hhead
      · exact hmore [] (List.mem_of_mem_head? hhead) rfl
      · rename_i hblank
        cases hhead
        exact hblank rfl

theorem Sound.turn_eq (h : f.Sound) :
    f.turn width = ⟨f.lines ++ putBefore (nextLine width.toNat (f.lines ≠ []) f.left).1 [],
      (nextLine width.toNat (f.lines ≠ []) f.left).2⟩ := by
  rw [Filling.turn, layInto_eq width h.head?_lineStart]
  rfl

/-- The first turn makes a line. -/
theorem Sound.nextLine_ne_nil (h : f.Sound) (hleft : f.left ≠ []) (hlines : f.lines = [])
    (width : Nat) : (nextLine width false f.left).1 ≠ [] := by
  obtain ⟨chunk, more, hcons⟩ := List.exists_cons_of_ne_nil hleft
  obtain ⟨c, cs, rfl, hc⟩ := h.first hlines chunk (by rw [hcons]; rfl)
  intro hnone
  have hblank := withoutBlanks_dropLastBlank (layLine width f.left).1
  have happ := flatten_layLine width f.left
  rw [show dropLastBlank (layLine width f.left).1 = [] from hnone, hcons] at hblank
  rw [hcons] at happ
  cases hline : (layLine width ((c :: cs) :: more)).1.flatten with
  | nil => exact flatten_layLine_ne_nil (List.cons_ne_nil c cs) hline
  | cons d ds =>
    rw [hline] at happ hblank
    obtain rfl : d = c := (List.cons.inj happ).1
    simp [withoutBlanks, hc] at hblank

theorem Sound.turn (width : Int) (h : f.Sound) (hleft : f.left ≠ []) : (f.turn width).Sound := by
  rw [h.turn_eq]
  constructor
  case more =>
    intro chunk hchunk
    exact h.more chunk (mem_tail_lineStart (mem_tail_layLine hchunk))
  case first =>
    intro hnone
    obtain ⟨hlines, hline⟩ := List.append_eq_nil_iff.1 hnone
    rw [putBefore_nil_eq_nil, decide_eq_false (not_not_intro hlines)] at hline
    exact absurd hline (h.nextLine_ne_nil hleft hlines width.toNat)

/-- The loop goes on to the lines of the chunks that are left. -/
theorem Sound.ends (width : Int) {f : Filling} (h : f.Sound) :
    Ends width f (f.lines ++ layLines width.toNat (f.lines ≠ []) f.left) := by
  by_cases hleft : f.left = []
  · rw [hleft, layLines_nil, List.append_nil]
    exact .done hleft
  · have hless := weight_nextLine_lt width.toNat (f.lines ≠ []) hleft
    have hrest := Sound.ends width (h.turn width hleft)
    have hstarted : decide ((f.turn width).lines ≠ []) = (decide (f.lines ≠ []) ||
        decide ((nextLine width.toNat (f.lines ≠ []) f.left).1 ≠ [])) := by
      rw [h.turn_eq]
      simp [putBefore_nil_eq_nil]
    rw [hstarted, h.turn_eq] at hrest
    rw [layLines_eq, putBefore_eq, ← List.append_assoc]
    exact .turn hleft (h.turn_eq ▸ hrest)
termination_by weight f.left
decreasing_by
  rw [h.turn_eq]
  exact hless

end Filling

/-! ## Texts -/

/-- A text that does not begin with a blank does not, flattened, either. -/
theorem head?_flattenLines {c : Char} (cs : List Char) (hc : isBlank c = false) :
    (flattenLines (c :: cs)).head? = some c := by
  have htab : c ≠ '\t' := fun h => by subst h; exact absurd hc (by decide)
  have hspace : isAsciiSpace c = false := by
    rw [← Bool.not_eq_true]
    exact fun h => absurd (isBlank_of_isAsciiSpace h) (by simp [hc])
  rw [flattenLines, expandTabs, if_neg htab]
  simp [hspace]

theorem isBlank_head?_trim (cs : List Char) : ∀ c ∈ (trim cs).head?, isBlank c = false := by
  intro c hc
  obtain ⟨after, hafter, -⟩ := exists_eq_trimEnd_append (trimStart cs)
  obtain ⟨more, hmore⟩ := List.head?_eq_some_iff.1 hc
  have hstart := List.head?_dropWhile_not isBlank cs
  rw [← trimStart, hafter, ← trim, hmore] at hstart
  exact hstart

/-- A text without blanks before it is filled by a loop that ends. -/
theorem ends_fill (width : Int) {cs : List Char} (h : ∀ c ∈ cs.head?, isBlank c = false) :
    Filling.Ends width ⟨[], chunks (flattenLines cs)⟩ (fill width.toNat cs) := by
  refine Filling.Sound.ends width (f := ⟨[], chunks (flattenLines cs)⟩) ⟨?more, fun _ => ?first⟩
  case more =>
    intro chunk hchunk
    exact ne_nil_of_mem_chunks (List.mem_of_mem_tail hchunk)
  case first =>
    intro chunk (hchunk : (chunks (flattenLines cs)).head? = some chunk)
    have hflat := flatten_chunks (flattenLines cs)
    obtain ⟨more, hmore⟩ := List.head?_eq_some_iff.1 hchunk
    obtain ⟨d, ds, rfl⟩ :=
      List.exists_cons_of_ne_nil (ne_nil_of_mem_chunks (List.mem_of_mem_head? hchunk))
    cases cs with
    | nil => cases hchunk
    | cons c cs =>
      have hc := h c rfl
      have hhead := head?_flattenLines cs hc
      rw [← hflat, hmore] at hhead
      cases hhead
      exact ⟨d, ds, rfl, hc⟩

end CronFire.Text
