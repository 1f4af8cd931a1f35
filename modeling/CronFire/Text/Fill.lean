import CronFire.Text.Chunk
/-!
# Filled paragraphs

The chunks of a paragraph are laid on lines of a given width, as many on each line as fit.  A
chunk wider than a whole line is cut where the line is full, after its last hyphen there if
anything but hyphens stands before that.  Blank chunks at the start of every line but the first
and at the end of every line are dropped.

* `weight_layLine_lt`: every line takes something from the chunks, so filling ends.
-/
namespace CronFire.Text

/-- The chunks that fit into `room` columns, and the rest. -/
def takeFitting : (room : Nat) → List (List Char) → List (List Char) × List (List Char)
  | _, [] => ([], [])
  | room, chunk :: chunks =>
    if chunk.length ≤ room then
      let (taken, rest) := takeFitting (room - chunk.length) chunks
      (chunk :: taken, rest)
    else ([], chunk :: chunks)

def lastIndex? (c : Char) : List Char → Option Nat
  | [] => none
  | d :: cs =>
    match lastIndex? c cs with
    | some i => some (i + 1)
    | none => if d = c then some 0 else none

/-- Where a chunk is cut that must go into `room` columns. -/
def cutPlace (room : Nat) (chunk : List Char) : Nat :=
  if chunk.length ≤ room then room
  else
    match lastIndex? '-' (chunk.take room) with
    | none => room
    | some i => if (chunk.take i).any (· ≠ '-') then i + 1 else room

/-- The line without a blank chunk at its end. -/
def dropLastBlank (line : List (List Char)) : List (List Char) :=
  if line.getLast?.any isAllBlank then line.dropLast else line

/-- The chunks of one line of `width` columns, blank ends included, and the rest. -/
def layLine (width : Nat) (chunks : List (List Char)) :
    List (List Char) × List (List Char) :=
  match takeFitting width chunks with
  | (taken, chunk :: rest) =>
    if width < chunk.length then
      let room := if width = 0 then 1 else width - taken.flatten.length
      let place := cutPlace room chunk
      (taken ++ [chunk.take place], chunk.drop place :: rest)
    else (taken, chunk :: rest)
  | (taken, []) => (taken, [])

/-- The size of a list of chunks: its characters, and one for each chunk. -/
def weight : List (List Char) → Nat
  | [] => 0
  | chunk :: chunks => chunk.length + 1 + weight chunks

@[simp] theorem weight_nil : weight [] = 0 := rfl

@[simp] theorem weight_cons (chunk : List Char) (chunks : List (List Char)) :
    weight (chunk :: chunks) = chunk.length + 1 + weight chunks := rfl

theorem append_takeFitting (room : Nat) (chunks : List (List Char)) :
    (takeFitting room chunks).1 ++ (takeFitting room chunks).2 = chunks := by
  induction chunks generalizing room with
  | nil => rfl
  | cons chunk chunks ih =>
    simp only [takeFitting]
    split
    · simp [ih]
    · rfl

theorem weight_append (xs ys : List (List Char)) :
    weight (xs ++ ys) = weight xs + weight ys := by
  induction xs with
  | nil => simp
  | cons chunk chunks ih => simp [ih, Nat.add_assoc]

theorem cutPlace_pos {room : Nat} {chunk : List Char} (h : 0 < room) : 0 < cutPlace room chunk := by
  unfold cutPlace
  split
  · exact h
  · split
    · exact h
    · split <;> omega

/-- Laying a line leaves less than there was. -/
theorem weight_layLine_lt {width : Nat} {chunks : List (List Char)} (h : chunks ≠ []) :
    weight (layLine width chunks).2 < weight chunks := by
  have happ := append_takeFitting width chunks
  have hw := congrArg weight happ
  rw [weight_append] at hw
  unfold layLine
  split
  · rename_i taken chunk rest heq
    simp only [heq] at hw happ
    split
    · rename_i hlt
      simp only [weight_cons, List.length_drop] at hw ⊢
      rcases List.eq_nil_or_concat taken with rfl | ⟨xs, x, rfl⟩
      · have hroom :
            0 < (if width = 0 then 1 else width - ([] : List (List Char)).flatten.length) := by
          split
          · simp
          · simp; omega
        have : 0 < cutPlace _ chunk := cutPlace_pos hroom
        simp only [weight_nil] at hw
        omega
      · have : 0 < weight (xs ++ [x]) := by
          rw [weight_append, weight_cons]; omega
        simp only [List.concat_eq_append] at hw ⊢
        omega
    · simp only [weight_cons] at hw ⊢
      rename_i hge
      rcases List.eq_nil_or_concat taken with rfl | ⟨xs, x, rfl⟩
      · simp only [List.nil_append] at happ
        subst happ
        simp only [takeFitting] at heq
        split at heq
        · simp at heq
        · omega
      · have : 0 < weight (xs ++ [x]) := by
          rw [weight_append, weight_cons]; omega
        simp only [List.concat_eq_append] at hw
        omega
  · rename_i taken heq
    cases chunks with
    | nil => exact absurd rfl h
    | cons c cs => simp only [weight_nil, weight_cons]; omega

/-- The chunks without a blank one at their start. -/
def dropFirstBlank : List (List Char) → List (List Char)
  | [] => []
  | chunk :: chunks => if isAllBlank chunk then chunks else chunk :: chunks

theorem weight_dropFirstBlank_le (chunks : List (List Char)) :
    weight (dropFirstBlank chunks) ≤ weight chunks := by
  unfold dropFirstBlank
  split
  · simp
  · split <;> simp

/-- The lines of the chunks; `started` says that a line stands before them. -/
def layLines (width : Nat) (started : Bool) (chunks : List (List Char)) : List (List Char) :=
  match _h : (if started then dropFirstBlank chunks else chunks) with
  | [] => []
  | chunk :: more =>
    match dropLastBlank (layLine width (chunk :: more)).1 with
    | [] => layLines width started (layLine width (chunk :: more)).2
    | line => line.flatten :: layLines width true (layLine width (chunk :: more)).2
termination_by weight chunks
decreasing_by
  all_goals
    have h1 : weight (layLine width (chunk :: more)).2 < weight (chunk :: more) :=
      weight_layLine_lt (by simp)
    have h2 := weight_dropFirstBlank_le chunks
    have h3 : weight (chunk :: more) ≤ weight chunks := by
      rw [← _h]; split <;> omega
    omega

def fill (width : Nat) (cs : List Char) : List (List Char) :=
  layLines width false (chunks (flattenLines cs))

end CronFire.Text
