import CronFire.Journal.Entry
import CronFire.Proofs.Text.FillLoop
/-!
# An entry keeps its message

The message is trimmed, filled and indented.  The indent leaves less than no width on a terminal of
seven or eight columns; the message then goes down one character to a line.

Results:
* `ends_bodyLines`: the lines are those that the filling ends with, on a width that may be negative.
* `entryText_keeps_message`: an entry holds all of its message that is not blank.
-/
namespace CronFire.Journal

open Text

/-- The width of a line behind its indent; it may be negative. -/
def lineWidth (columns : Nat) : Int := columns - margin - indent.length

/-- The filling of a message before its first line. -/
def unfilled (message : String) : Filling := ⟨[], chunks (flattenLines (trim message.toList))⟩

/-- Lines with an indent hold a message, and go no further than the margin or, on a narrow terminal,
one character beyond the indent. -/
structure Keeps (columns : Nat) (message : String) (lines : List (List Char)) : Prop where
  text : withoutBlanks lines.flatten = withoutBlanks message.toList
  indented : ∀ line ∈ lines, indent <+: line
  narrow : ∀ line ∈ lines, line.length ≤ max (columns - margin) 4
  single : ∀ line ∈ lines, '\n' ∉ line

theorem ends_bodyLines (columns : Nat) (message : String) :
    Filling.Ends (lineWidth columns) (unfilled message) (bodyLines columns message) := by
  have hwidth : (lineWidth columns).toNat = columns - margin - indent.length := by
    simp only [lineWidth]
    omega
  rw [bodyLines, ← hwidth]
  exact ends_fill _ (isBlank_head?_trim _)

theorem withoutBlanks_indented (lines : List (List Char)) :
    withoutBlanks (lines.map (indent ++ ·)).flatten = withoutBlanks lines.flatten := by
  induction lines with
  | nil => rfl
  | cons line lines ih =>
    have hindent : withoutBlanks indent = [] := by decide
    rw [List.map_cons, List.flatten_cons, List.flatten_cons, withoutBlanks_append,
      withoutBlanks_append, withoutBlanks_append, hindent, List.nil_append, ih]

theorem keeps_bodyLines (columns : Nat) (message : String) :
    Keeps columns message ((bodyLines columns message).map (indent ++ ·)) := by
  have hindent : indent.length = 3 := rfl
  constructor
  case text => rw [withoutBlanks_indented, bodyLines, withoutBlanks_fill, withoutBlanks_trim]
  all_goals
    intro line hline
    obtain ⟨body, hbody, rfl⟩ := List.mem_map.1 hline
  case indented => exact List.prefix_append indent body
  case narrow =>
    have hlength := length_le_of_mem_fill _ _ body hbody
    rw [List.length_append]
    omega
  case single =>
    rw [List.mem_append, not_or]
    exact ⟨by decide, newline_not_mem_fill _ _ body hbody⟩

/-- **An entry keeps its message.** The filling of the message ends, and in one way only.  The
entry is its first line, the filled lines behind an indent, and a blank line; put together, the
filled lines hold all that is not blank in the message, each character once and in order. -/
theorem entryText_keeps_message (now : Moment) {columns : Nat} (h : margin < columns)
    (note : Note) :
    ∃ lines, Filling.Ends (lineWidth columns) (unfilled note.message) lines ∧
      (∀ others, Filling.Ends (lineWidth columns) (unfilled note.message) others →
        others = lines) ∧
      entryText now columns note = .ok (heading now note ++
        String.ofList ((lines.map (indent ++ ·)).flatMap ('\n' :: ·)) ++ "\n\n") ∧
      Keeps columns note.message (lines.map (indent ++ ·)) := by
  have hends := ends_bodyLines columns note.message
  refine ⟨bodyLines columns note.message, hends, fun _ => hends.unique, ?_,
    keeps_bodyLines columns note.message⟩
  rw [entryText, if_neg (Nat.not_le.2 h), List.flatMap_map]
  rfl

/-- On eight columns a line has one less than no width.  The tab takes a turn that makes no line,
and so do the empty chunks that the cut words leave behind. -/
theorem entryText_keeps_message_eightColumns :
    let now : Moment := { date := ⟨2026, 1, 1⟩, time := ⟨7, 30, 0⟩ }
    let note : Note := { kind := .bug, caller := "main", message := "\nab\tc " }
    margin < 8 ∧ lineWidth 8 = -1 ∧
      entryText now 8 note = .ok "- 07:30:00 bug_msg (main):  \n   a\n   b\n   c\n\n" ∧
      Keeps 8 note.message ["   a".toList, "   b".toList, "   c".toList] := by
  intro now note
  have hwidth : lineWidth 8 = -1 := by decide
  have hstart : unfilled note.message = ⟨[], ["ab".toList, "      ".toList, "c".toList]⟩ := by
    decide +kernel
  have hends : Filling.Ends (lineWidth 8) (unfilled note.message) [['a'], ['b'], ['c']] := by
    rw [hwidth, hstart]
    iterate 5 refine .turn (by decide) ?_
    exact .done rfl
  have hwide : margin < 8 := by decide
  obtain ⟨lines, -, honly, htext, hkeeps⟩ := entryText_keeps_message now hwide note
  obtain rfl := honly _ hends
  exact ⟨hwide, hwidth, htext.trans (by decide +kernel), hkeeps⟩

end CronFire.Journal
