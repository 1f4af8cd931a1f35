import CronFire.Terminal.Lines
import CronFire.Terminal.Markup
/-!
# Printed text

A text is printed without its tags and without the control characters that would move the
cursor about, with pictures for its emoji codes, on lines no wider than the terminal, each ended
by a line feed.

* `printed`: what is printed for a text.
* `printed_of_isPlain`: a plain text is printed as it is.
-/
namespace CronFire.Terminal

open Text

/-- The control characters that are not printed: bell, backspace, vertical tab, form feed and
carriage return. -/
def isDropped (c : Char) : Bool :=
  c.toNat = 7 || c.toNat = 8 || (11 ≤ c.toNat && c.toNat ≤ 13)

def screenLines (columns : Nat) (cs : List Char) : List (List Char) :=
  (pieces '\n' (cs.filter (!isDropped ·))).flatMap fun line =>
    (wrap .fold columns line).map (crop columns)

def stack (lines : List (List Char)) : String := String.ofList (lines.flatMap (· ++ ['\n']))

def printed (emoji : Emoji) (columns : Nat) (text : String) : Except Markup.Unmatched String :=
  (Markup.strip emoji.replace text.toList).map fun cs => stack (screenLines columns cs)

/-- A text that fits on one line and holds no opening bracket, no emoji code, no tab or line feed,
and no character that is dropped. -/
structure IsPlain (emoji : Emoji) (columns : Nat) (text : String) : Prop where
  bracket : '[' ∉ text.toList
  codes : emoji.replace text.toList = text.toList
  tab : '\t' ∉ text.toList
  lineFeed : '\n' ∉ text.toList
  control : ∀ c ∈ text.toList, isDropped c = false
  cells : cells text.toList ≤ columns
  length : text.toList.length ≤ columns

theorem pieces_of_not_mem {sep : Char} {cs : List Char} (h : sep ∉ cs) : pieces sep cs = [cs] := by
  induction cs with
  | nil => rfl
  | cons c cs ih =>
    obtain ⟨hc, hcs⟩ : sep ≠ c ∧ sep ∉ cs := by simpa using h
    rw [pieces, if_neg (Ne.symm hc), ih hcs]

/-- A plain text is printed as it is. -/
theorem printed_of_isPlain {emoji : Emoji} {columns : Nat} {text : String}
    (h : IsPlain emoji columns text) : printed emoji columns text = .ok (text ++ "\n") := by
  have filtered : text.toList.filter (!isDropped ·) = text.toList :=
    List.filter_eq_self.2 fun c hc => by simp [h.control c hc]
  rw [printed, Markup.strip_of_not_mem h.bracket, h.codes, Except.map, screenLines, filtered,
    pieces_of_not_mem h.lineFeed]
  simp only [List.flatMap_cons, List.flatMap_nil, List.append_nil]
  rw [wrap_of_le h.tab h.cells h.length]
  simp only [List.map_cons, List.map_nil, crop_of_le h.cells, stack, List.flatMap_cons,
    List.flatMap_nil, List.append_nil]
  congr 1
  rw [← String.toList_inj]
  simp

end CronFire.Terminal
