import CronFire.Proofs.Text.Digits
import CronFire.Terminal.Printed
import Mathlib.Data.List.TakeWhile
/-!
# Text that is printed as it stands

A text is literal if each of its characters takes one cell and none of them alone means anything to
the terminal.  A literal text without emoji codes that fits on a line is printed as it stands, and
one between an opening tag and the closing tag of the same name is printed as if the tags were not
there.

* `printed_of_literal`, `printed_tagged`: how literal text is printed, alone and between tags.
-/
namespace CronFire

open Text

namespace Terminal

/-- Holds of the characters from the blank to the tilde, but for opening brackets and
backslashes. -/
def isLiteral (c : Char) : Bool := ' ' ≤ c && c ≤ '~' && c ≠ '[' && c ≠ '\\'

/-- No character of the text means anything to the terminal. -/
def Literal (cs : List Char) : Prop := ∀ c ∈ cs, isLiteral c = true

instance (cs : List Char) : Decidable (Literal cs) :=
  decidable_of_iff (cs.all isLiteral = true) List.all_eq_true

section
variable {cs ds : List Char} {c : Char}

@[simp] theorem literal_nil : Literal [] := List.forall_mem_nil _

@[simp] theorem literal_cons : Literal (c :: cs) ↔ isLiteral c = true ∧ Literal cs :=
  List.forall_mem_cons

@[simp] theorem literal_append : Literal (cs ++ ds) ↔ Literal cs ∧ Literal ds :=
  List.forall_mem_append

theorem Literal.concat {s t : String} (hs : Literal s.toList) (ht : Literal t.toList) :
    Literal (s ++ t).toList := by
  rw [String.toList_append]
  exact literal_append.2 ⟨hs, ht⟩

theorem isLiteral_of_isDigit (h : c.isDigit = true) : isLiteral c = true := by
  simp only [Char.isDigit, Bool.and_eq_true, decide_eq_true_eq, UInt32.le_iff_toNat_le] at h
  have hlow : ' ' ≤ c := Char.le_def.2 (UInt32.le_iff_toNat_le.2 (Nat.le_trans (by decide) h.1))
  have hhigh : c ≤ '~' := Char.le_def.2 (UInt32.le_iff_toNat_le.2 (Nat.le_trans h.2 (by decide)))
  have hnot : ∀ x : Char, 57 < x.toNat → c ≠ x := by
    rintro x hx rfl
    exact absurd h.2 (by simpa using hx)
  simp [isLiteral, hlow, hhigh, hnot '[' (by decide), hnot '\\' (by decide)]

@[simp] theorem literal_zeroPadded (width : Nat) (n : Int) : Literal (zeroPadded width n) :=
  fun _ hc => isLiteral_of_isDigit (isDigit_of_mem_zeroPadded hc)

end

/-! ## Printing -/

theorem isLiteral_bounds {c : Char} (h : isLiteral c = true) :
    32 ≤ c.toNat ∧ c.toNat ≤ 126 := by
  simp only [isLiteral, Char.le_def, UInt32.le_iff_toNat_le, Bool.and_eq_true,
    decide_eq_true_eq] at h
  exact h.1.1

/-- Each character of a literal text takes one cell. -/
theorem Literal.cells_eq {cs : List Char} (h : Literal cs) : cells cs = cs.length := by
  induction cs with
  | nil => rfl
  | cons c cs ih =>
    rw [literal_cons] at h
    have hc := isLiteral_bounds h.1
    have hwidth : cellWidth c = 1 := by
      unfold cellWidth
      rw [if_neg (by simp; omega), if_pos (by omega)]
    rw [cells_cons, ih h.2, hwidth, List.length_cons, Nat.add_comm]

theorem Literal.not_mem {cs : List Char} (h : Literal cs) {c : Char} (hc : isLiteral c = false) :
    c ∉ cs := fun hmem => absurd (h c hmem) (Bool.eq_false_iff.1 hc)

/-- A literal text without emoji codes that fits on a line is printed as it stands. -/
theorem printed_of_literal {emoji : Emoji} {columns : Nat} {text : String}
    (h : Literal text.toList) (hcodes : emoji.replace text.toList = text.toList)
    (hlength : text.toList.length ≤ columns) : printed emoji columns text = .ok (text ++ "\n") :=
  printed_of_isPlain
    { bracket := h.not_mem (by decide)
      codes := hcodes
      tab := h.not_mem (by decide)
      lineFeed := h.not_mem (by decide)
      control := fun c hc => by
        have hbounds := isLiteral_bounds (h c hc)
        simp [isDropped]
        omega
      cells := by rwa [h.cells_eq]
      length := hlength }

end Terminal

/-! ## Tags -/

namespace Markup

/-- What an opening tag may hold that a closing one can name. -/
structure IsTagName (name : List Char) : Prop where
  starts : name.head?.any startsTag = true
  opening : '[' ∉ name
  closing : ']' ∉ name
  equals : '=' ∉ name
  slash : name.head? ≠ some '/'
  blank : isAllBlank name = false

theorem untilBracket_append {body : List Char} (h : '[' ∉ body) (h' : ']' ∉ body)
    (rest : List Char) : untilBracket (body ++ ']' :: rest) = some (body, rest) := by
  induction body with
  | nil => simp [untilBracket]
  | cons c cs ih =>
    rw [List.mem_cons, not_or] at h h'
    rw [List.cons_append, untilBracket, if_neg (Ne.symm h'.1), if_neg (Ne.symm h.1), ih h.2 h'.2]
    rfl

section
variable {f : List Char → List Char}

/-- Text without opening brackets and backslashes begins the stretch that goes on behind it. -/
theorem shown_pieces_append {cs : List Char} (h : '[' ∉ cs) (h' : '\\' ∉ cs)
    (opened : List String) (before rest : List Char) :
    shown f opened before (pieces 0 (cs ++ rest)) =
      shown f opened (before ++ cs) (pieces 0 rest) := by
  induction cs generalizing before with
  | nil => rw [List.nil_append, List.append_nil]
  | cons c cs ih =>
    rw [List.mem_cons, not_or] at h h'
    rw [List.cons_append, pieces, if_neg (Ne.symm h'.1), if_neg (Ne.symm h.1), shown, ih h.2 h'.2]
    simp [backslashes]

variable (hf : f [] = [])
include hf

/-- In front of what follows, nothing comes to nothing. -/
theorem map_nothing (shown : Except Unmatched (List Char)) : shown.map (f [] ++ ·) = shown := by
  rw [hf]
  cases shown <;> rfl

/-- A tag is a piece of its own. -/
theorem shown_pieces_tag {body : List Char} (hstarts : body.head?.any startsTag = true)
    (h : '[' ∉ body) (h' : ']' ∉ body) (opened : List String) (before rest : List Char) :
    shown f opened before (pieces 0 ('[' :: body ++ ']' :: rest)) =
      (shown f opened [] (.tag body :: pieces 0 rest)).map (f before ++ ·) := by
  have hbody : tagBody? (body ++ ']' :: rest) = some (body, rest) := by
    rw [tagBody?, if_pos, untilBracket_append h h']
    cases body with
    | nil => cases hstarts
    | cons c cs => exact hstarts
  rw [List.cons_append, pieces, if_neg (by decide), if_pos rfl]
  split
  · rename_i body' rest' heq
    rw [hbody] at heq
    obtain ⟨rfl, rfl⟩ := Prod.mk.inj (Option.some.inj heq)
    have hnone : f (backslashes (0 / 2)) = [] := hf
    rw [shown, hnone, List.append_nil, if_neg (by decide)]
  · rename_i heq
    rw [hbody] at heq
    cases heq

omit hf in
theorem takeWhile_eq_self {body : List Char} (h : '=' ∉ body) :
    body.takeWhile (· ≠ '=') = body :=
  List.takeWhile_eq_self_iff.2 fun c hc => by simpa using ne_of_mem_of_not_mem hc h

/-- A text between two tags of one name is left, and then what follows. -/
theorem strip_tagged_append {name cs : List Char} (hname : IsTagName name) (h : '[' ∉ cs)
    (h' : '\\' ∉ cs) (rest : List Char) :
    strip f ('[' :: name ++ ']' :: (cs ++ ('[' :: ('/' :: name) ++ ']' :: rest))) =
      (strip f rest).map (f cs ++ ·) := by
  have hclose : shown f [tagName name] cs (pieces 0 ('[' :: ('/' :: name) ++ ']' :: rest)) =
      (strip f rest).map (f cs ++ ·) := by
    rw [shown_pieces_tag hf rfl (by simpa using hname.opening) (by simpa using hname.closing),
      shown, List.takeWhile_cons_of_pos (by decide), takeWhile_eq_self hname.equals]
    simp only [close?, hname.blank, Bool.false_eq_true, if_false, List.contains_cons,
      beq_self_eq_true, Bool.true_or, if_true, List.erase_cons_head]
    rw [map_nothing hf, strip]
  rw [strip, shown_pieces_tag hf hname.starts hname.opening hname.closing, shown,
    takeWhile_eq_self hname.equals]
  split
  · exact absurd rfl hname.slash
  · rw [shown_pieces_append h h', List.nil_append, map_nothing hf, map_nothing hf, hclose]

theorem strip_tagged {name cs : List Char} (hname : IsTagName name) (h : '[' ∉ cs)
    (h' : '\\' ∉ cs) :
    strip f ('[' :: name ++ ']' :: (cs ++ ('[' :: ('/' :: name) ++ [']']))) = .ok (f cs) := by
  rw [strip_tagged_append hf hname h h', strip_of_not_mem List.not_mem_nil, hf, Except.map,
    List.append_nil]

end

end Markup

/-- A literal text between two tags of one name is printed like the text alone. -/
theorem Terminal.printed_tagged {name text : String} (hname : Markup.IsTagName name.toList)
    (h : Literal text.toList) (emoji : Emoji) (columns : Nat) :
    printed emoji columns ("[" ++ name ++ "]" ++ text ++ "[/" ++ name ++ "]") =
      printed emoji columns text := by
  have hbracket : '[' ∉ text.toList := h.not_mem (by decide)
  have hnil : emoji.replace [] = [] := rfl
  have hstrip := Markup.strip_tagged hnil hname hbracket (h.not_mem (by decide))
  rw [printed, printed, Markup.strip_of_not_mem hbracket, ← hstrip]
  congr 2
  simp

end CronFire
