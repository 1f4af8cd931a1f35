import CronFire.Terminal.Emoji
/-!
# Markup

A text for the terminal may hold tags that ask for colours: a name in brackets, closed again by
the name after a slash, or by a slash alone, which closes the tag opened last.  A backslash
before a bracket makes it an ordinary one, and two backslashes there stand for one.  The
terminal here has no colours, so the tags are only taken out.  The text between two tags may hold
emoji codes; what backslashes stand for is no part of that text.

* `pieces`: what a text consists of, tags and the rest.
* `strip`: the text without its tags.
* `strip_of_not_mem`: a text with no opening bracket is left as it is, but for emoji codes.
-/
namespace CronFire.Markup

open Text

inductive Piece where
  /-- Text that is shown. -/
  | plain (cs : List Char)
  /-- Text that is shown on its own. -/
  | apart (cs : List Char)
  /-- What stands in the brackets of a tag. -/
  | tag (body : List Char)
  deriving DecidableEq, Repr

/-- Holds of the characters that a tag may begin with: a small letter, a number sign, a slash
or an at sign. -/
def startsTag (c : Char) : Bool := ('a' ≤ c && c ≤ 'z') || c = '#' || c = '/' || c = '@'

/-- The text up to the next closing bracket and the text after that, unless an opening bracket
comes first. -/
def untilBracket : List Char → Option (List Char × List Char)
  | [] => none
  | c :: cs =>
    if c = ']' then some ([], cs)
    else if c = '[' then none
    else (untilBracket cs).map fun (body, rest) => (c :: body, rest)

/-- What stands in the brackets of a tag and what follows it, seen from behind its opening
bracket. -/
def tagBody? (cs : List Char) : Option (List Char × List Char) :=
  if cs.head?.any startsTag then untilBracket cs else none

theorem length_lt_of_untilBracket {cs body rest : List Char}
    (h : untilBracket cs = some (body, rest)) : rest.length < cs.length := by
  induction cs generalizing body with
  | nil => simp [untilBracket] at h
  | cons c cs ih =>
    rw [untilBracket] at h
    split at h
    · simp only [Option.some.injEq, Prod.mk.injEq] at h
      simp [← h.2]
    · split at h
      · simp at h
      · rw [Option.map_eq_some_iff] at h
        obtain ⟨⟨body', rest'⟩, h, e⟩ := h
        simp only [Prod.mk.injEq] at e
        have := ih (e.2 ▸ h)
        simp only [List.length_cons]
        omega

theorem length_lt_of_tagBody {cs body rest : List Char} (h : tagBody? cs = some (body, rest)) :
    rest.length < cs.length := by
  rw [tagBody?] at h
  split at h
  · exact length_lt_of_untilBracket h
  · simp at h

def backslashes (n : Nat) : List Char := List.replicate n '\\'

/-- The pieces of a text that stands behind `slashes` backslashes. -/
def pieces (slashes : Nat) : List Char → List Piece
  | [] => [.plain (backslashes slashes)]
  | c :: cs =>
    if c = '\\' then pieces (slashes + 1) cs
    else if c = '[' then
      match h : tagBody? cs with
      | some (body, rest) =>
        have := length_lt_of_tagBody h
        .apart (backslashes (slashes / 2)) ::
          (if slashes % 2 = 1 then .apart ('[' :: body ++ [']']) else .tag body) :: pieces 0 rest
      | none => .plain (backslashes (slashes - 1) ++ ['[']) :: pieces 0 cs
    else .plain (backslashes slashes ++ [c]) :: pieces 0 cs
termination_by cs => cs.length
decreasing_by all_goals simp_wf; all_goals omega

/-- The short names of styles and what they stand for. -/
def shortNames : List (String × String) :=
  [("b", "bold"), ("d", "dim"), ("i", "italic"), ("u", "underline"), ("r", "reverse"),
   ("c", "conceal"), ("s", "strike"), ("uu", "underline2"), ("o", "overline")]

/-- The name that a tag is known by: without blanks around it, in lower case, and in full. -/
def tagName (cs : List Char) : String :=
  let name := String.ofList (lower (trim cs))
  (shortNames.lookup name).getD name

/-- The tags still open, the innermost first, after a closing tag; none if there is nothing for
it to close. -/
def close? (name : List Char) (opened : List String) : Option (List String) :=
  if isAllBlank name then opened.tail?
  else if opened.contains (tagName name) then some (opened.erase (tagName name))
  else none

/-- There is nothing for a closing tag to close. -/
structure Unmatched where
  deriving DecidableEq, Repr

/-- The text of some pieces without the tags, while the tags in `opened` are open.  Each stretch of
text comes to what `f` makes of it; `before` is the beginning of the first one. -/
def shown (f : List Char → List Char) (opened : List String) (before : List Char) :
    List Piece → Except Unmatched (List Char)
  | [] => .ok (f before)
  | .plain cs :: ps => shown f opened (before ++ cs) ps
  | .apart cs :: ps => (shown f opened [] ps).map (f before ++ f cs ++ ·)
  | .tag body :: ps =>
    match body.takeWhile (· ≠ '=') with
    | '/' :: name =>
      match close? name opened with
      | none => .error ⟨⟩
      | some opened => (shown f opened [] ps).map (f before ++ ·)
    | name => (shown f (tagName name :: opened) [] ps).map (f before ++ ·)

/-- The text without its tags, each stretch of it changed by `f`. -/
def strip (f : List Char → List Char) (cs : List Char) : Except Unmatched (List Char) :=
  shown f [] [] (pieces 0 cs)

theorem shown_pieces_of_not_mem {f : List Char → List Char} {slashes : Nat} {cs before : List Char}
    {opened : List String} (h : '[' ∉ cs) :
    shown f opened before (pieces slashes cs) = .ok (f (before ++ backslashes slashes ++ cs)) := by
  induction cs generalizing slashes before with
  | nil => simp [pieces, shown]
  | cons c cs ih =>
    obtain ⟨hc, hcs⟩ : '[' ≠ c ∧ '[' ∉ cs := by simpa using h
    rw [pieces]
    split
    · rename_i e
      rw [ih hcs, e, backslashes, List.replicate_succ']
      simp [backslashes]
    · rw [if_neg (Ne.symm hc), shown, ih hcs]
      simp [backslashes]

/-- A text with no opening bracket is left as it is, but for what `f` makes of it. -/
theorem strip_of_not_mem {f : List Char → List Char} {cs : List Char} (h : '[' ∉ cs) :
    strip f cs = .ok (f cs) := by
  simp [strip, shown_pieces_of_not_mem h, backslashes]

end CronFire.Markup
