import CronFire.Text.WordChar
import CronFire.Text.Blank
/-!
# Chunks of a paragraph

A paragraph is flattened to one line and cut into chunks, between which it may be broken: runs
of spaces, words, and the dashes between words.  A word ends before a space, after a hyphen
between two parts of two letters or more, and before two or more dashes that a word follows.

* `flatten_chunks`: the chunks put together are the text again.
* `ne_nil_of_mem_chunks`: no chunk is empty.
-/
namespace CronFire.Text

/-- Tabs filled up with spaces to the next multiple of `size` columns, from a column on. -/
def expandTabs (size : Nat) : (column : Nat) → List Char → List Char
  | _, [] => []
  | column, c :: cs =>
    if c = '\t' then
      let fill := size - column % size
      List.replicate fill ' ' ++ expandTabs size (column + fill) cs
    else c :: expandTabs size (if c = '\n' || c = '\r' then 0 else column + 1) cs

/-- The ASCII white space. -/
def isAsciiSpace (c : Char) : Bool := c = ' ' || (9 ≤ c.toNat && c.toNat ≤ 13)

/-- The text on one line: tabs expanded to eight columns, other white space made spaces. -/
def flattenLines (cs : List Char) : List Char :=
  (expandTabs 8 0 cs).map fun c => if isAsciiSpace c then ' ' else c

inductive ChunkKind where
  /-- Spaces. -/
  | spaces
  /-- Dashes between words. -/
  | dashes
  /-- A word that goes on. -/
  | word
  /-- The hyphen that ends a word. -/
  | lastHyphen
  deriving DecidableEq, Repr

/-- A word character, or a mark that may stand at a word. -/
def isWordMark (c : Char) : Bool :=
  isWordChar c || c = '!' || c = '"' || c = '\'' || c = '&' || c = '.' || c = ',' || c = '?'

/-- The text begins with two dashes or more and then a word character. -/
def startsDashes : List Char → Bool
  | '-' :: '-' :: cs => (cs.dropWhile (· = '-')).head?.any isWordChar
  | _ => false

/-- The text, read backwards, ends in two letters or in a letter, a hyphen and a letter. -/
def endsWordPart : List Char → Bool
  | a :: '-' :: b :: _ => isLetter a && isLetter b
  | a :: b :: _ => isLetter a && isLetter b
  | _ => false

/-- The text begins with two letters, which may have a hyphen between them. -/
def startsWordPart : List Char → Bool
  | a :: '-' :: b :: _ => isLetter a && isLetter b
  | a :: b :: _ => isLetter a && isLetter b
  | _ => false

/-- What the chunk that begins here consists of; `before` is the text before it, backwards. -/
def kindAt (before rest : List Char) : ChunkKind :=
  if rest.head? = some ' ' then .spaces
  else if before.head?.any isWordMark && startsDashes rest then .dashes
  else .word

/-- How the chunk goes on between `before`, read backwards, and `rest`; `none` if it ends. -/
def goesOn (kind : ChunkKind) (before rest : List Char) : Option ChunkKind :=
  match kind, rest with
  | _, [] => none
  | .spaces, c :: _ => if c = ' ' then some .spaces else none
  | .dashes, c :: _ => if c = '-' then some .dashes else none
  | .lastHyphen, _ => none
  | .word, c :: after =>
    if c = '-' && endsWordPart before && startsWordPart after then some .lastHyphen
    else if c = ' ' then none
    else if before.head?.any isWordMark && startsDashes rest then none
    else some .word

/-- The chunks of a text, of which the first has the given kind. -/
def chunksFrom (kind : ChunkKind) (before : List Char) : List Char → List (List Char)
  | [] => []
  | c :: rest =>
    match goesOn kind (c :: before) rest with
    | none => [c] :: chunksFrom (kindAt (c :: before) rest) (c :: before) rest
    | some kind =>
      match chunksFrom kind (c :: before) rest with
      | [] => [[c]]
      | chunk :: chunks => (c :: chunk) :: chunks

def chunks (cs : List Char) : List (List Char) := chunksFrom (kindAt [] cs) [] cs

theorem flatten_chunksFrom (kind : ChunkKind) (before cs : List Char) :
    (chunksFrom kind before cs).flatten = cs := by
  induction cs generalizing kind before with
  | nil => rfl
  | cons c rest ih =>
    simp only [chunksFrom]
    split
    · simp [ih]
    · rename_i kind' _
      have h := ih kind' (c :: before)
      split <;> simp_all

/-- Nothing is lost or added by cutting. -/
theorem flatten_chunks (cs : List Char) : (chunks cs).flatten = cs := flatten_chunksFrom _ _ _

theorem ne_nil_of_mem_chunksFrom {kind : ChunkKind} {before cs chunk : List Char}
    (h : chunk ∈ chunksFrom kind before cs) : chunk ≠ [] := by
  induction cs generalizing kind before chunk with
  | nil => simp [chunksFrom] at h
  | cons c rest ih =>
    simp only [chunksFrom] at h
    split at h
    · rcases List.mem_cons.1 h with rfl | h
      · simp
      · exact ih h
    · split at h
      · simp_all
      · rename_i hc
        rcases List.mem_cons.1 h with rfl | h
        · simp
        · exact ih (hc ▸ List.mem_cons_of_mem _ h)

theorem ne_nil_of_mem_chunks {cs chunk : List Char} (h : chunk ∈ chunks cs) : chunk ≠ [] :=
  ne_nil_of_mem_chunksFrom h

end CronFire.Text
