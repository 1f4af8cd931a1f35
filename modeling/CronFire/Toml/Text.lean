import CronFire.Text.Numeral
import CronFire.Toml.Value
/-!
# Strings

Strings stand between quotes, in one line or in several, with escapes between double quotes
and without any between single ones.  Each reader begins after the opening quotes and gives the
characters of the string and the text after the closing quotes.
-/
namespace CronFire.Toml

/-- What a reader gives: a result and the text after it, or a fault. -/
abbrev Reading (α : Type) := Except Fault (α × List Char)

/-- Ends the reading: the text is no document. -/
def malformed {α : Type} : Except Fault α := .error .malformed

/-- A control character other than tab. -/
def isControl (c : Char) : Bool := (c.toNat < 32 && c != '\t') || c.toNat = 127

/-- A control character other than tab and line feed. -/
def isControlInLines (c : Char) : Bool := isControl c && c != '\n'

/-- Puts characters in front of those that are read. -/
def before (cs : List Char) (r : Reading (List Char)) : Reading (List Char) :=
  r.map fun (ds, rest) => (cs ++ ds, rest)

def hexValue? (c : Char) : Option Nat :=
  if '0' ≤ c ∧ c ≤ '9' then some (c.toNat - 48)
  else if 'a' ≤ c ∧ c ≤ 'f' then some (c.toNat - 87)
  else if 'A' ≤ c ∧ c ≤ 'F' then some (c.toNat - 55)
  else none

/-- The number that hexadecimal digits stand for. -/
def hexNumber? (cs : List Char) : Option Nat :=
  cs.foldlM (fun n c => (hexValue? c).map (16 * n + ·)) 0

/-- The character with a code given in hexadecimal. -/
def hexChar? (cs : List Char) : Option Char := do
  let n ← hexNumber? cs
  if n < 0xD800 ∨ (0xDFFF < n ∧ n < 0x110000) then some (Char.ofNat n) else none

/-- The character that a letter after a backslash stands for. -/
def escaped? : Char → Option Char
  | 'b' => some '\x08'
  | 't' => some '\t'
  | 'n' => some '\n'
  | 'f' => some '\x0c'
  | 'r' => some '\r'
  | '"' => some '"'
  | '\\' => some '\\'
  | _ => none

/-- The rest of a one-line string between single quotes. -/
def literalString : List Char → Reading (List Char)
  | [] => malformed
  | c :: cs =>
    if c = '\'' then .ok ([], cs)
    else if isControl c then malformed
    else before [c] (literalString cs)

/-- The rest of a one-line string between double quotes. -/
def basicString : List Char → Reading (List Char)
  | '\\' :: 'u' :: a :: b :: c :: d :: cs =>
    match hexChar? [a, b, c, d] with
    | some x => before [x] (basicString cs)
    | none => malformed
  | '\\' :: 'U' :: a :: b :: c :: d :: e :: f :: g :: h :: cs =>
    match hexChar? [a, b, c, d, e, f, g, h] with
    | some x => before [x] (basicString cs)
    | none => malformed
  | '\\' :: c :: cs =>
    match escaped? c with
    | some x => before [x] (basicString cs)
    | none => malformed
  | [] => malformed
  | c :: cs =>
    if c = '"' then .ok ([], cs)
    else if c = '\\' || isControl c then malformed
    else before [c] (basicString cs)

/-- One or two quotes after the closing quotes of a string in several lines belong to it. -/
def lastQuotes (quote : Char) : List Char → List Char × List Char
  | c :: d :: cs =>
    if c = quote then (if d = quote then ([c, d], cs) else ([c], d :: cs)) else ([], c :: d :: cs)
  | [c] => if c = quote then ([c], []) else ([], [c])
  | [] => ([], [])

/-- The rest of a string in several lines between single quotes. -/
def literalLines : List Char → Reading (List Char)
  | '\'' :: '\'' :: '\'' :: cs => .ok (lastQuotes '\'' cs)
  | [] => malformed
  | c :: cs => if isControlInLines c then malformed else before [c] (literalLines cs)

/-- Where a reader stands in a string in several lines. -/
inductive LinePlace where
  /-- In the text. -/
  | inText
  /-- Between a backslash and the end of its line. -/
  | afterBackslash
  /-- In the white space that such a line end leaves out. -/
  | skipping
  deriving DecidableEq, Repr

/-- The rest of a string in several lines between double quotes.  A backslash at the end of a
line leaves out the white space up to the next character of the text. -/
def basicLines : LinePlace → List Char → Reading (List Char)
  | .afterBackslash, c :: cs =>
    if c = '\n' then basicLines .skipping cs
    else if c = ' ' || c = '\t' then basicLines .afterBackslash cs
    else malformed
  | .inText, '\\' :: 'u' :: a :: b :: c :: d :: cs
  | .skipping, '\\' :: 'u' :: a :: b :: c :: d :: cs =>
    match hexChar? [a, b, c, d] with
    | some x => before [x] (basicLines .inText cs)
    | none => malformed
  | .inText, '\\' :: 'U' :: a :: b :: c :: d :: e :: f :: g :: h :: cs
  | .skipping, '\\' :: 'U' :: a :: b :: c :: d :: e :: f :: g :: h :: cs =>
    match hexChar? [a, b, c, d, e, f, g, h] with
    | some x => before [x] (basicLines .inText cs)
    | none => malformed
  | .inText, '"' :: '"' :: '"' :: cs
  | .skipping, '"' :: '"' :: '"' :: cs => .ok (lastQuotes '"' cs)
  | _, '\\' :: c :: cs =>
    if c = '\n' then basicLines .skipping cs
    else if c = ' ' || c = '\t' then basicLines .afterBackslash cs
    else
      match escaped? c with
      | some x => before [x] (basicLines .inText cs)
      | none => malformed
  | _, [] => malformed
  | place, c :: cs =>
    if place = .skipping && (c = ' ' || c = '\t' || c = '\n') then basicLines .skipping cs
    else if c = '\\' || isControlInLines c then malformed
    else before [c] (basicLines .inText cs)

/-- The text after a line feed at its start. -/
def skipNewline : List Char → List Char
  | '\n' :: cs => cs
  | cs => cs

/-- A string, of whichever form, from its first quote on. -/
def string : List Char → Reading (List Char)
  | '"' :: '"' :: '"' :: cs => basicLines .inText (skipNewline cs)
  | '"' :: cs => basicString cs
  | '\'' :: '\'' :: '\'' :: cs => literalLines (skipNewline cs)
  | '\'' :: cs => literalString cs
  | _ => malformed

end CronFire.Toml
