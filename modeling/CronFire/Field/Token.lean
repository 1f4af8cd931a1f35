import CronFire.Field.Domain
import CronFire.Field.Fault
import CronFire.Text.LowerCase
/-!
# The tokens of a field

A token is a list of parts between commas.  A part is `*`, a value or a range `a-b`, and may
end in a slash and a step.  A value is a numeral of the domain, or the beginning of one of the
domain's names in any case, which stands for the first such name.

    *  */n     every value, or every n-th from the least on
    a  a/1     the value a
    a/0        the values from a on
    a-b  a-b/n  the values between a and b, or every n-th of them from the lesser on

The first slash and, before it, the first dash that is not the part's first character divide a
part.  Parts are read from the left, and the first fault ends the reading.
-/
namespace CronFire

open Text

inductive Part where
  /-- A star, with its step. -/
  | every (step : Nat)
  /-- A single value. -/
  | only (value : Int)
  /-- A value and all above it. -/
  | onward (value : Int)
  /-- A range with its step; the ends stand as written, in either order. -/
  | range (a b : Int) (step : Nat)
  deriving DecidableEq, Repr

/-- The span of values a part stands for.  A step of 0 counts as 1. -/
def Part.span (d : Domain) : Part → Span
  | .every step => ⟨d.minimum, d.maximum, max step 1⟩
  | .only value => ⟨value, value, 1⟩
  | .onward value => ⟨value, d.maximum, 1⟩
  | .range a b step => ⟨min a b, max a b, max step 1⟩

namespace Token

/-- The text before and after the first `sep`. -/
def cutAt (sep : Char) : List Char → Option (List Char × List Char)
  | [] => none
  | c :: cs =>
    if c = sep then some ([], cs)
    else (cutAt sep cs).map fun p => (c :: p.1, p.2)

def reject {α : Type} (fault : Fault) : Except (Failure Fault) α := .error (.reported fault)

/-- The place of the first name that begins with `start`, both taken in lower case. -/
def nameIndex? (names : List String) (start : List Char) : Option Nat :=
  names.findIdx? fun name => (lower start).isPrefixOf (lower name.toList)

def readValue (d : Domain) (text : List Char) : Except (Failure Fault) Int :=
  if isAllBlank text then reject .missingValue
  else if text.head?.any Char.isDigit then
    match readNumeral text with
    | .error .notDigits => reject (.notANumber (String.ofList text))
    | .error .tooLong => .error .numeralTooLong
    | .ok value =>
      if value < d.minimum || d.maximum < value then
        reject (.outOfRange value d.minimum d.maximum)
      else .ok value
  else if d.names.isEmpty then
    reject (.notAValue (String.ofList text) d.minimum d.maximum)
  else
    match nameIndex? d.names text with
    | some i => .ok (d.minimum + i)
    | none => reject (.unknownName (String.ofList text) d.names)

def readStep (text : List Char) : Except (Failure Fault) Nat :=
  match readNumeral text with
  | .error .notDigits => reject (.badStep (String.ofList text))
  | .error .tooLong => .error .numeralTooLong
  | .ok step => .ok step

/-- Reads what stands before the slash of a part, for a given step. -/
def readStepped (d : Domain) (text : List Char) (step : Nat) : Except (Failure Fault) Part :=
  if text = ['*'] then .ok (.every step)
  else
    match cutAt '-' text with
    | some (c :: cs, after) => do
      let a ← readValue d (c :: cs)
      let b ← readValue d after
      .ok (.range a b step)
    | _ => do
      let value ← readValue d text
      match step with
      | 0 => .ok (.onward value)
      | 1 => .ok (.only value)
      | _ => reject (.stepWithoutRange (String.ofList text) step)

def readPart (d : Domain) (text : List Char) : Except (Failure Fault) Part :=
  if isAllBlank text then reject .emptyPart
  else
    match cutAt '/' text with
    | none => readStepped d text 1
    | some ([], _) => reject (.nothingBeforeSlash (String.ofList text))
    | some (before, after) => do
      let step ← readStep after
      readStepped d before step

/-- Reads parts from the left up to the first that fails. -/
def readParts (d : Domain) : List (List Char) → Except (Failure Fault) (List Part)
  | [] => .ok []
  | text :: texts => do
    let part ← readPart d text
    let parts ← readParts d texts
    .ok (part :: parts)

/-- The parts of a token; a token that is not there is an empty one. -/
def read (d : Domain) : Option String → Except (Failure Fault) (List Part)
  | none => reject .emptyPart
  | some token => readParts d (pieces ',' token.toList)

end Token

end CronFire
