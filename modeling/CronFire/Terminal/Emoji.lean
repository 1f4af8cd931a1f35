import CronFire.Text.Blank
import CronFire.Text.LowerCase
/-!
# Emoji codes

A terminal may know pictures by names.  A name between two colons, with no blank in it and in any
case, is a code, for which its picture is shown.  A code may ask for its picture as such or as text,
by a word behind its name.  A name that the terminal does not know is left as it is, with both of
its colons, so that the second one does not begin another code.

* `Emoji`: the pictures that a terminal knows.
* `Emoji.replace`: a text with pictures for codes.
-/
namespace CronFire.Terminal

open Text

/-- The pictures that a terminal knows by name. -/
structure Emoji where
  picture? : String → Option (List Char)
  /-- Pictures hold no colons and no blanks. -/
  isPicture : ∀ {name picture}, picture? name = some picture →
    ∀ c ∈ picture, c ≠ ':' ∧ isBlank c = false
  /-- No name is a number of two digits. -/
  twoDigits : ∀ {a b : Char}, a.isDigit = true → b.isDigit = true →
    picture? (String.ofList [a, b]) = none

namespace Emoji

def none : Emoji := ⟨fun _ => .none, nofun, fun _ _ => rfl⟩

/-- The words that ask for a picture in one way, each with the mark that stands behind the picture
then. -/
def variants : List (List Char × Char) :=
  [("-emoji".toList, '\ufe0f'), ("-text".toList, '\ufe0e')]

/-- What stands between the colons of a code: a name, and the mark that the word behind it asks
for. -/
def readCode (cs : List Char) : List Char × List Char :=
  match variants.find? fun v => v.1.isSuffixOf cs with
  | some (word, mark) => (cs.take (cs.length - word.length), [mark])
  | .none => (cs, [])

def display (e : Emoji) (code : List Char) : List Char :=
  let (name, mark) := readCode code
  match e.picture? (String.ofList (lower name)) with
  | some picture => picture ++ mark
  | .none => ':' :: code ++ [':']

/-- What is shown for parts of a text that stand behind one colon each. -/
def replaceParts (e : Emoji) : List (List Char) → List Char
  | part :: next :: parts =>
    if part.all (!isBlank ·) then e.display part ++ next ++ e.replaceParts parts
    else ':' :: part ++ e.replaceParts (next :: parts)
  | [part] => ':' :: part
  | [] => []

/-- The text with pictures for codes. -/
def replace (e : Emoji) (cs : List Char) : List Char :=
  match pieces ':' cs with
  | part :: parts => part ++ e.replaceParts parts
  | [] => []

end Emoji

end CronFire.Terminal
