import CronFire.Calendar.Directive
import CronFire.Store.Folders
import CronFire.Store.Home
import CronFire.Text.Fill
import CronFire.Text.Stray
/-!
# The journal

Messages are noted in files below the home folder, one entry each: a line that says when, of
which kind and from where, then the message filled to the width of the terminal less a margin,
each line indented, then a blank line.  A message that goes to no file of its own goes to the
file of its kind and day.  An entry that cannot be written is printed instead.

An entry is written line by line, and a line is written only if it can be encoded.  An entry with
a stray breaks off at the first line that holds one, and leaves what was written of it.

* `entryText`: the text of an entry.
* `record`: what noting a message does to the store, and what it prints.
-/
namespace CronFire

open Text

inductive NoteKind where
  | log
  | bug
  deriving DecidableEq, Repr

def NoteKind.label : NoteKind → String
  | .log => "log"
  | .bug => "bug"

/-- A message to be noted. -/
structure Note where
  kind : NoteKind
  /-- Who notes it. -/
  caller : String
  message : String
  /-- The file it goes to, if not the one of its kind and day. -/
  path : Option String := none
  /-- Whether the entry is printed as well. -/
  print : Bool := false
  deriving DecidableEq, Repr

/-- The terminal is too narrow to fill a message. -/
structure TooNarrow where
  deriving DecidableEq, Repr

inductive NoteFault where
  /-- The terminal is too narrow to fill it. -/
  | tooNarrow
  /-- The entry or the path of its file cannot be encoded. -/
  | unencodable
  deriving DecidableEq, Repr

namespace Journal

/-- The columns kept free beside a message. -/
def margin : Nat := 6

/-- What stands before each line of a message. -/
def indent : List Char := [' ', ' ', ' ']

def heading (now : Moment) (note : Note) : String :=
  "- " ++ String.ofList now.clockText ++ " " ++ note.kind.label ++ "_msg (" ++ note.caller ++
    "):  "

/-- The lines of a message on a terminal of some columns, without their indent. -/
def bodyLines (columns : Nat) (message : String) : List (List Char) :=
  fill (columns - margin - indent.length) (trim message.toList)

/-- The text of an entry; a terminal that is no wider than the margin has no room for one. -/
def entryText (now : Moment) (columns : Nat) (note : Note) : Except TooNarrow String :=
  if columns ≤ margin then .error ⟨⟩
  else
    .ok (heading now note ++
      String.ofList ((bodyLines columns note.message).flatMap fun line => '\n' :: indent ++ line) ++
      "\n\n")

/-- The lines of an entry, as they are written one by one. -/
def entryLines (now : Moment) (columns : Nat) (note : Note) : List String :=
  heading now note ::
    (bodyLines columns note.message).map (fun line => String.ofList ('\n' :: indent ++ line)) ++
    ["\n\n"]

def dayFile (now : Moment) (kind : NoteKind) : String :=
  "logs/" ++ kind.label ++ "_" ++ String.ofList now.dayText ++ ".md"

def target (home : Path) (now : Moment) (note : Note) : Path :=
  logPath home (note.path.getD (dayFile now note.kind))

variable [Strays]

/-- What of an entry comes before its first line that cannot be encoded. -/
def encodedText (now : Moment) (columns : Nat) (note : Note) : String :=
  String.join ((entryLines now columns note).takeWhile isEncodable)

/-- The store after an attempt to append a text, and whether it was written, unless a path cannot be
encoded. -/
def writeEntry (store : Store) (path : Path) (text : String) : Store × Except NoteFault Bool :=
  if !path.parent.names.all isNamable then (store, .error .unencodable)
  else
    match store.makeFolders path.parent with
    | .error _ => (store, .ok false)
    | .ok made =>
      if !path.names.all isNamable then (made, .error .unencodable)
      else
        match made.append path text.toUTF8 with
        | .error _ => (made, .ok false)
        | .ok written => (written, .ok true)

/-- Notes a message: the store afterwards, and what is printed.  Output too takes only what can be
encoded, so an entry with a stray is not printed either. -/
def record (home : Path) (now : Moment) (columns : Nat) (store : Store) (note : Note) :
    Store × Except NoteFault String :=
  match entryText now columns note with
  | .error _ => (store, .error .tooNarrow)
  | .ok text =>
    let (after, written) :=
      writeEntry store (target home now note) (encodedText now columns note)
    match written with
    | .error fault => (after, .error fault)
    | .ok written =>
      if !isEncodable text then (after, .error .unencodable)
      else (after, .ok (if note.print || !written then text ++ "\n" else ""))

end Journal

end CronFire
