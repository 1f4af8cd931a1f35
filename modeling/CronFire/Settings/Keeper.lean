import CronFire.Settings.Accept
import CronFire.Store.Folders
import CronFire.Store.Home
import CronFire.Toml.Document
/-!
# Keeping settings

A keeper finds the settings of a home folder, makes sure they are on file in full, and
remembers what it last loaded.  A file that holds no settings, or unacceptable ones, is
replaced by the defaults, and the user is told.  A file that is not text, or holds a number too
long to convert, stops the keeper and stays as it is.

* `ensure`, `load`, `settings`, `save`: what a keeper does, each with its `Outcome`.
-/
namespace CronFire

/-- Why a file gives no settings. -/
inductive Rejection where
  /-- It is no document. -/
  | unreadable
  /-- It has a value that its setting does not accept. -/
  | unacceptable
  deriving DecidableEq, Repr

def Rejection.message : Rejection → String
  | .unreadable => "the file is not a TOML document"
  | .unacceptable => "a value is not accepted"

inductive Notice where
  | written (path : Path)
  | created (path : Path)
  | rejected (path : Path) (why : Rejection)
  | updated (path : Path)
  deriving DecidableEq, Repr

/-- The line, or the two lines, of a notice. -/
def Notice.text : Notice → String
  | .written path => "✅ Config with comments written to: " ++ path.text ++ "\n"
  | .created path => "✅ Created new config file at " ++ path.text ++ "\n"
  | .rejected path why =>
    "⚠️ Config error in " ++ path.text ++ ": " ++ why.message ++ "\nUsing defaults.\n"
  | .updated path => "✅ Updated " ++ path.text ++ " with any missing defaults.\n"

inductive KeeperFault where
  /-- The store refuses a change, or holds no such file. -/
  | store (fault : StoreFault)
  /-- The file is not text. -/
  | notText
  /-- A number has too many digits to be converted. -/
  | numeralTooLong
  /-- The settings to be saved are not acceptable. -/
  | unacceptable
  deriving DecidableEq, Repr

structure Keeper where
  home : Path
  /-- What was last loaded. -/
  cached : Option Settings := none
  deriving DecidableEq, Repr

/-- What a keeper did: how it and the store are afterwards, what the user was told, and what
came of it. -/
structure Outcome (α : Type) where
  keeper : Keeper
  store : Store
  notices : List Notice
  result : Except KeeperFault α

namespace Keeper

def path (k : Keeper) : Path := settingsPath k.home

/-- Nothing came of it. -/
def stop {α : Type} (k : Keeper) (s : Store) (fault : KeeperFault) : Outcome α :=
  ⟨k, s, [], .error fault⟩

/-- The document of some settings, unless their count is too long for it. -/
def document (settings : Settings) : Except KeeperFault ByteArray :=
  if settings.countTooLong then .error .numeralTooLong else .ok settings.render.toUTF8

/-- Writes settings to the file and says so. -/
def save (k : Keeper) (s : Store) (settings : Settings) : Outcome Unit :=
  match document settings with
  | .error fault => k.stop s fault
  | .ok content =>
    match s.write k.path content with
    | .error fault => k.stop s (.store fault)
    | .ok s => ⟨k, s, [.written k.path], .ok ()⟩

/-- Writes the settings in a table to the file, if they are acceptable. -/
def saveTable (k : Keeper) (s : Store) (t : Toml.Table) : Outcome Unit :=
  match Settings.ofTable? t with
  | none => k.stop s .unacceptable
  | some settings => k.save s settings

/-- Makes the home folder if it is missing and, if wanted, a file with the defaults. -/
def ensure (k : Keeper) (s : Store) (withFile : Bool) : Outcome Unit :=
  match s.makeFolders k.home with
  | .error fault => k.stop s (.store fault)
  | .ok s =>
    if withFile && !s.exists? k.path.location then k.save s {} else ⟨k, s, [], .ok ()⟩

/-- The settings in a document, or why there are none. -/
def interpret (text : String) : Except KeeperFault (Except Rejection Settings) :=
  match Toml.read text with
  | .error .numeralTooLong => .error .numeralTooLong
  | .error .malformed => .ok (.error .unreadable)
  | .ok t =>
    match Settings.ofTable? t with
    | none => .ok (.error .unacceptable)
    | some settings => .ok (.ok settings)

/-- Loads the defaults into a new file. -/
def create (k : Keeper) (s : Store) : Outcome Settings :=
  match s.makeFolders k.home with
  | .error fault => k.stop s (.store fault)
  | .ok s =>
    match s.write k.path ({} : Settings).render.toUTF8 with
    | .error fault => k.stop s (.store fault)
    | .ok s => ⟨{ k with cached := some {} }, s, [.created k.path], .ok {}⟩

/-- Remembers settings that came from a text, and brings the file up to date. -/
def refresh (k : Keeper) (s : Store) (text : String) (notices : List Notice)
    (settings : Settings) : Outcome Settings :=
  match document settings with
  | .error fault => ⟨k, s, notices, .error fault⟩
  | .ok content =>
    let k' : Keeper := { k with cached := some settings }
    if settings.render.toList = Text.unifyNewlines text.toList then ⟨k', s, notices, .ok settings⟩
    else
      match s.write k.path content with
      | .error fault => ⟨k, s, notices, .error (.store fault)⟩
      | .ok s => ⟨k', s, notices ++ [.updated k.path], .ok settings⟩

/-- Loads the settings from the file, which is made if it is missing and brought up to date if
it differs from their document. -/
def load (k : Keeper) (s : Store) : Outcome Settings :=
  if !s.exists? k.path.location then k.create s
  else
    match s.read k.path with
    | .error fault => k.stop s (.store fault)
    | .ok bytes =>
      match String.fromUTF8? bytes with
      | none => k.stop s .notText
      | some text =>
        match interpret text with
        | .error fault => k.stop s fault
        | .ok (.error why) => k.refresh s text [.rejected k.path why] {}
        | .ok (.ok settings) => k.refresh s text [] settings

/-- The settings that were last loaded; they are loaded now if none were. -/
def settings (k : Keeper) (s : Store) : Outcome Settings :=
  match k.cached with
  | some settings => ⟨k, s, [], .ok settings⟩
  | none => k.load s

end Keeper

end CronFire
