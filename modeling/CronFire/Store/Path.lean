import CronFire.Text.Blank
/-!
# Paths

A path is a root and a list of names.  Reading one drops empty names and single dots and keeps
double dots, so no name of a path that was read is empty, a dot, or holds a slash.  Exactly two
slashes at the start are a root of their own.
-/
namespace CronFire

inductive Root where
  /-- At the working folder. -/
  | relative
  /-- At the root folder. -/
  | slash
  /-- At the root folder, written with two slashes. -/
  | doubleSlash
  deriving DecidableEq, Repr

def Root.text : Root → String
  | .relative => ""
  | .slash => "/"
  | .doubleSlash => "//"

structure Path where
  root : Root
  names : List String
  deriving DecidableEq, Repr

namespace Path

def rootOf : List Char → Root
  | '/' :: '/' :: '/' :: _ => .slash
  | '/' :: '/' :: _ => .doubleSlash
  | '/' :: _ => .slash
  | _ => .relative

/-- Holds of the names that a path keeps. -/
def isName (name : List Char) : Bool := name != [] && name != ['.']

def read (text : String) : Path :=
  ⟨rootOf text.toList, ((Text.pieces '/' text.toList).filter isName).map String.ofList⟩

/-- The text of a path; the empty relative path is a dot. -/
def text (p : Path) : String :=
  if p.root = .relative ∧ p.names = [] then "."
  else p.root.text ++ "/".intercalate p.names

def isAbsolute (p : Path) : Bool := p.root != .relative

/-- `q` seen from `p`; an absolute `q` is not moved. -/
def join (p q : Path) : Path := if q.isAbsolute then q else ⟨p.root, p.names ++ q.names⟩

def child (p : Path) (name : String) : Path := ⟨p.root, p.names ++ [name]⟩

def parent (p : Path) : Path := ⟨p.root, p.names.dropLast⟩

end Path

end CronFire
