import CronFire.Text.Blank
/-!
# Similar names

Two names are similar if the pieces they share make up at least six tenths of both.  The shared
pieces are the longest run of characters that occurs in both, and the shared pieces on either
side of it.

* `similarNames`: the names that a mistyped one may stand for.
-/
namespace CronFire.Text

def commonStart : List Char → List Char → Nat
  | c :: cs, d :: ds => if c = d then commonStart cs ds + 1 else 0
  | _, _ => 0

/-- A run of characters that two texts share: where it begins in each, and how long it is. -/
structure SharedRun where
  left : Nat
  right : Nat
  size : Nat
  deriving DecidableEq, Repr

/-- All shared runs, by their place in the first text and then in the second. -/
def sharedRuns (cs ds : List Char) : List SharedRun :=
  (List.range cs.length).flatMap fun i =>
    (List.range ds.length).map fun j => ⟨i, j, commonStart (cs.drop i) (ds.drop j)⟩

def longestRun? (cs ds : List Char) : Option SharedRun :=
  (sharedRuns cs ds).foldl
    (fun best run =>
      if (best.elim 0 SharedRun.size) < run.size then some run else best)
    none

/-- The number of characters in shared pieces; `fuel` bounds the number of pieces inside one
another. -/
def sharedSize : (fuel : Nat) → List Char → List Char → Nat
  | 0, _, _ => 0
  | fuel + 1, cs, ds =>
    match longestRun? cs ds with
    | none => 0
    | some run =>
      run.size + sharedSize fuel (cs.take run.left) (ds.take run.right) +
        sharedSize fuel (cs.drop (run.left + run.size)) (ds.drop (run.right + run.size))

/-- A name that another one may be meant for, with the number of characters in shared pieces and
the number of characters in both. -/
structure Likeness where
  name : String
  shared : Nat
  total : Nat
  deriving DecidableEq, Repr

def likeness (name candidate : String) : Likeness :=
  let cs := candidate.toList
  let ds := name.toList
  ⟨candidate, sharedSize (cs.length + 1) cs ds, cs.length + ds.length⟩

/-- At least six tenths are shared. -/
def Likeness.isClose (l : Likeness) : Bool := 3 * l.total ≤ 10 * l.shared

/-- `l` is more alike than `m`; of two equally alike, the later in the alphabet comes first. -/
def Likeness.precedes (l m : Likeness) : Bool :=
  m.shared * l.total < l.shared * m.total ||
    (m.shared * l.total = l.shared * m.total && m.name ≤ l.name)

/-- The candidates that are similar to a name, at most three, in alphabetical order. -/
def similarNames (name : String) (candidates : List String) : List String :=
  let close := (candidates.map (likeness name)).filter Likeness.isClose
  (((close.mergeSort Likeness.precedes).take 3).map Likeness.name).mergeSort fun a b => a ≤ b

end CronFire.Text
