import CronFire.Toml.Reader
/-!
# Documents

A document is read statement by statement into a table.  Beside the table stand the paths that
later statements may not use: those that a header has opened or a dotted key has passed
through, and those that hold an array or a table written as a value.  A path that a dotted key
passes through is closed for headers once the next header begins.

* `read`: the table of a document.
-/
namespace CronFire.Toml

structure Draft where
  entries : Table := []
  /-- The path of the table that keys go to. -/
  header : Key := []
  /-- Paths that no header may open again, nor a dotted key pass through. -/
  opened : List Key := []
  /-- Paths that hold an array or a table written as a value: nothing may enter them. -/
  closed : List Key := []
  /-- Paths that become `opened` when the next header begins. -/
  passed : List Key := []

namespace Draft

/-- The draft at the beginning of a header. -/
def endSection (d : Draft) : Draft := { d with opened := d.passed ++ d.opened, passed := [] }

def openTable (d : Draft) (k : Key) : Except Fault Draft :=
  let d := d.endSection
  if d.opened.contains k || covers d.closed k then malformed
  else do
    let entries ← Table.update true .ok k d.entries
    .ok { d with entries := entries, header := k, opened := k :: d.opened }

/-- Opens one more table of an array.  What was closed below the array is free again. -/
def appendTable (d : Draft) (k : Key) : Except Fault Draft :=
  let d := d.endSection
  if covers d.closed k then malformed
  else do
    let entries ←
      Table.update true (Table.appendTable (k.getLast?.getD "")) k.dropLast d.entries
    let outside (path : Key) : Bool := !k.isPrefixOf path
    .ok { d with entries := entries, header := k, opened := k :: d.opened.filter outside,
                 closed := d.closed.filter outside }

/-- The tables that a key below the header passes through. -/
def passages (header k : Key) : List Key :=
  (List.range (k.length - 1)).map fun i => header ++ k.take (i + 1)

def assign (d : Draft) (k : Key) (v : Value) : Except Fault Draft :=
  let through := passages d.header k
  let parent := d.header ++ k.dropLast
  if through.any d.opened.contains || covers d.closed parent then malformed
  else do
    let entries ← Table.update true (Table.addNew (k.getLast?.getD "") v) parent d.entries
    .ok { d with entries := entries, passed := through ++ d.passed,
                 closed := if v.isContainer then (d.header ++ k) :: d.closed else d.closed }

def apply (d : Draft) : Statement → Except Fault Draft
  | .blank => .ok d
  | .assign k v => d.assign k v
  | .open k => d.openTable k
  | .append k => d.appendTable k

end Draft

/-- Reads the lines of a document; the fuel, one more than its characters, outlasts them. -/
def readLines : (fuel : Nat) → Draft → List Char → Except Fault Draft
  | 0, _, _ => malformed
  | fuel + 1, d, cs => do
    let (s, rest) ← statement (skipSpaces cs)
    let d ← d.apply s
    match ← skipComment rest with
    | [] => .ok d
    | '\n' :: rest => readLines fuel d rest
    | _ => malformed

/-- Carriage returns before line feeds left out. -/
def joinLineEnds : List Char → List Char
  | '\r' :: '\n' :: cs => '\n' :: joinLineEnds cs
  | c :: cs => c :: joinLineEnds cs
  | [] => []

def read (text : String) : Except Fault Table :=
  let cs := joinLineEnds text.toList
  (readLines (cs.length + 1) {} cs).map Draft.entries

end CronFire.Toml
