import CronFire.Decimal.Binary
/-!
# Values and tables

The values of a TOML document.  A table lists its keys with their values, each key once.
A date or a time of day is only told apart from the other values.
-/
namespace CronFire.Toml

/-- A value.  `absent` is never written in a document; settings that are put together otherwise
may hold it. -/
inductive Value where
  | absent
  | boolean (b : Bool)
  | integer (n : Int)
  | real (x : Binary)
  | string (s : String)
  /-- A date, a time of day or both. -/
  | temporal
  | array (items : List Value)
  | table (entries : List (String × Value))

abbrev Table := List (String × Value)

/-- A path of keys through tables. -/
abbrev Key := List String

/-- How reading a document fails. -/
inductive Fault where
  /-- The text is no document. -/
  | malformed
  /-- A whole number has more than `Text.digitLimit` decimal digits. -/
  | numeralTooLong
  deriving DecidableEq, Repr

namespace Table

def put (t : Table) (key : String) (v : Value) : Table := (key, v) :: t.filter (·.1 ≠ key)

/-- Changes the table that a path of keys leads to.  Tables that are missing on the way are
made.  Where `throughArrays` allows it, an array of tables stands for its last table. -/
def update (throughArrays : Bool) (f : Table → Except Fault Table) :
    Key → Table → Except Fault Table
  | [], t => f t
  | key :: keys, t =>
    match t.lookup key with
    | none => do
      let inner ← update throughArrays f keys []
      .ok (t.put key (.table inner))
    | some (.table inner) => do
      let inner ← update throughArrays f keys inner
      .ok (t.put key (.table inner))
    | some (.array items) =>
      match throughArrays, items.getLast? with
      | true, some (.table inner) => do
        let inner ← update throughArrays f keys inner
        .ok (t.put key (.array (items.dropLast ++ [.table inner])))
      | _, _ => .error .malformed
    | some _ => .error .malformed

def addNew (key : String) (v : Value) (t : Table) : Except Fault Table :=
  if (t.lookup key).isSome then .error .malformed else .ok (t.put key v)

/-- Appends an empty table to an array of tables, which is made if it is missing. -/
def appendTable (key : String) (t : Table) : Except Fault Table :=
  match t.lookup key with
  | none => .ok (t.put key (.array [.table []]))
  | some (.array items) => .ok (t.put key (.array (items ++ [.table []])))
  | some _ => .error .malformed

end Table

/-- Some path in the list leads to the key or to a table on the way to it. -/
def covers (paths : List Key) (key : Key) : Bool := paths.any (·.isPrefixOf key)

end CronFire.Toml
