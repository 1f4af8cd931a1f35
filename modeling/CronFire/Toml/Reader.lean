import CronFire.Toml.Number
/-!
# Keys, values and statements

A statement is a key with its value, a table header or the header of one more table of an
array; it takes one line, but for line ends inside arrays and strings.  Each reader gives what it
read and the text that follows.

Arrays and tables may stand in each other to any depth.  A reader that calls itself for each of them
also fails where its stack ends, after some hundreds of them; that limit is no part of this account.
-/
namespace CronFire.Toml

def isSpace (c : Char) : Bool := c = ' ' || c = '\t'

/-- The text after spaces and tabs. -/
def skipSpaces (cs : List Char) : List Char := cs.dropWhile isSpace

/-- The text after white space, line ends and comments; `inComment` says where it begins. -/
def skipFiller : (inComment : Bool) → List Char → Except Fault (List Char)
  | _, [] => .ok []
  | true, c :: cs =>
    if c = '\n' then skipFiller false cs
    else if isControl c then malformed
    else skipFiller true cs
  | false, c :: cs =>
    if isSpace c || c = '\n' then skipFiller false cs
    else if c = '#' then skipFiller true cs
    else .ok (c :: cs)

/-- The text from the line end after a comment on; a comment may be missing. -/
def skipComment : List Char → Except Fault (List Char)
  | '#' :: cs =>
    if (cs.takeWhile (· ≠ '\n')).any isControl then malformed
    else .ok (cs.dropWhile (· ≠ '\n'))
  | cs => .ok cs

def isBareKeyChar (c : Char) : Bool := c.isAlphanum || c = '-' || c = '_'

def keyPart (cs : List Char) : Except Fault (String × List Char) :=
  match cs with
  | '"' :: rest => (basicString rest).map fun (s, rest) => (String.ofList s, rest)
  | '\'' :: rest => (literalString rest).map fun (s, rest) => (String.ofList s, rest)
  | c :: _ =>
    if isBareKeyChar c then
      .ok (String.ofList (cs.takeWhile isBareKeyChar), cs.dropWhile isBareKeyChar)
    else malformed
  | [] => malformed

/-- A key: parts between points, at most `fuel` of them. -/
def keyParts : (fuel : Nat) → List Char → Except Fault (Key × List Char)
  | 0, _ => malformed
  | fuel + 1, cs => do
    let (part, rest) ← keyPart cs
    match skipSpaces rest with
    | '.' :: more => do
      let (parts, rest) ← keyParts fuel (skipSpaces more)
      .ok (part :: parts, rest)
    | rest => .ok ([part], rest)

/-- A key, with the spaces after it. -/
def key (cs : List Char) : Except Fault (Key × List Char) := keyParts (cs.length + 1) cs

/-- A key and the equals sign after it, with the spaces after that. -/
def keyAndEquals (cs : List Char) : Except Fault (Key × List Char) := do
  let (k, rest) ← key cs
  match rest with
  | '=' :: rest => .ok (k, skipSpaces rest)
  | _ => malformed

/-- Holds of arrays and tables. -/
def Value.isContainer : Value → Bool
  | .array _ | .table _ => true
  | _ => false

/-- A table between braces while it is read: what it holds, and the keys of its arrays and
tables, which later keys may not enter. -/
structure InlineTable where
  entries : Table := []
  closed : List Key := []

def InlineTable.add (t : InlineTable) (k : Key) (v : Value) : Except Fault InlineTable := do
  if covers t.closed k then malformed
  else
    let entries ← Table.update false (Table.addNew (k.getLast?.getD "") v) k.dropLast t.entries
    .ok ⟨entries, if v.isContainer then k :: t.closed else t.closed⟩

mutual

/-- A value, nested to any depth: no stack ends the reading.  The fuel, one more than the characters
of the text, outlasts every reading. -/
def valueWith : (fuel : Nat) → List Char → Except Fault (Value × List Char)
  | 0, _ => malformed
  | fuel + 1, cs =>
    match cs with
    | '"' :: _ | '\'' :: _ => (string cs).map fun (s, rest) => (.string (String.ofList s), rest)
    | 't' :: 'r' :: 'u' :: 'e' :: rest => .ok (.boolean true, rest)
    | 'f' :: 'a' :: 'l' :: 's' :: 'e' :: rest => .ok (.boolean false, rest)
    | '[' :: rest => do
      let rest ← skipFiller false rest
      let (items, rest) ← arrayWith fuel rest
      .ok (.array items, rest)
    | '\x7b' :: rest =>
      match skipSpaces rest with
      | '\x7d' :: rest => .ok (.table [], rest)
      | rest => do
        let (t, rest) ← inlineWith fuel {} rest
        .ok (.table t.entries, rest)
    | _ => numberOrTime cs

/-- The values of an array up to its closing bracket. -/
def arrayWith : (fuel : Nat) → List Char → Except Fault (List Value × List Char)
  | 0, _ => malformed
  | fuel + 1, cs =>
    match cs with
    | ']' :: rest => .ok ([], rest)
    | _ => do
      let (v, rest) ← valueWith fuel cs
      match ← skipFiller false rest with
      | ']' :: rest => .ok ([v], rest)
      | ',' :: rest => do
        let rest ← skipFiller false rest
        let (vs, rest) ← arrayWith fuel rest
        .ok (v :: vs, rest)
      | _ => malformed

/-- The keys of a table between braces, up to the closing one. -/
def inlineWith : (fuel : Nat) → InlineTable → List Char → Except Fault (InlineTable × List Char)
  | 0, _, _ => malformed
  | fuel + 1, t, cs => do
    let (k, rest) ← keyAndEquals cs
    let (v, rest) ← valueWith fuel rest
    let t ← t.add k v
    match skipSpaces rest with
    | '\x7d' :: rest => .ok (t, rest)
    | ',' :: rest => inlineWith fuel t (skipSpaces rest)
    | _ => malformed

end

def readValue (cs : List Char) : Except Fault (Value × List Char) := valueWith (cs.length + 1) cs

inductive Statement where
  /-- Nothing. -/
  | blank
  /-- That a key has a value. -/
  | assign (k : Key) (v : Value)
  /-- That the keys that follow are those of a table. -/
  | open (k : Key)
  /-- That the keys that follow are those of one more table of an array. -/
  | append (k : Key)

/-- A statement, with the spaces after it. -/
def statement (cs : List Char) : Except Fault (Statement × List Char) :=
  match cs with
  | [] | '\n' :: _ | '#' :: _ => .ok (.blank, cs)
  | '[' :: '[' :: rest => do
    let (k, rest) ← key (skipSpaces rest)
    match rest with
    | ']' :: ']' :: rest => .ok (.append k, skipSpaces rest)
    | _ => malformed
  | '[' :: rest => do
    let (k, rest) ← key (skipSpaces rest)
    match rest with
    | ']' :: rest => .ok (.open k, skipSpaces rest)
    | _ => malformed
  | _ => do
    let (k, rest) ← keyAndEquals cs
    let (v, rest) ← readValue rest
    .ok (.assign k v, skipSpaces rest)

end CronFire.Toml
