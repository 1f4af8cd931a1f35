import CronFire.Store.Path
/-!
# Folders and files

A store is a tree of folders and files, kept as what lies at each location.  A location is the
list of names that leads to it from the root folder, which is always there; a relative path is
taken from the root folder too.  Double dots lead one name back.

* `find?_put`: what a change does to every location.
* `makeFolders`, `append`, `write`, `remove`: the changes, and why one may be refused.
-/
namespace CronFire

/-- The names from the root folder on. -/
abbrev Location := List String

/-- One name on from a location; double dots lead back. -/
def Location.step (l : Location) (name : String) : Location :=
  if name = ".." then l.dropLast else l ++ [name]

def Path.location (p : Path) : Location := p.names.foldl Location.step []

inductive Entry where
  | folder
  | file (content : ByteArray)

/-- Why a change to a store is refused. -/
inductive StoreFault where
  /-- There is nothing at the location, or no folder for it. -/
  | notFound
  /-- A file stands where a folder is needed on the way. -/
  | notAFolder
  /-- A folder stands where a file is needed. -/
  | isAFolder
  /-- A file stands where a folder is to be made. -/
  | alreadyThere
  deriving DecidableEq, Repr

structure Store where
  entries : List (Location × Entry) := []

namespace Store

/-- What lies at a location, if anything does. -/
def find? (s : Store) (l : Location) : Option Entry :=
  if l = [] then some .folder else s.entries.lookup l

def put (s : Store) (l : Location) (e : Entry) : Store :=
  ⟨(l, e) :: s.entries.filter (·.1 ≠ l)⟩

def drop (s : Store) (l : Location) : Store := ⟨s.entries.filter (·.1 ≠ l)⟩

theorem lookup_filter_ne (entries : List (Location × Entry)) {l m : Location} (h : m ≠ l) :
    (entries.filter (·.1 ≠ l)).lookup m = entries.lookup m := by
  induction entries with
  | nil => rfl
  | cons p ps ih =>
    obtain ⟨k, e⟩ := p
    by_cases hk : k = l
    · subst hk
      have hm : (m == k) = false := by simp [h]
      rw [List.filter_cons_of_neg (by simp), List.lookup_cons, hm]
      exact ih
    · rw [List.filter_cons_of_pos (by simpa using hk), List.lookup_cons, List.lookup_cons, ih]

/-- A change shows at its own location and nowhere else. -/
theorem find?_put (s : Store) {l : Location} (hl : l ≠ []) (e : Entry) (m : Location) :
    (s.put l e).find? m = if m = l then some e else s.find? m := by
  unfold find? put
  by_cases hm : m = l
  · subst hm; simp [hl]
  · have hb : (m == l) = false := by simp [hm]
    simp only [List.lookup_cons, hb, lookup_filter_ne _ hm, hm, if_false]

def exists? (s : Store) (l : Location) : Bool := (s.find? l).isSome

/-- Makes the folders that are missing on the way from `l` along `names`. -/
def makeFoldersFrom (s : Store) (l : Location) : List String → Except StoreFault Store
  | [] => .ok s
  | name :: names =>
    let next := l.step name
    match s.find? next with
    | none => (s.put next .folder).makeFoldersFrom next names
    | some .folder => s.makeFoldersFrom next names
    | some (.file _) => .error (if names = [] then .alreadyThere else .notAFolder)

/-- Makes the folder that a path leads to, and those on the way, where they are missing. -/
def makeFolders (s : Store) (p : Path) : Except StoreFault Store := s.makeFoldersFrom [] p.names

/-- Why no file can be made at a location where nothing lies, if none can. -/
def newFileFault? (s : Store) (l : Location) : Option StoreFault :=
  match s.find? l.dropLast with
  | some .folder => none
  | some (.file _) => some .notAFolder
  | none => some .notFound

/-- Appends to the file at a path; it is made if it is missing from its folder. -/
def append (s : Store) (p : Path) (content : ByteArray) : Except StoreFault Store :=
  let l := p.location
  match s.find? l with
  | some .folder => .error .isAFolder
  | some (.file old) => .ok (s.put l (.file (old ++ content)))
  | none =>
    match s.newFileFault? l with
    | some fault => .error fault
    | none => .ok (s.put l (.file content))

def write (s : Store) (p : Path) (content : ByteArray) : Except StoreFault Store :=
  let l := p.location
  match s.find? l with
  | some .folder => .error .isAFolder
  | some (.file _) => .ok (s.put l (.file content))
  | none =>
    match s.newFileFault? l with
    | some fault => .error fault
    | none => .ok (s.put l (.file content))

def read (s : Store) (p : Path) : Except StoreFault ByteArray :=
  match s.find? p.location with
  | some .folder => .error .isAFolder
  | some (.file content) => .ok content
  | none => .error .notFound

def remove (s : Store) (p : Path) : Except StoreFault Store :=
  match s.find? p.location with
  | some .folder => .error .isAFolder
  | some (.file _) => .ok (s.drop p.location)
  | none => .error .notFound

/-- The files below a path, each with its names from there on. -/
def filesBelow (s : Store) (p : Path) : List (List String × ByteArray) :=
  s.entries.filterMap fun (l, e) =>
    match e with
    | .folder => none
    | .file content =>
      if p.location.isPrefixOf l && l != p.location then
        some (l.drop p.location.length, content)
      else none

end Store

end CronFire
