import CronFire.CommandLine.Program
import Std.Time.Zoned
/-!
# The command

Runs the program on the files of this machine: the files in use are taken into a store, the call
is run on it, and what it changed is written back.
-/
namespace CronFire

def localNow : IO Moment := do
  let t ← Std.Time.PlainDateTime.now
  pure
    ⟨⟨t.date.year, t.date.month.val, t.date.day.val⟩,
      ⟨t.time.hour.val, t.time.minute.val, t.time.second.val⟩,
      t.time.nanosecond.val / 1000, none⟩

/-- The width of the terminal, as far as the environment tells. -/
def terminalColumns : IO Nat := do
  let told ← IO.getEnv "COLUMNS"
  pure (((told.bind String.toNat?).filter (0 < ·)).getD 80)

/-- What standard input holds, unless it is a terminal.  It is read only for a call that may ask
for it. -/
def standardInput (args : List String) : IO (Option String) := do
  let stdin ← IO.getStdin
  if ← stdin.isTty then pure none
  else if args.contains CommandLine.Command.check.name then pure (some (← stdin.readToEnd))
  else pure (some "")

/-- The store with what lies at a path, if anything does. -/
def takeEntry (store : Store) (path : Path) : IO Store := do
  try
    let real ← IO.FS.realPath path.text
    if ← real.isDir then pure ((store.makeFolders path).toOption.getD store)
    else pure (store.put path.location (.file (← IO.FS.readBinFile real)))
  catch _ => pure store

/-- The store with what lies at a path and on the way there. -/
def takePath (store : Store) (path : Path) : IO Store :=
  ((List.range (path.names.length + 1)).map path.names.take).foldlM
    (fun store names => takeEntry store { path with names }) store

/-- Writes the file at a path if it is not as before. -/
def putBack (before after : Store) (path : Path) : IO Unit :=
  match before.read path, after.read path with
  | .ok old, .ok new => if old.data == new.data then pure () else IO.FS.writeBinFile path.text new
  | .error _, .ok new => do
    IO.FS.createDirAll path.parent.text
    IO.FS.writeBinFile path.text new
  | _, .error _ => pure ()

end CronFire

open CronFire

/-- Arguments are decoded before they come here, so they hold no strays. -/
local instance : Strays := .none

def main (args : List String) : IO UInt32 := do
  let environment : Variables :=
    { home := ← IO.getEnv "CRONCALC_HOME", configuration := ← IO.getEnv "XDG_CONFIG_HOME",
      user := ← IO.getEnv "HOME" }
  let surroundings : CommandLine.Surroundings :=
    { now := ← localNow, columns := ← terminalColumns, environment, input := ← standardInput args,
      reader := .plain, platform := .universal, emoji := .none }
  let paths := CommandLine.filesInUse surroundings args
  let before ← paths.foldlM takePath {}
  let report := CommandLine.run surroundings before args
  paths.forM (putBack before report.store)
  IO.print report.output
  if let some cause := report.crash then
    IO.eprintln (CommandLine.programName ++ ": " ++ cause.message)
  pure (UInt32.ofNat report.code)
