import CronFire.Store.Path
/-!
# The home folder

The home folder holds the settings file and the logs.  It is named by a variable of its own;
else it is a folder below the configuration folder, which a variable may name or which lies
below the user's home.  A variable that is empty counts as missing.  In the first two
variables a leading name `~` stands for the user's home.
-/
namespace CronFire

structure Variables where
  /-- Names the home folder itself. -/
  home : Option String := none
  /-- Names the configuration folder. -/
  configuration : Option String := none
  /-- Names the user's home. -/
  user : Option String := none
  deriving DecidableEq, Repr

namespace Variables

/-- The user's home; the root folder if its name holds nothing but slashes. -/
def userHome (v : Variables) : Path :=
  let text := (v.user.getD "").toList
  if text.all (· = '/') then ⟨.slash, []⟩ else .read (String.ofList text)

/-- The path with a leading name `~` replaced by the user's home. -/
def expand (v : Variables) (p : Path) : Path :=
  match p with
  | ⟨.relative, "~" :: names⟩ => v.userHome.join ⟨.relative, names⟩
  | p => p

/-- The value of a variable that is there and not empty. -/
def nonempty (value : Option String) : Option String := value.filter (· ≠ "")

def homeFolder (v : Variables) : Path :=
  match nonempty v.home, nonempty v.configuration with
  | some home, _ => v.expand (.read home)
  | none, some configuration => (v.expand (.read configuration)).child "croncalc"
  | none, none => (v.userHome.child ".config").child "croncalc"

end Variables

def settingsPath (home : Path) : Path := home.child "config.toml"

def logPath (home : Path) (text : String) : Path := home.join (.read text)

end CronFire
