import CronFire.Field.Token
import CronFire.Field.ValueSet
import CronFire.Text.Quoted
/-!
# Fields

A field is a token together with the set of values it allows.
-/
namespace CronFire

structure Field where
  /-- The token as it was written; missing before any was read. -/
  token : Option String
  allowed : ValueSet
  deriving DecidableEq, Repr

/-- A fault and the whole token it was found in. -/
structure FieldError where
  token : Option String
  fault : Fault
  deriving DecidableEq, Repr

def FieldError.message (e : FieldError) : String :=
  "can't parse token \"" ++ e.token.getD "None" ++ "\": " ++ e.fault.message

namespace Field

def read (d : Domain) (token : Option String) : Except (Failure FieldError) Field :=
  match Token.read d token with
  | .error failure => .error (failure.map (FieldError.mk token))
  | .ok parts => .ok ⟨token, .ofSpans d (parts.map (Part.span d))⟩

/-- A field before any token was read. -/
def blank (d : Domain) : Field := ⟨none, .empty d.minimum d.maximum⟩

def valueList (f : Field) : String := ", ".intercalate (f.allowed.toList.map Text.decimal)

variable [Strays]

/-- The field in one line: token, domain and values. -/
def describe (f : Field) : String :=
  "FieldSet(" ++ (f.token.map Text.quoted).getD "None" ++ ", [" ++
    Text.decimal f.allowed.minimum ++ ", " ++ Text.decimal f.allowed.maximum ++ "], values=[" ++
    f.valueList ++ "])"

end Field

end CronFire
