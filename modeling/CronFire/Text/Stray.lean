/-!
# Strays

A text from outside may hold code points that are no characters: a byte that cannot be decoded is
handed on as a surrogate that stands alone, a stray.  Texts hold characters only here, so each
stray has a private-use character of the last two planes for it.  Such a character is like a stray
in all but two respects, which are asked about where they matter: a stray cannot be encoded, and
shows by its own code.  Which characters stand for strays is left open, so that every text, whatever
private-use characters it holds itself, is a text here for some choice of them.
-/
namespace CronFire

/-- The characters that stand for strays, with the codes of these. -/
class Strays where
  code? : Char → Option Nat
  isSurrogate : ∀ {c n}, code? c = some n → 0xd800 ≤ n ∧ n ≤ 0xdfff
  isPrivate : ∀ {c n}, code? c = some n → 0xf0000 ≤ c.toNat

/-- All characters stand for themselves. -/
@[reducible] def Strays.none : Strays := ⟨fun _ => .none, nofun, nofun⟩

namespace Text

section
variable [Strays]

def isStray (c : Char) : Bool := (Strays.code? c).isSome

/-- Holds of a text without strays, which can be encoded. -/
def isEncodable (text : String) : Bool := text.toList.all (!isStray ·)

/-- Holds of a text that can name a file.  A stray that stands for a byte does not prevent that.
Names are told apart as texts: strays whose bytes make up a character, which no decoding leaves
behind, are not taken for it. -/
def isNamable (text : String) : Bool :=
  text.toList.all fun c => (Strays.code? c).all fun n => 0xdc80 ≤ n && n ≤ 0xdcff

theorem isStray_eq_false {c : Char} (h : c.toNat < 0xf0000) : isStray c = false := by
  rw [isStray, Option.isSome_eq_false_iff, Option.isNone_iff_eq_none,
    Option.eq_none_iff_forall_ne_some]
  exact fun n hn => Nat.not_le.2 h (Strays.isPrivate hn)

theorem isEncodable_append (s t : String) :
    isEncodable (s ++ t) = (isEncodable s && isEncodable t) := by
  rw [isEncodable, String.toList_append, List.all_append]
  rfl

/-- A text whose characters are all below the private-use planes can be encoded. -/
theorem isEncodable_of_low {text : String}
    (h : text.toList.all (fun c => c.toNat < 0xf0000) = true) : isEncodable text = true := by
  rw [isEncodable, List.all_eq_true]
  intro c hc
  rw [isStray_eq_false (by simpa using List.all_eq_true.1 h c hc)]
  rfl

end

theorem isEncodable_of_none (text : String) : @isEncodable .none text = true :=
  List.all_eq_true.2 fun _ _ => rfl

theorem isNamable_of_none (text : String) : @isNamable .none text = true :=
  List.all_eq_true.2 fun _ _ => rfl

end Text

end CronFire
