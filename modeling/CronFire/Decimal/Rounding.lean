/-!
# Rounding quotients
-/
namespace CronFire

/-- `a / b` rounded to the nearest whole number, a half to the even one. -/
def divideEven (a b : Nat) : Nat :=
  let m := a / b
  let r := a % b
  if 2 * r < b then m else if b < 2 * r then m + 1 else m + m % 2

example : (List.range 8).map (divideEven · 2) = [0, 0, 1, 2, 2, 2, 3, 4] := by decide

end CronFire
