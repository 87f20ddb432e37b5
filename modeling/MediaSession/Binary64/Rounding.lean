import MediaSession.Binary64

namespace MediaSession

/-- The whole number nearest to `num / den`; a tie goes to the even neighbour. -/
def roundHalfEven (num den : Nat) : Nat :=
  let floor := num / den
  let rest := num % den
  if den < 2 * rest ∨ (2 * rest = den ∧ floor % 2 = 1) then floor + 1 else floor

def tenTo (exponent : Nat) : Nat := Nat.pow 10 exponent

/-- `num / den` as a multiple of `2 ^ (scale - 1074)`, as a fraction. -/
def Binary64.scaled (num den scale : Nat) : Nat × Nat :=
  if 1074 ≤ scale then (num, den <<< (scale - 1074)) else (num <<< (1074 - scale), den)

/-- The least scale at which `num / den` needs at most fifty-three bits. -/
def Binary64.fittingScale (num den : Nat) : Nat :=
  let low := num.log2 + 1074 - den.log2 - 53
  let (n, d) := scaled num den low
  if n / d < 0x20000000000000 then low else low + 1

/-- The number nearest to `num / den`, ties to the even significand, infinity past the largest. -/
def Binary64.ofFraction (negative : Bool) (num den : Nat) : Binary64 :=
  let scale := fittingScale num den
  let (n, d) := scaled num den scale
  withSign negative (min (scale * 0x10000000000000 + roundHalfEven n d) infinityWord)

def Binary64.digitCount (n : Nat) : Nat := (Nat.toDigits 10 n).length

/--
The number nearest to `digits * 10 ^ exponent`. Values whose leading digit stands far outside the
range of the format are settled by its position alone.
-/
def Binary64.ofDecimal (negative : Bool) (digits : Nat) (exponent : Int) : Binary64 :=
  let lead := exponent + digitCount digits
  if digits = 0 ∨ lead < -330 then withSign negative 0
  else if 310 < lead then infinity negative
  else if 0 ≤ exponent then ofFraction negative (digits * tenTo exponent.toNat) 1
  else ofFraction negative digits (tenTo (-exponent).toNat)

def Binary64.ofInt (n : Int) : Binary64 := ofDecimal (n < 0) n.natAbs 0

end MediaSession
