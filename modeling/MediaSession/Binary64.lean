namespace MediaSession

/-- A number in the 64-bit binary interchange format, given by its bits. -/
structure Binary64 where
  bits : UInt64
  deriving DecidableEq, Inhabited, Repr

def Binary64.zero : Binary64 := ⟨0⟩

def Binary64.word (x : Binary64) : Nat := x.bits.toNat

def Binary64.isNegative (x : Binary64) : Bool := 0x8000000000000000 ≤ x.word

def Binary64.exponentField (x : Binary64) : Nat := x.word / 0x10000000000000 % 2048

def Binary64.fractionField (x : Binary64) : Nat := x.word % 0x10000000000000

def Binary64.isFinite (x : Binary64) : Bool := x.exponentField < 2047

def Binary64.isNaN (x : Binary64) : Bool := x.exponentField = 2047 ∧ x.fractionField ≠ 0

def Binary64.isZero (x : Binary64) : Bool := x.exponentField = 0 ∧ x.fractionField = 0

/-- The significand of a finite number; the exponent field zero alone implies no leading one. -/
def Binary64.significand (x : Binary64) : Nat :=
  if x.exponentField = 0 then x.fractionField else 0x10000000000000 + x.fractionField

/-- The power of two that scales the significand, counted from the least one, -1074. -/
def Binary64.scale (x : Binary64) : Nat := x.exponentField - 1

/-- A finite number's magnitude is `numerator / denominator`. -/
def Binary64.numerator (x : Binary64) : Nat :=
  if 1074 ≤ x.scale then x.significand <<< (x.scale - 1074) else x.significand

def Binary64.denominator (x : Binary64) : Nat :=
  if 1074 ≤ x.scale then 1 else 1 <<< (1074 - x.scale)

theorem Binary64.denominator_pos (x : Binary64) : 0 < x.denominator := by
  unfold denominator
  split
  · exact Nat.one_pos
  · rw [Nat.one_shiftLeft]
    exact Nat.two_pow_pos _

/-- Numeric equality: no value equals a NaN, and the two zeros are equal. -/
def Binary64.equals (x y : Binary64) : Bool :=
  !x.isNaN && !y.isNaN && (x = y || (x.isZero && y.isZero))

def Binary64.isPositive (x : Binary64) : Bool := !x.isNaN && !x.isNegative && !x.isZero

/-- The whole part of the value kept within 0 and `limit`; a NaN counts as 0. -/
def Binary64.clampedFloor (limit : Nat) (x : Binary64) : Nat :=
  if x.isNaN || x.isNegative then 0
  else if x.isFinite then min (x.numerator / x.denominator) limit
  else limit

def Binary64.withSign (negative : Bool) (word : Nat) : Binary64 :=
  ⟨UInt64.ofNat (if negative then 0x8000000000000000 + word else word)⟩

def Binary64.infinityWord : Nat := 0x7FF0000000000000

def Binary64.infinity (negative : Bool) : Binary64 := withSign negative infinityWord

def Binary64.nan : Binary64 := ⟨0x7FF8000000000000⟩

end MediaSession
