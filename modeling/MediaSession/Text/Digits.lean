namespace MediaSession

/-- The value of a digit in `base`; letters count from ten in either case. -/
def digitValue? (base : Nat) (c : Char) : Option Nat :=
  let value :=
    if '0' ≤ c ∧ c ≤ '9' then c.toNat - '0'.toNat
    else if 'a' ≤ c ∧ c ≤ 'f' then c.toNat - 'a'.toNat + 10
    else if 'A' ≤ c ∧ c ≤ 'F' then c.toNat - 'A'.toNat + 10
    else base
  if value < base then some value else none

def isDigit (base : Nat) (c : Char) : Bool := (digitValue? base c).isSome

def spelled (base : Nat) (digits : List Char) : Nat :=
  digits.foldl (fun n c => base * n + (digitValue? base c).getD 0) 0

def digitRun (s : List Char) : List Char × List Char :=
  (s.takeWhile (isDigit 10), s.dropWhile (isDigit 10))

/-- The text of a number that carries a fraction, an exponent or both. -/
structure DecimalText where
  negative : Bool := false
  whole : List Char := []
  fraction : List Char := []
  exponent : Int := 0

def DecimalText.digits (t : DecimalText) : Nat := spelled 10 (t.whole ++ t.fraction)

def DecimalText.unit (t : DecimalText) : Int := t.exponent - t.fraction.length

end MediaSession
