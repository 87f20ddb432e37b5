import MediaSession.Binary64.Rounding

namespace MediaSession

def Binary64.digitsOf (n : Nat) : List Char := Nat.toDigits 10 n

/-- The last `width` decimal digits of `n`, with leading zeros. -/
def Binary64.lastDigits : Nat → Nat → List Char
  | 0, _ => []
  | width + 1, n => lastDigits width (n / 10) ++ [Nat.digitChar (n % 10)]

/-- The magnitude of a finite number in units of its `places`-th decimal place. -/
def Binary64.inUnits (places : Nat) (x : Binary64) : Nat :=
  roundHalfEven (x.numerator * tenTo places) x.denominator

/-- Fixed-point text; infinities and NaN are written by name. -/
def Binary64.fixedPoint (places : Nat) (x : Binary64) : List Char :=
  if x.isNaN then ['N', 'a', 'N']
  else
    let sign := if x.isNegative then ['-'] else []
    if x.isFinite then
      let units := x.inUnits places
      sign ++ digitsOf (units / tenTo places) ++ '.' :: lastDigits places units
    else sign ++ ['i', 'n', 'f']

def Binary64.hex (x : Binary64) : String :=
  let rec go : Nat → Nat → List Char → List Char
    | 0, _, acc => acc
    | k + 1, n, acc => go k (n / 16) (Nat.digitChar (n % 16) :: acc)
  String.ofList (go 16 x.word [])

end MediaSession
