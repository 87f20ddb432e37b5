import MediaSession.Datum
import MediaSession.Text.Digits
import MediaSession.Text.Pieces

namespace MediaSession

def Toml.isSpace (c : Char) : Bool := c = ' ' || c = '\t'

def Toml.skipSpaces (s : List Char) : List Char := s.dropWhile isSpace

/-- Characters of comments and strings: tabs, and everything but control characters. -/
def Toml.isPlain (c : Char) : Bool := c = '\t' || (0x20 ≤ c.toNat && c.toNat ≠ 0x7F)

def Toml.isBareKey (c : Char) : Bool :=
  ('a' ≤ c && c ≤ 'z') || ('A' ≤ c && c ≤ 'Z') || ('0' ≤ c && c ≤ '9') || c = '-' || c = '_'

def Toml.newline? : List Char → Option (List Char)
  | '\n' :: rest => some rest
  | '\r' :: '\n' :: rest => some rest
  | _ => none

def Toml.skipComment : List Char → List Char
  | '#' :: rest => rest.dropWhile isPlain
  | s => s

/-- The end of a line with nothing but a comment before it. -/
def Toml.lineRest? (s : List Char) : Option (List Char) :=
  match skipComment (skipSpaces s) with
  | [] => some []
  | s => newline? s

/-- Skips spaces, line ends and comments, each unit of fuel a piece of them. -/
def Toml.skipLines : Nat → List Char → List Char
  | 0, s => s
  | fuel + 1, s =>
    let t := skipSpaces s
    match newline? (skipComment t) with
    | some rest => skipLines fuel rest
    | none => t

def Toml.hexEscape? (count : Nat) (s : List Char) : Option (Char × List Char) :=
  let digits := s.take count
  let n := spelled 16 digits
  if digits.length = count ∧ digits.all (isDigit 16) ∧ n.isValidChar then
    some (Char.ofNat n, s.drop count)
  else none

/-- The character that a backslash and what follows it stand for. -/
def Toml.escape? : List Char → Option (Char × List Char)
  | 'b' :: rest => some ('\x08', rest)
  | 't' :: rest => some ('\t', rest)
  | 'n' :: rest => some ('\n', rest)
  | 'f' :: rest => some ('\x0c', rest)
  | 'r' :: rest => some ('\r', rest)
  | '"' :: rest => some ('"', rest)
  | '\\' :: rest => some ('\\', rest)
  | 'u' :: rest => hexEscape? 4 rest
  | 'U' :: rest => hexEscape? 8 rest
  | _ => none

/-- The rest of a string on one line, after its opening quote. -/
def Toml.basicString : Nat → List Char → Option (List Char × List Char)
  | 0, _ => none
  | fuel + 1, s =>
    match s with
    | '"' :: rest => some ([], rest)
    | '\\' :: rest =>
      match escape? rest with
      | none => none
      | some (c, rest) => (basicString fuel rest).map fun r => (c :: r.1, r.2)
    | c :: rest =>
      if isPlain c then (basicString fuel rest).map fun r => (c :: r.1, r.2) else none
    | [] => none

/-- The rest of a string without escapes, after its opening quote. -/
def Toml.literalString (s : List Char) : Option (List Char × List Char) :=
  match s.dropWhile (fun c => isPlain c && c ≠ '\'') with
  | '\'' :: rest => some (s.takeWhile (fun c => isPlain c && c ≠ '\''), rest)
  | _ => none

def Toml.skipBlankLines : List Char → List Char
  | [] => []
  | '\n' :: rest => skipBlankLines rest
  | '\r' :: '\n' :: rest => skipBlankLines rest
  | c :: rest => if isSpace c then skipBlankLines rest else c :: rest

/-- What follows a backslash that joins lines: at least one line end among the spaces. -/
def Toml.joinedLine? (s : List Char) : Option (List Char) :=
  (newline? (skipSpaces s)).map skipBlankLines

/--
The rest of a string over several lines. Up to two quotes may stand before the closing three. A
carriage return has to be part of a line end, which is read as a line feed.
-/
def Toml.longString (quote : Char) (escapes : Bool) : Nat → List Char →
    Option (List Char × List Char)
  | 0, _ => none
  | fuel + 1, s =>
    match s with
    | [] => none
    | c :: rest =>
      if c = quote then
        let run := s.takeWhile (· = quote)
        let rest := s.dropWhile (· = quote)
        if run.length < 3 then (longString quote escapes fuel rest).map fun r => (run ++ r.1, r.2)
        else if run.length ≤ 5 then some (run.drop 3, rest)
        else none
      else if c = '\\' ∧ escapes then
        match joinedLine? rest with
        | some rest => longString quote escapes fuel rest
        | none =>
          match escape? rest with
          | none => none
          | some (c, rest) => (longString quote escapes fuel rest).map fun r => (c :: r.1, r.2)
      else
        match newline? s with
        | some rest => (longString quote escapes fuel rest).map fun r => ('\n' :: r.1, r.2)
        | none =>
          if isPlain c then (longString quote escapes fuel rest).map fun r => (c :: r.1, r.2)
          else none

/-- A line end right after the opening quotes does not count. -/
def Toml.afterOpening (s : List Char) : List Char := (newline? s).getD s

def Toml.string? (s : List Char) : Option (List Char × List Char) :=
  match s with
  | '"' :: '"' :: '"' :: rest => longString '"' true (rest.length + 1) (afterOpening rest)
  | '\'' :: '\'' :: '\'' :: rest => longString '\'' false (rest.length + 1) (afterOpening rest)
  | '"' :: rest => basicString (rest.length + 1) rest
  | '\'' :: rest => literalString rest
  | _ => none

/-- A key without dots: bare, or a string on one line. -/
def Toml.simpleKey? (s : List Char) : Option (String × List Char) :=
  match s with
  | '"' :: rest => (basicString (rest.length + 1) rest).map fun r => (String.ofList r.1, r.2)
  | '\'' :: rest => (literalString rest).map fun r => (String.ofList r.1, r.2)
  | _ =>
    match s.takeWhile isBareKey with
    | [] => none
    | key => some (String.ofList key, s.dropWhile isBareKey)

/-- The parts of a key between its dots; spaces may surround each part. -/
def Toml.dottedKey? : Nat → List Char → Option (List String × List Char)
  | 0, _ => none
  | fuel + 1, s =>
    match simpleKey? (skipSpaces s) with
    | none => none
    | some (key, rest) =>
      match skipSpaces rest with
      | '.' :: rest => (dottedKey? fuel rest).map fun r => (key :: r.1, r.2)
      | rest => some ([key], rest)

/-- Digits with single underscores between them, given without the underscores. -/
def Toml.digitGroups? (base : Nat) : List Char → Option (List Char × List Char)
  | [] => none
  | [c] => if isDigit base c then some ([c], []) else none
  | c :: d :: rest =>
    if ¬isDigit base c then none
    else if d = '_' then (digitGroups? base rest).map fun r => (c :: r.1, r.2)
    else if isDigit base d then (digitGroups? base (d :: rest)).map fun r => (c :: r.1, r.2)
    else some ([c], d :: rest)

def Toml.sign : List Char → Bool × List Char
  | '-' :: rest => (true, rest)
  | '+' :: rest => (false, rest)
  | s => (false, s)

/-- Decimal digits without a leading zero; after a zero the digits end. -/
def Toml.wholePart? : List Char → Option (List Char × List Char)
  | '0' :: rest => some (['0'], rest)
  | s => digitGroups? 10 s

def Toml.exponent? (s : List Char) : Option (Int × List Char) :=
  match s with
  | c :: rest =>
    if c = 'e' ∨ c = 'E' then
      let (negative, rest) := sign rest
      (digitGroups? 10 rest).map fun r =>
        let n : Int := spelled 10 r.1
        (if negative then -n else n, r.2)
    else none
  | [] => none

/-- Whole numbers have 64 bits and a sign. -/
def Toml.integerOf? (n : Int) : Option Datum :=
  if -0x8000000000000000 ≤ n ∧ n < 0x8000000000000000 then some (.integer n) else none

/-- The nearest binary number; one too large is refused if it is positive. -/
def Toml.realOf? (t : DecimalText) : Option Datum :=
  let x := Binary64.ofDecimal t.negative t.digits t.unit
  if x = Binary64.infinity false then none else some (.real x)

def Toml.basedNumber? (base : Nat) (s : List Char) : Option (Datum × List Char) :=
  (digitGroups? base s).bind fun r => (integerOf? (spelled base r.1)).map (·, r.2)

def Toml.decimalNumber? (negative : Bool) (s : List Char) : Option (Datum × List Char) :=
  match wholePart? s with
  | none => none
  | some (whole, rest) =>
    let exponentOf (fraction s : List Char) : Option (Datum × List Char) :=
      match s with
      | c :: _ =>
        if c = 'e' ∨ c = 'E' then
          (exponent? s).bind fun r =>
            (realOf? { negative, whole, fraction, exponent := r.1 }).map (·, r.2)
        else (realOf? { negative, whole, fraction }).map (·, s)
      | [] => (realOf? { negative, whole, fraction }).map (·, s)
    match rest with
    | '.' :: rest => (digitGroups? 10 rest).bind fun r => exponentOf r.1 r.2
    | c :: _ =>
      if c = 'e' ∨ c = 'E' then exponentOf [] rest
      else
        let n : Int := spelled 10 whole
        (integerOf? (if negative then -n else n)).map (·, rest)
    | [] =>
      let n : Int := spelled 10 whole
      (integerOf? (if negative then -n else n)).map (·, rest)

def Toml.number? (s : List Char) : Option (Datum × List Char) :=
  match s with
  | '0' :: 'x' :: rest => basedNumber? 16 rest
  | '0' :: 'o' :: rest => basedNumber? 8 rest
  | '0' :: 'b' :: rest => basedNumber? 2 rest
  | _ =>
    let (negative, rest) := sign s
    match rest with
    | 'i' :: 'n' :: 'f' :: rest => some (.real (.infinity negative), rest)
    | 'n' :: 'a' :: 'n' :: rest => some (.real .nan, rest)
    | rest => decimalNumber? negative rest

def Toml.boundedDigits? (count low high : Nat) (s : List Char) : Option (Nat × List Char) :=
  let digits := s.take count
  let n := spelled 10 digits
  if digits.length = count ∧ digits.all (isDigit 10) ∧ low ≤ n ∧ n ≤ high then
    some (n, s.drop count)
  else none

def Toml.expect? (c : Char) : List Char → Option (List Char)
  | d :: rest => if d = c then some rest else none
  | [] => none

def Toml.daysInMonth (year month : Nat) : Nat :=
  if month = 2 then
    if year % 4 = 0 ∧ (year % 100 ≠ 0 ∨ year % 400 = 0) then 29 else 28
  else if month = 4 ∨ month = 6 ∨ month = 9 ∨ month = 11 then 30
  else 31

def Toml.date? (s : List Char) : Option (List Char) := do
  let (year, s) ← boundedDigits? 4 0 9999 s
  let s ← expect? '-' s
  let (month, s) ← boundedDigits? 2 1 12 s
  let s ← expect? '-' s
  let (_, s) ← boundedDigits? 2 1 (daysInMonth year month) s
  return s

def Toml.time? (s : List Char) : Option (List Char) := do
  let (_, s) ← boundedDigits? 2 0 23 s
  let s ← expect? ':' s
  let (_, s) ← boundedDigits? 2 0 59 s
  let s ← expect? ':' s
  let (_, s) ← boundedDigits? 2 0 60 s
  match s with
  | '.' :: rest => if (digitRun rest).1 = [] then none else return (digitRun rest).2
  | _ => return s

def Toml.offset? (s : List Char) : Option (List Char) :=
  match s with
  | c :: rest =>
    if c = 'Z' ∨ c = 'z' then some rest
    else if c = '+' ∨ c = '-' then do
      let (_, s) ← boundedDigits? 2 0 23 rest
      let s ← expect? ':' s
      let (_, s) ← boundedDigits? 2 0 59 s
      return s
    else some s
  | [] => some []

def Toml.moment? (s : List Char) : Option (List Char) :=
  match date? s with
  | some rest =>
    match rest with
    | c :: after =>
      if c = 'T' ∨ c = 't' ∨ c = ' ' then
        match time? after with
        | some after => offset? after
        | none => some rest
      else some rest
    | [] => some []
  | none => time? s

end MediaSession
