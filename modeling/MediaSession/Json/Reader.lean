import MediaSession.Datum
import MediaSession.Text.Digits

namespace MediaSession

/-- How deeply lists and records may be nested in a document. -/
def Json.maxDepth : Nat := 127

def Json.skipBlank (s : List Char) : List Char :=
  s.dropWhile fun c => c = ' ' || c = '\t' || c = '\n' || c = '\r'

def Json.hexQuad? (a b c d : Char) : Option Nat :=
  if [a, b, c, d].all (isDigit 16) then some (spelled 16 [a, b, c, d]) else none

def Json.isHighSurrogate (n : Nat) : Bool := 0xD800 ≤ n && n < 0xDC00

def Json.isLowSurrogate (n : Nat) : Bool := 0xDC00 ≤ n && n < 0xE000

def Json.escaped? : Char → Option Char
  | '"' => some '"'
  | '\\' => some '\\'
  | '/' => some '/'
  | 'b' => some '\x08'
  | 'f' => some '\x0c'
  | 'n' => some '\n'
  | 'r' => some '\r'
  | 't' => some '\t'
  | _ => none

/-- The rest of a text after its opening quote; surrogates have to come in pairs. -/
def Json.readText : List Char → Option (List Char × List Char)
  | [] => none
  | '"' :: rest => some ([], rest)
  | '\\' :: 'u' :: a :: b :: c :: d :: rest =>
    match hexQuad? a b c d with
    | none => none
    | some high =>
      if isLowSurrogate high then none
      else if isHighSurrogate high then
        match rest with
        | '\\' :: 'u' :: e :: f :: g :: h :: rest =>
          match hexQuad? e f g h with
          | none => none
          | some low =>
            if isLowSurrogate low then
              (readText rest).map fun r =>
                (Char.ofNat (0x10000 + (high - 0xD800) * 0x400 + (low - 0xDC00)) :: r.1, r.2)
            else none
        | _ => none
      else (readText rest).map fun r => (Char.ofNat high :: r.1, r.2)
  | '\\' :: c :: rest =>
    match escaped? c with
    | none => none
    | some c => (readText rest).map fun r => (c :: r.1, r.2)
  | c :: rest =>
    if c.toNat < 0x20 then none else (readText rest).map fun r => (c :: r.1, r.2)

/-- A fraction: a point and at least one digit. Without a point there is none. -/
def Json.readFraction : List Char → Option (List Char × List Char)
  | '.' :: rest => if (digitRun rest).1 = [] then none else some (digitRun rest)
  | s => some ([], s)

def Json.readExponent (s : List Char) : Option (Option Int × List Char) :=
  match s with
  | c :: rest =>
    if c = 'e' ∨ c = 'E' then
      let (negative, rest) := match rest with
        | '-' :: rest => (true, rest)
        | '+' :: rest => (false, rest)
        | _ => (false, rest)
      let (digits, rest) := digitRun rest
      if digits = [] then none
      else
        let n : Int := spelled 10 digits
        some (some (if negative then -n else n), rest)
    else some (none, s)
  | [] => some (none, [])

/--
A whole number keeps its exact value as long as it fits into 64 bits, with a sign if negative; any
other number is the nearest binary one, and there has to be a finite one.
-/
def Json.number? (t : DecimalText) (plain : Bool) : Option Datum :=
  let nearest := Binary64.ofDecimal t.negative t.digits t.unit
  if plain ∧ !t.negative ∧ t.digits < 0x10000000000000000 then
    some (.integer t.digits)
  else if plain ∧ t.negative ∧ t.digits ≠ 0 ∧ t.digits ≤ 0x8000000000000000 then
    some (.integer (-t.digits))
  else if nearest.isFinite then some (.real nearest)
  else none

def Json.readNumber (s : List Char) : Option (Datum × List Char) :=
  let (negative, s) := match s with
    | '-' :: rest => (true, rest)
    | _ => (false, s)
  let (whole, s) := digitRun s
  if whole = [] ∨ (whole.head? = some '0' ∧ whole ≠ ['0']) then none
  else
    match readFraction s with
    | none => none
    | some (fraction, s) =>
      match readExponent s with
      | none => none
      | some (exponent, s) =>
        let t : DecimalText := { negative, whole, fraction, exponent := exponent.getD 0 }
        (number? t (fraction = [] ∧ exponent = none)).map (·, s)

mutual

/-- One value, `depth` levels of nesting allowed; each call uses up one unit of fuel. -/
def Json.readValue (fuel depth : Nat) (s : List Char) : Option (Datum × List Char) :=
  match fuel with
  | 0 => none
  | fuel + 1 =>
    match skipBlank s with
    | '"' :: rest => (readText rest).map fun r => (.text (String.ofList r.1), r.2)
    | '[' :: rest =>
      match depth with
      | 0 => none
      | depth + 1 =>
        match skipBlank rest with
        | ']' :: rest => some (.list [], rest)
        | rest => (readItems fuel depth rest).map fun r => (.list r.1, r.2)
    | '{' :: rest =>
      match depth with
      | 0 => none
      | depth + 1 =>
        match skipBlank rest with
        | '}' :: rest => some (.record [], rest)
        | rest => (readMembers fuel depth [] rest).map fun r => (.record r.1, r.2)
    | 'n' :: 'u' :: 'l' :: 'l' :: rest => some (.null, rest)
    | 't' :: 'r' :: 'u' :: 'e' :: rest => some (.flag true, rest)
    | 'f' :: 'a' :: 'l' :: 's' :: 'e' :: rest => some (.flag false, rest)
    | s => readNumber s

def Json.readItems (fuel depth : Nat) (s : List Char) : Option (List Datum × List Char) :=
  match fuel with
  | 0 => none
  | fuel + 1 =>
    match readValue fuel depth s with
    | none => none
    | some (item, s) =>
      match skipBlank s with
      | ',' :: rest => (readItems fuel depth rest).map fun r => (item :: r.1, r.2)
      | ']' :: rest => some ([item], rest)
      | _ => none

/-- The fields of a record up to its closing brace; a repeated key takes its last value. -/
def Json.readMembers (fuel depth : Nat) (fields : List (String × Datum)) (s : List Char) :
    Option (List (String × Datum) × List Char) :=
  match fuel with
  | 0 => none
  | fuel + 1 =>
    match skipBlank s with
    | '"' :: rest =>
      match readText rest with
      | none => none
      | some (key, rest) =>
        match skipBlank rest with
        | ':' :: rest =>
          match readValue fuel depth rest with
          | none => none
          | some (value, rest) =>
            let fields := Datum.put (String.ofList key) value fields
            match skipBlank rest with
            | ',' :: rest => readMembers fuel depth fields rest
            | '}' :: rest => some (fields, rest)
            | _ => none
        | _ => none
    | _ => none

end

def Json.read? (document : String) : Option Datum :=
  let s := document.toList
  match readValue (2 * s.length + 2) maxDepth s with
  | some (value, rest) => if skipBlank rest = [] then some value else none
  | none => none

end MediaSession
