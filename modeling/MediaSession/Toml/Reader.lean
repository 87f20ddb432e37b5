import MediaSession.Toml.Lexeme
import MediaSession.Toml.Table

namespace MediaSession

/-- How deeply lists and in-line tables may be nested, and how many parts a key may have. -/
def Toml.maxDepth : Nat := 79

def Toml.key? (s : List Char) : Option (List String × List Char) := dottedKey? maxDepth s

/-- A date or a time is a record without a field that any configuration knows. -/
def Toml.momentDatum (s rest : List Char) : Datum :=
  .record [("datetime", .text (String.ofList (s.take (s.length - rest.length))))]

mutual

/-- One value; each call uses up one unit of fuel. -/
def Toml.readValue (fuel depth : Nat) (s : List Char) : Option (Datum × List Char) :=
  match fuel with
  | 0 => none
  | fuel + 1 =>
    match s with
    | '"' :: _ => (string? s).map fun r => (.text (String.ofList r.1), r.2)
    | '\'' :: _ => (string? s).map fun r => (.text (String.ofList r.1), r.2)
    | '[' :: rest =>
      match depth with
      | 0 => none
      | depth + 1 => (readItems fuel depth rest).map fun r => (.list r.1, r.2)
    | '{' :: rest =>
      match depth with
      | 0 => none
      | depth + 1 =>
        match skipSpaces rest with
        | '}' :: rest => some (.record [], rest)
        | rest => (readPairs fuel depth .root rest).map fun r => (r.1.toDatum, r.2)
    | 't' :: 'r' :: 'u' :: 'e' :: rest => some (.flag true, rest)
    | 'f' :: 'a' :: 'l' :: 's' :: 'e' :: rest => some (.flag false, rest)
    | _ =>
      match moment? s with
      | some rest => some (momentDatum s rest, rest)
      | none => number? s

/-- The items of a list; the last one may be followed by a comma. -/
def Toml.readItems (fuel depth : Nat) (s : List Char) : Option (List Datum × List Char) :=
  match fuel with
  | 0 => none
  | fuel + 1 =>
    match skipLines s.length s with
    | ']' :: rest => some ([], rest)
    | s =>
      match readValue fuel depth s with
      | none => none
      | some (item, s) =>
        match skipLines s.length s with
        | ',' :: rest => (readItems fuel depth rest).map fun r => (item :: r.1, r.2)
        | ']' :: rest => some ([item], rest)
        | _ => none

/-- The pairs of an in-line table, on one line and without a comma at the end. -/
def Toml.readPairs (fuel depth : Nat) (table : Toml.Node) (s : List Char) :
    Option (Toml.Node × List Char) :=
  match fuel with
  | 0 => none
  | fuel + 1 =>
    match key? s with
    | some (path, '=' :: rest) =>
      match readValue fuel depth (skipSpaces rest) with
      | none => none
      | some (value, rest) =>
        match table.addAt path.dropLast (path.getLast?.getD "") value with
        | none => none
        | some table =>
          match skipSpaces rest with
          | ',' :: rest => readPairs fuel depth table rest
          | '}' :: rest => some (table, rest)
          | _ => none
    | _ => none

end

/-- The tables read so far, and the path of the table that takes the next pairs. -/
structure Toml.Progress where
  root : Toml.Node := .root
  path : List String := []

/-- One pair of a key and a value, up to the end of its line. -/
def Toml.readPair (progress : Progress) (s : List Char) : Option (Progress × List Char) :=
  match key? s with
  | some (path, '=' :: rest) => do
    let rest := skipSpaces rest
    let (value, rest) ← readValue (2 * rest.length + 2) maxDepth rest
    let rest ← lineRest? rest
    let root ←
      progress.root.change false (Node.addAt path.dropLast (path.getLast?.getD "") value)
        progress.path
    return ({ progress with root }, rest)
  | _ => none

/-- A header in single or double brackets, up to the end of its line. -/
def Toml.readHeader (progress : Progress) (double : Bool) (s : List Char) :
    Option (Progress × List Char) := do
  let (path, rest) ← key? s
  let rest ← expect? ']' rest
  let rest ← if double then expect? ']' rest else some rest
  let rest ← lineRest? rest
  let key := path.getLast?.getD ""
  let root ←
    progress.root.change false (if double then Node.openItem key else Node.openTable key)
      path.dropLast
  return ({ root, path }, rest)

/-- The lines of a document, each unit of fuel one of them. -/
def Toml.readLines : Nat → Progress → List Char → Option Progress
  | 0, _, _ => none
  | fuel + 1, progress, s =>
    match skipSpaces s with
    | [] => some progress
    | '[' :: '[' :: rest =>
      match readHeader progress true rest with
      | some (progress, rest) => readLines fuel progress rest
      | none => none
    | '[' :: rest =>
      match readHeader progress false rest with
      | some (progress, rest) => readLines fuel progress rest
      | none => none
    | s =>
      match lineRest? s with
      | some rest => readLines fuel progress rest
      | none =>
        match readPair progress s with
        | some (progress, rest) => readLines fuel progress rest
        | none => none

def Toml.byteOrderMark : Char := Char.ofNat 0xFEFF

def Toml.read? (document : String) : Option Datum :=
  let s := document.toList
  let s := if s.head? = some byteOrderMark then s.drop 1 else s
  (readLines (s.length + 1) {} s).map (·.root.toDatum)

end MediaSession
