import MediaSession.Datum

namespace MediaSession

def Json.hexDigit (n : Nat) : Char := Nat.digitChar (n % 16)

/-- The letter that stands for a character after a backslash. -/
def Json.shortEscape? : Char → Option Char
  | '"' => some '"'
  | '\\' => some '\\'
  | '\x08' => some 'b'
  | '\x0c' => some 'f'
  | '\n' => some 'n'
  | '\r' => some 'r'
  | '\t' => some 't'
  | _ => none

/-- Quotes, backslashes and control characters are escaped, by a letter if there is one for them;
all others stand for themselves. -/
def Json.escape (c : Char) : List Char :=
  match shortEscape? c with
  | some letter => ['\\', letter]
  | none =>
    if c.toNat < 0x20 then ['\\', 'u', '0', '0', hexDigit (c.toNat / 16), hexDigit c.toNat]
    else [c]

def Json.quoted (text : String) : String :=
  String.ofList ('"' :: text.toList.flatMap escape ++ ['"'])

mutual

def Json.write (real : Binary64 → String) : Datum → String
  | .null => "null"
  | .flag true => "true"
  | .flag false => "false"
  | .integer value => toString value
  | .real value => real value
  | .text value => quoted value
  | .list [] => "[]"
  | .list (item :: items) => "[" ++ write real item ++ writeItems real items
  | .record [] => "\x7b\x7d"
  | .record ((key, value) :: fields) =>
    "\x7b" ++ quoted key ++ ":" ++ write real value ++ writeFields real fields

def Json.writeItems (real : Binary64 → String) : List Datum → String
  | [] => "]"
  | item :: items => "," ++ write real item ++ writeItems real items

def Json.writeFields (real : Binary64 → String) : List (String × Datum) → String
  | [] => "\x7d"
  | (key, value) :: fields =>
    "," ++ quoted key ++ ":" ++ write real value ++ writeFields real fields

end

end MediaSession
