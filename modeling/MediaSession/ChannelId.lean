import MediaSession.Text.Pieces
import MediaSession.Text.Digits

namespace MediaSession

structure ChannelId where
  value : BitVec 128
  deriving DecidableEq, Inhabited

def ChannelId.groups : List Nat := [8, 4, 4, 4, 12]

def ChannelId.digits (id : ChannelId) : List Char :=
  (List.range 32).map fun i => Nat.digitChar (id.value.toNat >>> (4 * (31 - i)) % 16)

def ChannelId.text (id : ChannelId) : String :=
  let rec cut : List Nat → List Char → List (List Char)
    | [], _ => []
    | n :: rest, s => s.take n :: cut rest (s.drop n)
  String.ofList (joined ['-'] (cut groups id.digits))

def ChannelId.label (id : ChannelId) : String := "kanal:" ++ id.text

def ChannelId.ofDigits? (digits : List Char) : Option ChannelId :=
  if digits.length = 32 ∧ digits.all (isDigit 16) then some ⟨BitVec.ofNat 128 (spelled 16 digits)⟩
  else none

def ChannelId.ofGroups? (s : List Char) : Option ChannelId :=
  let parts := pieces '-' s
  if parts.map List.length = groups then ofDigits? parts.flatten else none

/--
Digits alone, in groups, in groups between braces, or in groups after `urn:uuid:`, in which letters
of either case count.
-/
def ChannelId.parse? (text : String) : Option ChannelId :=
  let s := text.toList
  if s.length = 32 then ofDigits? s
  else if s.length = 38 ∧ s.head? = some '{' ∧ s.getLast? = some '}' then
    ofGroups? (s.drop 1).dropLast
  else if sameIgnoringCase (s.take 9) "urn:uuid:".toList then ofGroups? (s.drop 9)
  else ofGroups? s

/-- An identifier of the random version made of 128 drawn bits. -/
def ChannelId.ofBits (bits : BitVec 128) : ChannelId :=
  let version : BitVec 128 := 0x4#128 <<< 76
  let variant : BitVec 128 := 0x2#128 <<< 62
  ⟨(bits &&& ~~~(0xF#128 <<< 76) &&& ~~~(0x3#128 <<< 62)) ||| version ||| variant⟩

def ChannelId.draw (generator : StdGen) : ChannelId × StdGen :=
  let (n, generator) := randNat generator 0 0xFFFFFFFFFFFFFFFFFFFFFFFFFFFFFFFF
  (ofBits (BitVec.ofNat 128 n), generator)

end MediaSession
