import MediaSession.Stream.Media
import MediaSession.Text.Blank
import MediaSession.Text.Pieces

namespace MediaSession

/-- The lines of a text without their ends; what follows a final line feed is no line. -/
def sdpLines (s : List Char) : List (List Char) :=
  let all := pieces '\n' s
  let lines := if all.getLast? = some [] then all.dropLast else all
  lines.map fun line => (line.reverse.dropWhile (· = '\r')).reverse

def lineEnd : List Char := ['\r', '\n']

def endsWithLineFeed (s : List Char) : Bool := s.getLast? = some '\n'

def mediaMark : List Char := ['m', '=']

def MediaKind.mark (kind : MediaKind) : List Char :=
  mediaMark ++ kind.wireName.toList ++ [' ']

def beginsMedium (line : List Char) : Bool := mediaMark.isPrefixOf line

/-- An attribute line of the given name for one payload: the payload and what is said of it. -/
def payloadAttribute? (name line : List Char) : Option (List Char × List Char) :=
  (strip? name line).bind (splitOnce ' ')

/-- A payload and the name of its codec, which ends at a slash. -/
def codecName? (line : List Char) : Option (List Char × List Char) :=
  (payloadAttribute? "a=rtpmap:".toList line).map fun a => (a.1, a.2.takeWhile (· ≠ '/'))

/-- A payload that retransmits another one, and that other one. -/
def retransmission? (line : List Char) : Option (List Char × List Char) :=
  (payloadAttribute? "a=fmtp:".toList line).bind fun a =>
    ((pieces ';' a.2).findSome? fun parameter => strip? "apt=".toList (trim parameter)).map
      (a.1, ·)

def listOnce (listed : List (List Char)) (payload : List Char) : List (List Char) :=
  if payload ∈ listed then listed else listed ++ [payload]

/-- Adds the listed payloads that retransmit `payload`, in the order of their attribute lines. -/
def withRetransmissions (payloads : List (List Char)) (links : List (List Char × List Char))
    (payload : List Char) (listed : List (List Char)) : List (List Char) :=
  links.foldl (fun listed link =>
    if link.2 = payload ∧ link.1 ∈ payloads then listOnce listed link.1 else listed) listed

def hasCodec (names : List (List Char × List Char)) (codec payload : List Char) : Bool :=
  names.any fun name => name.1 == payload && sameIgnoringCase name.2 codec

/-- Adds the payloads of one codec, each followed by its retransmissions. -/
def withCodec (payloads : List (List Char)) (names links : List (List Char × List Char))
    (listed : List (List Char)) (codec : List Char) : List (List Char) :=
  payloads.foldl (fun listed payload =>
    if hasCodec names codec payload ∧ payload ∉ listed then
      withRetransmissions payloads links payload (listed ++ [payload])
    else listed) listed

/-- The payloads of the preferred codecs, then the others; unchanged if no codec is found. -/
def preferredOrder (payloads : List (List Char)) (names links : List (List Char × List Char))
    (codecs : List (List Char)) : Option (List (List Char)) :=
  match codecs.foldl (withCodec payloads names links) [] with
  | [] => none
  | listed => some (payloads.foldl listOnce listed)

/-- A media line has three fields before its payloads. -/
def reorderLine (codecs : List (List Char)) (line : List Char) (attributes : List (List Char)) :
    List Char :=
  let fields := pieces ' ' line
  match preferredOrder (fields.drop 3) (attributes.filterMap codecName?)
      (attributes.filterMap retransmission?) codecs with
  | some order => joined [' '] (fields.take 3 ++ order)
  | none => line

/-- Reorders the media lines of one kind; a medium's attributes reach to the next medium. -/
def reorderLines (kind : MediaKind) (codecs : List (List Char)) :
    List (List Char) → List (List Char)
  | [] => []
  | line :: rest =>
    (if kind.mark.isPrefixOf line then
      reorderLine codecs line (rest.takeWhile fun l => !beginsMedium l)
    else line) :: reorderLines kind codecs rest

def preferCodecChars (kind : MediaKind) (codecs : List (List Char)) (s : List Char) : List Char :=
  if codecs.isEmpty then s
  else
    joined lineEnd (reorderLines kind codecs (sdpLines s)) ++
      (if endsWithLineFeed s then lineEnd else [])

/-- Moves the payloads of the given codecs to the front of every medium of this kind. -/
def preferCodecs (kind : MediaKind) (codecs : List String) (sdp : String) : String :=
  String.ofList (preferCodecChars kind (codecs.map String.toList) sdp.toList)

end MediaSession
