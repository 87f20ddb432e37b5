import MediaSession.Datum.Record
import MediaSession.Failure
import MediaSession.Text.Blank

namespace MediaSession

inductive DescriptionKind where
  | offer
  | answer
  | provisionalAnswer
  deriving DecidableEq, Inhabited, Repr

def DescriptionKind.all : List DescriptionKind := [.offer, .answer, .provisionalAnswer]

def DescriptionKind.wireName : DescriptionKind → String
  | .offer => "offer"
  | .answer => "answer"
  | .provisionalAnswer => "pranswer"

def DescriptionKind.ofDatum? : Datum → Option DescriptionKind := Datum.named .json all wireName

structure SessionDescription where
  kind : DescriptionKind
  sdp : String
  deriving DecidableEq, Inhabited, Repr

/-- The first line of a description states the version; blanks may precede it. -/
def beginsWithVersion (sdp : String) : Bool := ['v', '='].isPrefixOf (trimStart sdp.toList)

/-- The description is kept as it stands, leading blanks included. -/
def SessionDescription.parse (kind : DescriptionKind) (sdp : String) :
    Except CallError SessionDescription :=
  if beginsWithVersion sdp then .ok { kind, sdp }
  else .error (.invalidDescription (kind.wireName ++ ": keine Versionszeile"))

end MediaSession
