import MediaSession.Datum.Record

namespace MediaSession

inductive StreamEvent where
  | unpublish
  | unsubscribe
  deriving DecidableEq, Inhabited, Repr

def StreamEvent.all : List StreamEvent := [.unpublish, .unsubscribe]

def StreamEvent.wireName : StreamEvent → String
  | .unpublish => "unpublish"
  | .unsubscribe => "unsubscribe"

inductive ControlTarget where
  | both
  | audio
  | video
  deriving DecidableEq, Inhabited, Repr

def ControlTarget.all : List ControlTarget := [.both, .audio, .video]

def ControlTarget.wireName : ControlTarget → String
  | .both => "av"
  | .audio => "audio"
  | .video => "video"

inductive ControlOperation where
  | play
  | pause
  deriving DecidableEq, Inhabited, Repr

def ControlOperation.all : List ControlOperation := [.play, .pause]

def ControlOperation.wireName : ControlOperation → String
  | .play => "play"
  | .pause => "pause"

def StreamEvent.ofDatum? : Datum → Option StreamEvent := Datum.named .json all wireName

def ControlTarget.ofDatum? : Datum → Option ControlTarget := Datum.named .json all wireName

def ControlOperation.ofDatum? : Datum → Option ControlOperation := Datum.named .json all wireName

end MediaSession
