import MediaSession.Stream.Attributes

namespace MediaSession

inductive MediaKind where
  | audio
  | video
  deriving DecidableEq, Inhabited, Repr

def MediaKind.all : List MediaKind := [.audio, .video]

def MediaKind.wireName : MediaKind → String
  | .audio => "audio"
  | .video => "video"

inductive TrackState where
  | live
  | ended
  deriving DecidableEq, Inhabited, Repr

def TrackState.all : List TrackState := [.live, .ended]

def TrackState.wireName : TrackState → String
  | .live => "live"
  | .ended => "ended"

structure MediaTrack where
  id : String
  kind : MediaKind
  state : TrackState := .live
  deriving DecidableEq, Inhabited, Repr

def MediaTrack.isLive (track : MediaTrack) : Bool := track.state = .live

/-- A media stream keeps the tracks of each kind in the order in which they were added. -/
structure MediaStream where
  id : String
  audioTracks : List MediaTrack := []
  videoTracks : List MediaTrack := []
  deriving DecidableEq, Inhabited, Repr

def MediaStream.add (media : MediaStream) (track : MediaTrack) : MediaStream :=
  match track.kind with
  | .audio => { media with audioTracks := media.audioTracks ++ [track] }
  | .video => { media with videoTracks := media.videoTracks ++ [track] }

def MediaStream.hasTracks (media : MediaStream) : Bool :=
  !media.audioTracks.isEmpty || !media.videoTracks.isEmpty

/-- A stream has ended when none of its tracks is live; without tracks it has ended too. -/
def MediaStream.isEnded (media : MediaStream) : Bool :=
  !(media.audioTracks ++ media.videoTracks).any MediaTrack.isLive

inductive AudioSource where
  | mic
  | screenCast
  | file
  | mixed
  | unknown
  deriving DecidableEq, Inhabited, Repr

def AudioSource.all : List AudioSource := [.mic, .screenCast, .file, .mixed, .unknown]

def AudioSource.wireName : AudioSource → String
  | .mic => "mic"
  | .screenCast => "screen-cast"
  | .file => "file"
  | .mixed => "mixed"
  | .unknown => "unknown"

inductive VideoSource where
  | camera
  | screenCast
  | file
  | mixed
  | unknown
  deriving DecidableEq, Inhabited, Repr

def VideoSource.all : List VideoSource := [.camera, .screenCast, .file, .mixed, .unknown]

def VideoSource.wireName : VideoSource → String
  | .camera => "camera"
  | .screenCast => "screen-cast"
  | .file => "file"
  | .mixed => "mixed"
  | .unknown => "unknown"

structure StreamSource where
  audio : AudioSource := .mic
  video : VideoSource := .camera
  deriving DecidableEq, Inhabited, Repr

def StreamSource.showsScreen (source : StreamSource) : Bool := source.video = .screenCast

/-- A stream of this side; without media it cannot be published. -/
structure LocalStream where
  media : Option MediaStream := none
  source : StreamSource := {}
  attributes : Attributes := .empty
  deriving Inhabited

def LocalStream.id (stream : LocalStream) : String := (stream.media.map (·.id)).getD ""

def MediaKind.ofDatum? : Datum → Option MediaKind := Datum.named .json all wireName

def TrackState.ofDatum? : Datum → Option TrackState := Datum.named .json all wireName

def AudioSource.ofDatum? : Datum → Option AudioSource := Datum.named .json all wireName

def VideoSource.ofDatum? : Datum → Option VideoSource := Datum.named .json all wireName

def StreamSource.ofDatum? (value : Datum) : Option StreamSource :=
  match value.fields .json false ["audio", "video"] with
  | some [audio, video] => do
    let audio ← Datum.required AudioSource.ofDatum? audio
    let video ← Datum.required VideoSource.ofDatum? video
    return { audio, video }
  | _ => none

def StreamSource.toDatum (source : StreamSource) : Datum :=
  .record [("audio", .text source.audio.wireName), ("video", .text source.video.wireName)]

end MediaSession
