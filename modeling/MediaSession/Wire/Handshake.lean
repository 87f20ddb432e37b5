import MediaSession.Stream.Media
import MediaSession.Stream.Quality

namespace MediaSession

inductive TrackSource where
  | mic
  | camera
  | screenCast
  deriving DecidableEq, Inhabited, Repr

def TrackSource.all : List TrackSource := [.mic, .camera, .screenCast]

def TrackSource.wireName : TrackSource → String
  | .mic => "mic"
  | .camera => "camera"
  | .screenCast => "screen-cast"

/-- The quality of a subscribed video; an absent value leaves the choice to the server. -/
structure VideoParameters where
  resolution : Option Resolution := none
  bitrate : Option String := none
  keyFrameInterval : Option UInt32 := none
  framerate : Option UInt32 := none
  deriving DecidableEq, Inhabited, Repr

structure TrackOptions where
  kind : MediaKind
  mid : String
  origin : Option String := none
  source : Option TrackSource := none
  parameters : Option VideoParameters := none
  simulcastRid : Option String := none
  deriving DecidableEq, Inhabited, Repr

/-- Audio takes the first media line, video the one after it. -/
def mediaLine : MediaKind → Bool → String
  | .audio, _ => "0"
  | .video, false => "0"
  | .video, true => "1"

def TrackOptions.of (kind : MediaKind) (withAudio : Bool) : TrackOptions :=
  { kind, mid := mediaLine kind withAudio }

def webrtcTransport : String := "webrtc"

structure InitOptions where
  tracks : List TrackOptions := []
  transport : String := webrtcTransport
  attributes : Option Attributes := none
  deriving Inhabited

def InitOptions.add (options : InitOptions) (track : TrackOptions) : InitOptions :=
  { options with tracks := options.tracks ++ [track] }

def InitOptions.track? (options : InitOptions) (kind : MediaKind) : Option TrackOptions :=
  options.tracks.find? (·.kind == kind)

structure InitAck where
  sessionId : String
  transportId : String
  deriving DecidableEq, Inhabited, Repr

def TrackSource.ofDatum? : Datum → Option TrackSource := Datum.named .json all wireName

def VideoParameters.toDatum (p : VideoParameters) : Datum :=
  .present [("resolution", p.resolution.map Resolution.toDatum), ("bitrate", p.bitrate.map .text),
    ("keyFrameInterval", p.keyFrameInterval.map .ofWord), ("framerate", p.framerate.map .ofWord)]

def VideoParameters.ofDatum? (value : Datum) : Option VideoParameters :=
  match value.fields .json false ["resolution", "bitrate", "keyFrameInterval", "framerate"] with
  | some [resolution, bitrate, keyFrameInterval, framerate] => do
    let resolution ← Datum.optional Resolution.ofDatum? resolution
    let bitrate ← Datum.optional Datum.text? bitrate
    let keyFrameInterval ← Datum.optional Datum.word? keyFrameInterval
    let framerate ← Datum.optional Datum.word? framerate
    return { resolution, bitrate, keyFrameInterval, framerate }
  | _ => none

def TrackOptions.toDatum (t : TrackOptions) : Datum :=
  .present [("type", some (.text t.kind.wireName)), ("mid", some (.text t.mid)),
    ("from", t.origin.map .text), ("source", t.source.map (.text ·.wireName)),
    ("parameters", t.parameters.map VideoParameters.toDatum),
    ("simulcastRid", t.simulcastRid.map .text)]

def TrackOptions.ofDatum? (value : Datum) : Option TrackOptions :=
  match value.fields .json false
      ["type", "mid", "from", "source", "parameters", "simulcastRid"] with
  | some [kind, mid, origin, source, parameters, simulcastRid] => do
    let kind ← Datum.required MediaKind.ofDatum? kind
    let mid ← Datum.required Datum.text? mid
    let origin ← Datum.optional Datum.text? origin
    let source ← Datum.optional TrackSource.ofDatum? source
    let parameters ← Datum.optional VideoParameters.ofDatum? parameters
    let simulcastRid ← Datum.optional Datum.text? simulcastRid
    return { kind, mid, origin, source, parameters, simulcastRid }
  | _ => none

def tracksToDatum (tracks : List TrackOptions) : Datum :=
  .record [("tracks", .list (tracks.map TrackOptions.toDatum))]

def tracksOfDatum? (value : Datum) : Option (List TrackOptions) :=
  match value.fields .json false ["tracks"] with
  | some [tracks] => Datum.required (Datum.list? TrackOptions.ofDatum?) tracks
  | _ => none

def transportToDatum (transport : String) : Datum := .record [("type", .text transport)]

def transportOfDatum? (value : Datum) : Option String :=
  match value.fields .json false ["type"] with
  | some [kind] => Datum.required Datum.text? kind
  | _ => none

def InitOptions.toDatum (options : InitOptions) : Datum :=
  .present [("media", some (tracksToDatum options.tracks)),
    ("transport", some (transportToDatum options.transport)),
    ("attributes", options.attributes.map Attributes.toDatum)]

def InitOptions.ofDatum? (value : Datum) : Option InitOptions :=
  match value.fields .json false ["media", "transport", "attributes"] with
  | some [tracks, transport, attributes] => do
    let tracks ← Datum.required tracksOfDatum? tracks
    let transport ← Datum.required transportOfDatum? transport
    let attributes ← Datum.optional Attributes.ofDatum? attributes
    return { tracks, transport, attributes }
  | _ => none

def InitAck.toDatum (ack : InitAck) : Datum :=
  .record [("session_id", .text ack.sessionId), ("transport_id", .text ack.transportId)]

def InitAck.ofDatum? (value : Datum) : Option InitAck :=
  match value.fields .json false ["session_id", "transport_id"] with
  | some [sessionId, transportId] => do
    let sessionId ← Datum.required Datum.text? sessionId
    let transportId ← Datum.required Datum.text? transportId
    return { sessionId, transportId }
  | _ => none

end MediaSession
