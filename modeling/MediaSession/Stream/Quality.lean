import MediaSession.Datum.Record

namespace MediaSession

/-- A picture size; zero stands for a side that is not prescribed. -/
structure Resolution where
  width : UInt32 := 0
  height : UInt32 := 0
  deriving DecidableEq, Inhabited, Repr

def Resolution.isSet (r : Resolution) : Bool := r.width ≠ 0 && r.height ≠ 0

def Resolution.isEmpty (r : Resolution) : Bool := r.width = 0 && r.height = 0

def Resolution.ofDatum? (value : Datum) : Option Resolution :=
  match value.fields .json false ["width", "height"] with
  | some [width, height] => do
    let width ← Datum.required Datum.word? width
    let height ← Datum.required Datum.word? height
    return { width, height }
  | _ => none

def Resolution.toDatum (r : Resolution) : Datum :=
  .record [("width", .ofWord r.width), ("height", .ofWord r.height)]

structure AudioPublication where
  codec : String := ""
  trackId : String := ""
  deriving DecidableEq, Inhabited

/-- One published variant of a video, told apart from the others by its `rid`. -/
structure VideoPublication where
  codec : String := ""
  resolution : Resolution := {}
  frameRate : Binary64 := .zero
  bitrateKbps : UInt32 := 0
  keyframeInterval : UInt32 := 0
  rid : String := ""
  trackId : String := ""
  deriving DecidableEq, Inhabited

structure PublicationSettings where
  audio : List AudioPublication := []
  video : List VideoPublication := []
  deriving DecidableEq, Inhabited

structure AudioCapabilities where
  codecs : List String := []
  deriving DecidableEq, Inhabited

structure VideoCapabilities where
  codecs : List String := []
  resolutions : List Resolution := []
  frameRates : List Binary64 := []
  bitrateMultipliers : List Binary64 := []
  keyframeIntervals : List UInt32 := []
  deriving DecidableEq, Inhabited

/-- What the server can turn a remote stream into, beyond what is published. -/
structure SubscriptionCapabilities where
  audio : AudioCapabilities := {}
  video : VideoCapabilities := {}
  deriving DecidableEq, Inhabited

structure AudioConstraints where
  disabled : Bool := false
  codecs : List String := []
  deriving DecidableEq, Inhabited

/-- What a subscriber asks of the video; zero values and an empty `rid` ask for nothing. -/
structure VideoConstraints where
  disabled : Bool := false
  codecs : List String := []
  resolution : Resolution := {}
  frameRate : Binary64 := .zero
  bitrateMultiplier : Binary64 := .zero
  keyFrameInterval : UInt32 := 0
  rid : String := ""
  deriving DecidableEq, Inhabited

structure SubscribeOptions where
  audio : AudioConstraints := {}
  video : VideoConstraints := {}
  deriving DecidableEq, Inhabited

def AudioPublication.ofDatum? (value : Datum) : Option AudioPublication :=
  match value.fields .json true ["codec", "track_id"] with
  | some [codec, trackId] => do
    let codec ← Datum.orElse "" Datum.text? codec
    let trackId ← Datum.orElse "" Datum.text? trackId
    return { codec, trackId }
  | _ => none

def AudioPublication.toDatum (p : AudioPublication) : Datum :=
  .record [("codec", .text p.codec), ("track_id", .text p.trackId)]

def VideoPublication.ofDatum? (value : Datum) : Option VideoPublication :=
  match value.fields .json true
      ["codec", "resolution", "frame_rate", "bitrate_kbps", "keyframe_interval", "rid",
        "track_id"] with
  | some [codec, resolution, frameRate, bitrateKbps, keyframeInterval, rid, trackId] => do
    let codec ← Datum.orElse "" Datum.text? codec
    let resolution ← Datum.orElse {} Resolution.ofDatum? resolution
    let frameRate ← Datum.orElse .zero Datum.number? frameRate
    let bitrateKbps ← Datum.orElse 0 Datum.word? bitrateKbps
    let keyframeInterval ← Datum.orElse 0 Datum.word? keyframeInterval
    let rid ← Datum.orElse "" Datum.text? rid
    let trackId ← Datum.orElse "" Datum.text? trackId
    return { codec, resolution, frameRate, bitrateKbps, keyframeInterval, rid, trackId }
  | _ => none

def VideoPublication.toDatum (p : VideoPublication) : Datum :=
  .record [("codec", .text p.codec), ("resolution", p.resolution.toDatum),
    ("frame_rate", .real p.frameRate), ("bitrate_kbps", .ofWord p.bitrateKbps),
    ("keyframe_interval", .ofWord p.keyframeInterval), ("rid", .text p.rid),
    ("track_id", .text p.trackId)]

def PublicationSettings.ofDatum? (value : Datum) : Option PublicationSettings :=
  match value.fields .json true ["audio", "video"] with
  | some [audio, video] => do
    let audio ← Datum.orElse [] (Datum.list? AudioPublication.ofDatum?) audio
    let video ← Datum.orElse [] (Datum.list? VideoPublication.ofDatum?) video
    return { audio, video }
  | _ => none

def PublicationSettings.toDatum (settings : PublicationSettings) : Datum :=
  .record [("audio", .list (settings.audio.map AudioPublication.toDatum)),
    ("video", .list (settings.video.map VideoPublication.toDatum))]

def AudioCapabilities.ofDatum? (value : Datum) : Option AudioCapabilities :=
  match value.fields .json true ["codecs"] with
  | some [codecs] => do
    let codecs ← Datum.orElse [] (Datum.list? Datum.text?) codecs
    return { codecs }
  | _ => none

def AudioCapabilities.toDatum (c : AudioCapabilities) : Datum :=
  .record [("codecs", .texts c.codecs)]

def VideoCapabilities.ofDatum? (value : Datum) : Option VideoCapabilities :=
  match value.fields .json true
      ["codecs", "resolutions", "frame_rates", "bitrate_multipliers", "keyframe_intervals"] with
  | some [codecs, resolutions, frameRates, bitrateMultipliers, keyframeIntervals] => do
    let codecs ← Datum.orElse [] (Datum.list? Datum.text?) codecs
    let resolutions ← Datum.orElse [] (Datum.list? Resolution.ofDatum?) resolutions
    let frameRates ← Datum.orElse [] (Datum.list? Datum.number?) frameRates
    let bitrateMultipliers ← Datum.orElse [] (Datum.list? Datum.number?) bitrateMultipliers
    let keyframeIntervals ← Datum.orElse [] (Datum.list? Datum.word?) keyframeIntervals
    return { codecs, resolutions, frameRates, bitrateMultipliers, keyframeIntervals }
  | _ => none

def VideoCapabilities.toDatum (c : VideoCapabilities) : Datum :=
  .record [("codecs", .texts c.codecs),
    ("resolutions", .list (c.resolutions.map Resolution.toDatum)),
    ("frame_rates", .list (c.frameRates.map .real)),
    ("bitrate_multipliers", .list (c.bitrateMultipliers.map .real)),
    ("keyframe_intervals", .list (c.keyframeIntervals.map .ofWord))]

def SubscriptionCapabilities.ofDatum? (value : Datum) : Option SubscriptionCapabilities :=
  match value.fields .json true ["audio", "video"] with
  | some [audio, video] => do
    let audio ← Datum.orElse {} AudioCapabilities.ofDatum? audio
    let video ← Datum.orElse {} VideoCapabilities.ofDatum? video
    return { audio, video }
  | _ => none

def SubscriptionCapabilities.toDatum (c : SubscriptionCapabilities) : Datum :=
  .record [("audio", c.audio.toDatum), ("video", c.video.toDatum)]

def AudioConstraints.ofDatum? (value : Datum) : Option AudioConstraints :=
  match value.fields .json true ["disabled", "codecs"] with
  | some [disabled, codecs] => do
    let disabled ← Datum.orElse false Datum.flag? disabled
    let codecs ← Datum.orElse [] (Datum.list? Datum.text?) codecs
    return { disabled, codecs }
  | _ => none

def AudioConstraints.toDatum (c : AudioConstraints) : Datum :=
  .record [("disabled", .flag c.disabled), ("codecs", .texts c.codecs)]

def VideoConstraints.ofDatum? (value : Datum) : Option VideoConstraints :=
  match value.fields .json true
      ["disabled", "codecs", "resolution", "frame_rate", "bitrate_multiplier",
        "key_frame_interval", "rid"] with
  | some [disabled, codecs, resolution, frameRate, bitrateMultiplier, keyFrameInterval, rid] => do
    let disabled ← Datum.orElse false Datum.flag? disabled
    let codecs ← Datum.orElse [] (Datum.list? Datum.text?) codecs
    let resolution ← Datum.orElse {} Resolution.ofDatum? resolution
    let frameRate ← Datum.orElse .zero Datum.number? frameRate
    let bitrateMultiplier ← Datum.orElse .zero Datum.number? bitrateMultiplier
    let keyFrameInterval ← Datum.orElse 0 Datum.word? keyFrameInterval
    let rid ← Datum.orElse "" Datum.text? rid
    return { disabled, codecs, resolution, frameRate, bitrateMultiplier, keyFrameInterval, rid }
  | _ => none

def VideoConstraints.toDatum (c : VideoConstraints) : Datum :=
  .record [("disabled", .flag c.disabled), ("codecs", .texts c.codecs),
    ("resolution", c.resolution.toDatum), ("frame_rate", .real c.frameRate),
    ("bitrate_multiplier", .real c.bitrateMultiplier),
    ("key_frame_interval", .ofWord c.keyFrameInterval), ("rid", .text c.rid)]

def SubscribeOptions.ofDatum? (value : Datum) : Option SubscribeOptions :=
  match value.fields .json true ["audio", "video"] with
  | some [audio, video] => do
    let audio ← Datum.orElse {} AudioConstraints.ofDatum? audio
    let video ← Datum.orElse {} VideoConstraints.ofDatum? video
    return { audio, video }
  | _ => none

def SubscribeOptions.toDatum (o : SubscribeOptions) : Datum :=
  .record [("audio", o.audio.toDatum), ("video", o.video.toDatum)]

end MediaSession
