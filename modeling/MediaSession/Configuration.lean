import MediaSession.Datum.Record

namespace MediaSession

inductive NetworkPriority where
  | unspecified
  | veryLow
  | low
  | medium
  | high
  deriving DecidableEq, Inhabited, Repr

def NetworkPriority.all : List NetworkPriority := [.unspecified, .veryLow, .low, .medium, .high]

def NetworkPriority.wireName : NetworkPriority → String
  | .unspecified => "default"
  | .veryLow => "very-low"
  | .low => "low"
  | .medium => "medium"
  | .high => "high"

/-- One simulcast encoding; zero and empty values leave the choice to the engine. -/
structure RtpEncoding where
  rid : String := ""
  maxBitrateBps : UInt32 := 0
  maxFramerate : Binary64 := .zero
  scaleResolutionDownBy : Binary64 := .zero
  temporalLayers : UInt32 := 0
  priority : NetworkPriority := .unspecified
  active : Bool := true
  deriving DecidableEq, Inhabited

structure AudioEncoding where
  codec : String := "opus"
  maxBitrateKbps : UInt32 := 0
  deriving DecidableEq, Inhabited

structure VideoEncoding where
  codec : String := "VP8"
  maxBitrateKbps : UInt32 := 0
  encodings : List RtpEncoding := []
  deriving DecidableEq, Inhabited

structure ChannelConfig where
  audio : List AudioEncoding := [{}]
  video : List VideoEncoding := [{}]
  screenCodecs : List String := []
  iceUnbundle : Bool := false
  deriving DecidableEq, Inhabited

structure LoggingSettings where
  level : String := "info"
  format : String := "text"
  deriving DecidableEq, Inhabited

structure Configuration where
  channel : ChannelConfig := {}
  logging : LoggingSettings := {}
  deriving DecidableEq, Inhabited

def ChannelConfig.audioCodecs (config : ChannelConfig) : List String :=
  config.audio.map (·.codec)

/-- A shared screen has codecs of its own as soon as one is listed. -/
def ChannelConfig.videoCodecs (config : ChannelConfig) (screen : Bool) : List String :=
  if screen && !config.screenCodecs.isEmpty then config.screenCodecs
  else config.video.map (·.codec)

/-- Limits come from the first entry; zero means that there is none. -/
def ChannelConfig.audioLimitKbps (config : ChannelConfig) : UInt32 :=
  (config.audio.head?.map (·.maxBitrateKbps)).getD 0

def ChannelConfig.videoLimitKbps (config : ChannelConfig) : UInt32 :=
  (config.video.head?.map (·.maxBitrateKbps)).getD 0

def ChannelConfig.videoEncodings (config : ChannelConfig) : List RtpEncoding :=
  (config.video.head?.map (·.encodings)).getD []

def NetworkPriority.ofDatum? (language : Datum.Language) : Datum → Option NetworkPriority :=
  Datum.named language all wireName

def RtpEncoding.ofDatum? (language : Datum.Language) (value : Datum) : Option RtpEncoding :=
  match value.fields language true
      ["rid", "max_bitrate_bps", "max_framerate", "scale_resolution_down_by",
        "num_temporal_layers", "priority", "active"] with
  | some [rid, maxBitrateBps, maxFramerate, scaleResolutionDownBy, temporalLayers, priority,
      active] => do
    let rid ← Datum.orElse "" Datum.text? rid
    let maxBitrateBps ← Datum.orElse 0 Datum.word? maxBitrateBps
    let maxFramerate ← Datum.orElse .zero Datum.number? maxFramerate
    let scaleResolutionDownBy ← Datum.orElse .zero Datum.number? scaleResolutionDownBy
    let temporalLayers ← Datum.orElse 0 Datum.word? temporalLayers
    let priority ← Datum.orElse .unspecified (NetworkPriority.ofDatum? language) priority
    let active ← Datum.orElse true Datum.flag? active
    return { rid, maxBitrateBps, maxFramerate, scaleResolutionDownBy, temporalLayers, priority,
             active }
  | _ => none

def RtpEncoding.toDatum (e : RtpEncoding) : Datum :=
  .record [("rid", .text e.rid), ("max_bitrate_bps", .ofWord e.maxBitrateBps),
    ("max_framerate", .real e.maxFramerate),
    ("scale_resolution_down_by", .real e.scaleResolutionDownBy),
    ("num_temporal_layers", .ofWord e.temporalLayers), ("priority", .text e.priority.wireName),
    ("active", .flag e.active)]

def AudioEncoding.ofDatum? (language : Datum.Language) (value : Datum) : Option AudioEncoding :=
  match value.fields language true ["codec", "max_bitrate_kbps"] with
  | some [codec, maxBitrateKbps] => do
    let codec ← Datum.orElse "opus" Datum.text? codec
    let maxBitrateKbps ← Datum.orElse 0 Datum.word? maxBitrateKbps
    return { codec, maxBitrateKbps }
  | _ => none

def AudioEncoding.toDatum (e : AudioEncoding) : Datum :=
  .record [("codec", .text e.codec), ("max_bitrate_kbps", .ofWord e.maxBitrateKbps)]

def VideoEncoding.ofDatum? (language : Datum.Language) (value : Datum) : Option VideoEncoding :=
  match value.fields language true ["codec", "max_bitrate_kbps", "rtp_encoding_parameters"] with
  | some [codec, maxBitrateKbps, encodings] => do
    let codec ← Datum.orElse "VP8" Datum.text? codec
    let maxBitrateKbps ← Datum.orElse 0 Datum.word? maxBitrateKbps
    let encodings ← Datum.orElse [] (Datum.list? (RtpEncoding.ofDatum? language)) encodings
    return { codec, maxBitrateKbps, encodings }
  | _ => none

def VideoEncoding.toDatum (e : VideoEncoding) : Datum :=
  .record [("codec", .text e.codec), ("max_bitrate_kbps", .ofWord e.maxBitrateKbps),
    ("rtp_encoding_parameters", .list (e.encodings.map RtpEncoding.toDatum))]

def ChannelConfig.ofDatum? (language : Datum.Language) (value : Datum) : Option ChannelConfig :=
  match value.fields language true
      ["audio", "video", "bildschirm_video_codecs", "ice_unbundle"] with
  | some [audio, video, screenCodecs, iceUnbundle] => do
    let audio ← Datum.orElse [{}] (Datum.list? (AudioEncoding.ofDatum? language)) audio
    let video ← Datum.orElse [{}] (Datum.list? (VideoEncoding.ofDatum? language)) video
    let screenCodecs ← Datum.orElse [] (Datum.list? Datum.text?) screenCodecs
    let iceUnbundle ← Datum.orElse false Datum.flag? iceUnbundle
    return { audio, video, screenCodecs, iceUnbundle }
  | _ => none

def ChannelConfig.toDatum (config : ChannelConfig) : Datum :=
  .record [("audio", .list (config.audio.map AudioEncoding.toDatum)),
    ("video", .list (config.video.map VideoEncoding.toDatum)),
    ("bildschirm_video_codecs", .texts config.screenCodecs),
    ("ice_unbundle", .flag config.iceUnbundle)]

def LoggingSettings.ofDatum? (language : Datum.Language) (value : Datum) :
    Option LoggingSettings :=
  match value.fields language true ["level", "format"] with
  | some [level, format] => do
    let level ← Datum.orElse "info" Datum.text? level
    let format ← Datum.orElse "text" Datum.text? format
    return { level, format }
  | _ => none

def LoggingSettings.toDatum (settings : LoggingSettings) : Datum :=
  .record [("level", .text settings.level), ("format", .text settings.format)]

def Configuration.ofDatum? (language : Datum.Language) (value : Datum) : Option Configuration :=
  match value.fields language true ["kanal", "logging"] with
  | some [channel, logging] => do
    let channel ← Datum.orElse {} (ChannelConfig.ofDatum? language) channel
    let logging ← Datum.orElse {} (LoggingSettings.ofDatum? language) logging
    return { channel, logging }
  | _ => none

def Configuration.toDatum (config : Configuration) : Datum :=
  .record [("kanal", config.channel.toDatum), ("logging", config.logging.toDatum)]

end MediaSession
