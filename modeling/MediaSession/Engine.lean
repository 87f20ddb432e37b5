import MediaSession.Configuration
import MediaSession.Stream.Media
import MediaSession.Wire.Description

namespace MediaSession

inductive Direction where
  | sendRecv
  | sendOnly
  | recvOnly
  | inactive
  deriving DecidableEq, Inhabited, Repr

inductive SendPriority where
  | veryLow
  | low
  | medium
  | high
  deriving DecidableEq, Inhabited, Repr

/-- How the engine is to encode a track; absent values are its own choice. -/
structure SendEncoding where
  rid : Option String := none
  maxBitrateBps : Option UInt32 := none
  maxFramerate : Option Binary64 := none
  scaleResolutionDownBy : Option Binary64 := none
  temporalLayers : Option UInt32 := none
  priority : Option SendPriority := none
  active : Bool := true
  deriving DecidableEq, Inhabited

structure TransceiverInit where
  direction : Direction := .sendRecv
  streams : List String := []
  encodings : List SendEncoding := []
  deriving DecidableEq, Inhabited

structure IceCandidate where
  mid : String
  lineIndex : UInt32
  candidate : String
  deriving DecidableEq, Inhabited, Repr

structure ConnectionStats where
  bytesSent : UInt64 := 0
  bytesReceived : UInt64 := 0
  packetsLost : UInt64 := 0
  roundTripMs : Option Binary64 := none
  deriving DecidableEq, Inhabited

/-- Bundling is the rule; a configuration may ask for one transport per medium. -/
structure CreationOptions where
  useRtpMux : Bool := true
  deriving DecidableEq, Inhabited

inductive Creation where
  | offer
  | answer
  deriving DecidableEq, Inhabited, Repr

inductive EngineCall where
  | create (creation : Creation) (options : CreationOptions)
  | setLocal (description : SessionDescription)
  | setRemote (description : SessionDescription)
  | addTrack (track : MediaTrack) (init : TransceiverInit)
  | addTransceiver (kind : MediaKind) (init : TransceiverInit)
  | setMaxBitrate (kind : MediaKind) (bps : UInt32)
  | statistics
  | close
  deriving DecidableEq, Inhabited

def maxTemporalLayers : UInt32 := 4

def NetworkPriority.sendPriority : NetworkPriority → Option SendPriority
  | .unspecified => none
  | .veryLow => some .veryLow
  | .low => some .low
  | .medium => some .medium
  | .high => some .high

/-- Zero and empty values of the configuration are left out. -/
def RtpEncoding.sendEncoding (e : RtpEncoding) : SendEncoding where
  rid := if e.rid = "" then none else some e.rid
  maxBitrateBps := if e.maxBitrateBps = 0 then none else some e.maxBitrateBps
  maxFramerate := if e.maxFramerate.isZero then none else some e.maxFramerate
  scaleResolutionDownBy :=
    if e.scaleResolutionDownBy.isPositive then some e.scaleResolutionDownBy else none
  temporalLayers :=
    if 1 ≤ e.temporalLayers ∧ e.temporalLayers ≤ maxTemporalLayers then some e.temporalLayers
    else none
  priority := e.priority.sendPriority
  active := e.active

def wordMax : Nat := 0xFFFFFFFF

def bitsPerSecond (kbps : UInt32) : UInt32 := UInt32.ofNat (min (1000 * kbps.toNat) wordMax)

end MediaSession
