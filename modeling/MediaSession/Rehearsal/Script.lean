import MediaSession.Channel.Answers

namespace MediaSession

/-- The calls on the collaborators for which answers can be planned. -/
inductive Endpoint where
  | request
  | message
  | reportEnd
  | control
  | createOffer
  | createAnswer
  | setLocal
  | setRemote
  | statistics
  | transceiver
  | maxBitrate
  deriving DecidableEq, Inhabited, Repr

/-- A planned answer: given at once, or held back until it is released. -/
inductive Plan where
  | hold
  | answer (answer : Answer)
  deriving Inhabited

abbrev Script := List (Endpoint × Plan)

def Script.take (endpoint : Endpoint) : Script → Option Plan × Script
  | [] => (none, [])
  | (e, plan) :: rest =>
    if e = endpoint then (some plan, rest)
    else
      let (found, others) := Script.take endpoint rest
      (found, (e, plan) :: others)

def Task.endpoint : Task → Endpoint
  | .requestPublish _ _ => .request
  | .requestSubscribe _ _ => .request
  | .create .offer _ => .createOffer
  | .create .answer _ => .createAnswer
  | .setLocal _ => .setLocal
  | .setRemote _ => .setRemote
  | .reportEnd _ _ _ => .reportEnd
  | .control _ _ _ _ _ => .control
  | .statistics _ => .statistics

/-- The endpoint of a call that the channel makes at once, if its answers can be planned. -/
def EngineCall.endpoint? : EngineCall → Option Endpoint
  | .addTrack _ _ => some .transceiver
  | .addTransceiver _ _ => some .transceiver
  | .setMaxBitrate _ _ => some .maxBitrate
  | _ => none

inductive Record where
  | request (options : InitOptions) (localStream remoteStream : String)
  | message (envelope : SignalingEnvelope)
  | reportEnd (event : StreamEvent) (session : String)
  | control (ofPublication : Bool) (session : String) (target : ControlTarget)
      (operation : ControlOperation)
  | engine (call : EngineCall)
  | notified (name : String) (notice : Notice)
  deriving Inhabited

def Task.record : Task → Record
  | .requestPublish options media => .request options media.id ""
  | .requestSubscribe options stream => .request options "" stream
  | .create creation options => .engine (.create creation options)
  | .setLocal description => .engine (.setLocal description)
  | .setRemote description => .engine (.setRemote description)
  | .reportEnd event session _ => .reportEnd event session
  | .control ofPublication session target operation _ =>
    .control ofPublication session target operation
  | .statistics _ => .engine .statistics

end MediaSession
