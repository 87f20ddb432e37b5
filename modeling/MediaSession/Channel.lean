import MediaSession.CandidateBuffer
import MediaSession.Connectivity
import MediaSession.Engine
import MediaSession.Negotiation
import MediaSession.PendingCalls
import MediaSession.Stream.Remote
import MediaSession.Wire.Control
import MediaSession.Wire.Envelope
import MediaSession.Wire.Handshake

namespace MediaSession

/-- A call that has continuations, told apart from every other call. -/
abbrev CallId := Nat

abbrev ObserverId := String

structure Directions where
  audio : Direction := .sendRecv
  video : Direction := .sendRecv
  deriving DecidableEq, Inhabited

structure Channel where
  config : ChannelConfig := {}
  /-- The identity given by the server, empty while there is no session. -/
  session : String := ""
  isOpen : Bool := true
  negotiation : NegotiationState := .ready
  renegotiation : RenegotiationState := .none
  signaling : SignalingState := .stable
  restartNoted : Bool := false
  isConnected : Bool := false
  directions : Directions := {}
  candidates : CandidateBuffer SignalingEnvelope := {}
  pending : PendingCalls CallId := {}
  latch : SubscribeLatch := {}
  published : Option LocalStream := none
  subscribed : Option RemoteStream := none
  observers : List ObserverId := []
  deriving Inhabited

inductive ActiveStream where
  | published (stream : LocalStream)
  | subscribed (stream : RemoteStream)
  deriving Inhabited

/-- The stream that an error concerns, a published one before a subscribed one. -/
def Channel.activeStream (c : Channel) : Option ActiveStream :=
  match c.published with
  | some stream => some (.published stream)
  | none => c.subscribed.map .subscribed

inductive Notice where
  | succeeded (call : CallId) (session : String)
  | finished (call : CallId)
  | measured (call : CallId) (statistics : ConnectionStats)
  | failed (call : CallId) (error : ChannelError)
  | streamFailed (observer : ObserverId) (stream : Option ActiveStream) (error : ChannelError)
  deriving Inhabited

/-- A call to the server or the engine that is answered later. -/
inductive Task where
  | requestPublish (options : InitOptions) (media : MediaStream)
  | requestSubscribe (options : InitOptions) (stream : String)
  | create (creation : Creation) (options : CreationOptions)
  | setLocal (description : SessionDescription)
  | setRemote (description : SessionDescription)
  | reportEnd (event : StreamEvent) (session : String) (call : Option CallId)
  | control (ofPublication : Bool) (session : String) (target : ControlTarget)
      (operation : ControlOperation) (call : CallId)
  | statistics (call : CallId)
  deriving Inhabited

/-- What the channel asks of its surroundings. -/
inductive Effect where
  | post (notice : Notice)
  | send (envelope : SignalingEnvelope)
  /-- Makes a call of its own, later. -/
  | spawn (task : Task)
  /-- Makes a further call as the continuation of the one that was answered. -/
  | proceed (task : Task)
  | engine (call : EngineCall)
  deriving Inhabited

structure Reaction where
  channel : Channel
  effects : List Effect := []
  deriving Inhabited

def Reaction.andThen (r : Reaction) (f : Channel → Reaction) : Reaction :=
  { channel := (f r.channel).channel, effects := r.effects ++ (f r.channel).effects }

def Channel.still (c : Channel) : Reaction := { channel := c }

/-- Turns a request down; only its own failure continuation is told. -/
def Channel.refuse (c : Channel) (call : Option CallId) (cause : Cause) : Reaction :=
  { channel := c, effects := call.toList.map fun call => .post (.failed call cause.error) }

/-- Tells the pending failure continuation, if there is one; nothing is pending afterwards. -/
def Channel.failPending (c : Channel) (error : ChannelError) : Reaction :=
  { channel := { c with pending := c.pending.takeFailure.2 }
    effects := c.pending.takeFailure.1.toList.map fun call => .post (.failed call error) }

def Channel.succeedPublish (c : Channel) : Reaction :=
  { channel := { c with pending := c.pending.takePublish.2 }
    effects := c.pending.takePublish.1.toList.map fun call => .post (.succeeded call c.session) }

def Channel.succeedSubscribe (c : Channel) : Reaction :=
  { channel := { c with pending := c.pending.takeSubscribe.2 }
    effects := c.pending.takeSubscribe.1.toList.map fun call => .post (.succeeded call c.session) }

/-- Asks the engine for a description; without a connection nothing happens. -/
def Channel.create (c : Channel) (creation : Creation) : Reaction :=
  if c.isOpen then
    { channel := c
      effects := [.spawn (.create creation { useRtpMux := !c.config.iceUnbundle })] }
  else c.still

end MediaSession
