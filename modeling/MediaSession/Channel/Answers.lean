import MediaSession.Channel.Events
import MediaSession.Sdp.CodecPreference

namespace MediaSession

/-- What a successful answer may carry; each kind of call reads its own part. -/
structure Reply where
  acknowledgement : InitAck
  description : SessionDescription
  statistics : ConnectionStats := {}
  deriving Inhabited

abbrev Answer := Except CallError Reply

def Channel.confirmHandshake (c : Channel) (ack : InitAck) : Channel :=
  { c with
    session := ack.sessionId
    negotiation := c.negotiation.advance .handshakeConfirmed }

def Channel.senders (c : Channel) (media : MediaStream) : List EngineCall :=
  let encodings := c.config.videoEncodings.map RtpEncoding.sendEncoding
  (media.audioTracks.map fun track =>
      .addTrack track { direction := .sendOnly, streams := [media.id] }) ++
    (media.videoTracks.map fun track =>
      .addTrack track { direction := .sendOnly, streams := [media.id], encodings })

def Channel.publishConfirmed (c : Channel) (media : MediaStream) (ack : InitAck) : Reaction :=
  let c := c.confirmHandshake ack
  if c.isOpen then
    Reaction.andThen { channel := c, effects := (c.senders media).map .engine } (·.create .offer)
  else c.still

def Channel.subscribeConfirmed (c : Channel) (ack : InitAck) : Reaction :=
  (c.confirmHandshake ack).create .offer

def Channel.handshakeFailed (c : Channel) (error : CallError) : Reaction :=
  Channel.failPending { c with negotiation := c.negotiation.advance .ended } error.toChannelError

def Channel.showsScreen (c : Channel) : Bool :=
  match c.published, c.subscribed with
  | some stream, _ => stream.source.showsScreen
  | none, some stream => stream.source.showsScreen
  | none, none => false

/-- Puts the configured codecs first, those of the audio before those of the video. -/
def Channel.preferConfigured (c : Channel) (sdp : String) : String :=
  preferCodecs .video (c.config.videoCodecs c.showsScreen)
    (preferCodecs .audio c.config.audioCodecs sdp)

def Channel.bitrateLimits (c : Channel) : List EngineCall :=
  [(MediaKind.audio, c.config.audioLimitKbps), (.video, c.config.videoLimitKbps)].filterMap
    fun (kind, kbps) => if kbps = 0 then none else some (.setMaxBitrate kind (bitsPerSecond kbps))

/-- Limits first, as there are no senders before; then the server gets the engine's description. -/
def Channel.localApplied (c : Channel) (current : Option SessionDescription) : Reaction :=
  let limits := c.bitrateLimits.map .engine
  match current with
  | none => { channel := c, effects := limits }
  | some description =>
    { channel := { c with negotiation := c.negotiation.advance .descriptionSent }
      effects := limits ++
        [.send ⟨c.session, .description description.kind description.sdp⟩] }

/-- A description that cannot be applied costs the pending call and the stream. -/
def Channel.descriptionFailed (c : Channel) (cause : Cause) : Reaction :=
  (c.failPending cause.error).andThen (·.streamFailed cause)

def Channel.concluded (c : Channel) (call : Option CallId) (answer : Answer) : Reaction :=
  { channel := c
    effects := call.toList.map fun call =>
      match answer with
      | .ok _ => .post (.finished call)
      | .error e => .post (.failed call e.toChannelError) }

/-- How an answered call goes on; `current` is the local description that the engine holds. -/
def Channel.answered (c : Channel) (current : Option SessionDescription) :
    Task → Answer → Reaction
  | .requestPublish _ media, .ok reply => c.publishConfirmed media reply.acknowledgement
  | .requestPublish _ _, .error e => c.handshakeFailed e
  | .requestSubscribe _ _, .ok reply => c.subscribeConfirmed reply.acknowledgement
  | .requestSubscribe _ _, .error e => c.handshakeFailed e
  | .create _ _, .ok reply =>
    { channel := c
      effects := [.proceed (.setLocal
        { reply.description with sdp := c.preferConfigured reply.description.sdp })] }
  | .create _ _, .error _ => c.still
  | .setLocal _, .ok _ => c.localApplied current
  | .setLocal _, .error _ => c.descriptionFailed .localDescription
  | .setRemote _, .ok _ =>
    { channel := { c with renegotiation := c.renegotiation.advance .completed } }
  | .setRemote _, .error _ => c.descriptionFailed .remoteDescription
  | .reportEnd _ _ call, answer => c.concluded call answer
  | .control _ _ _ _ call, answer => c.concluded (some call) answer
  | .statistics call, .ok reply =>
    { channel := c, effects := [.post (.measured call reply.statistics)] }
  | .statistics call, .error e =>
    { channel := c, effects := [.post (.failed call e.toChannelError)] }

end MediaSession
