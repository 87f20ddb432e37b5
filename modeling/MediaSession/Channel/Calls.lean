import MediaSession.Channel.Teardown
import MediaSession.Stream.Subscribable
import MediaSession.Wire.QualityLevel

namespace MediaSession

def AudioSource.trackSource : AudioSource → TrackSource
  | .screenCast => .screenCast
  | _ => .mic

def VideoSource.trackSource : VideoSource → TrackSource
  | .screenCast => .screenCast
  | _ => .camera

/-- The request for a publication announces one track for each kind of media in the stream. -/
def publishOptions (stream : LocalStream) (media : MediaStream) : InitOptions :=
  let withAudio := !media.audioTracks.isEmpty
  let audio :=
    if withAudio then
      [{ TrackOptions.of .audio true with source := some stream.source.audio.trackSource }]
    else []
  let video :=
    if media.videoTracks.isEmpty then []
    else [{ TrackOptions.of .video withAudio with source := some stream.source.video.trackSource }]
  { tracks := audio ++ video, attributes := some stream.attributes }

def wholeFrameRate (rate : Binary64) : UInt32 := UInt32.ofNat (rate.clampedFloor wordMax)

def VideoConstraints.parameters (video : VideoConstraints) : VideoParameters where
  resolution := if video.resolution.isSet then some video.resolution else none
  bitrate := qualityLevel video.bitrateMultiplier
  keyFrameInterval := if video.keyFrameInterval = 0 then none else some video.keyFrameInterval
  framerate := if video.frameRate.isZero then none else some (wholeFrameRate video.frameRate)

/-- The video of a subscription comes from the stream, or from the variant with the wanted `rid`. -/
def videoOrigin (stream : RemoteStream) (video : VideoConstraints) : Option String :=
  if video.rid = "" then some stream.id
  else (stream.settings.variant? video.rid).map (·.trackId)

def wantedKinds (stream : RemoteStream) (options : SubscribeOptions) : List MediaKind :=
  (if stream.hasAudio && !options.audio.disabled then [.audio] else []) ++
    (if stream.hasVideo && !options.video.disabled then [.video] else [])

def subscribeTrack (stream : RemoteStream) (options : SubscribeOptions) (withAudio : Bool) :
    MediaKind → TrackOptions
  | .audio => { TrackOptions.of .audio withAudio with origin := some stream.id }
  | .video =>
    { TrackOptions.of .video withAudio with
      origin := videoOrigin stream options.video
      parameters := some options.video.parameters
      simulcastRid := if options.video.rid = "" then none else some options.video.rid }

def subscribeRequest (stream : RemoteStream) (options : SubscribeOptions) : InitOptions :=
  let kinds := wantedKinds stream options
  { tracks := kinds.map (subscribeTrack stream options (kinds.contains .audio)) }

/-- Publishes a stream that has at least one live track. -/
def Channel.publish (c : Channel) (stream : Option LocalStream) (call : CallId) : Reaction :=
  match stream with
  | none => c.refuse call .missingStream
  | some stream =>
    match stream.media with
    | none => c.refuse call .missingStream
    | some media =>
      if !media.hasTracks then c.refuse call .withoutTracks
      else if media.isEnded then c.refuse call .endedStream
      else
        { channel :=
            { c with
              pending := c.pending.awaitPublish call
              published := some stream
              directions := { audio := .sendOnly, video := .sendOnly }
              negotiation := c.negotiation.advance .invitationSent }
          effects := [.spawn (.requestPublish (publishOptions stream media) media)] }

/-- Subscribes to a stream; one subscription at a time may be under way. -/
def Channel.subscribe (c : Channel) (stream : Option RemoteStream) (options : SubscribeOptions)
    (call : CallId) : Reaction :=
  match stream with
  | none => c.refuse call .missingStream
  | some stream =>
    if !options.allowed stream.settings stream.capabilities then c.refuse call .unsupportedOption
    else if c.pending.subscribe.isSome then c.refuse call .alreadySubscribing
    else
      let receivers :=
        if c.isOpen then
          (wantedKinds stream options).map fun kind =>
            .engine (.addTransceiver kind { direction := .recvOnly })
        else []
      { channel :=
          { c with
            pending := c.pending.awaitSubscribe call
            latch := {}
            subscribed := some stream
            directions := { audio := .recvOnly, video := .recvOnly }
            negotiation := c.negotiation.advance .invitationSent }
        effects := receivers ++
          [.spawn (.requestSubscribe (subscribeRequest stream options) stream.id)] }

def Channel.control (c : Channel) (target : ControlTarget) (operation : ControlOperation)
    (call : CallId) : Reaction :=
  if c.published.isNone && c.subscribed.isNone then c.refuse call .withoutStream
  else
    { channel := c
      effects := [.spawn (.control c.published.isSome c.session target operation call)] }

def Channel.statistics (c : Channel) (call : CallId) : Reaction :=
  if c.published.isNone && c.subscribed.isNone then c.refuse call .withoutStream
  else if c.isOpen then { channel := c, effects := [.spawn (.statistics call)] }
  else { channel := c, effects := [.post (.failed call CallError.closed.toChannelError)] }

/-- An observer is registered once; a further registration changes nothing. -/
def Channel.addObserver (c : Channel) (observer : ObserverId) : Channel :=
  if observer ∈ c.observers then c else { c with observers := c.observers ++ [observer] }

def Channel.removeObserver (c : Channel) (observer : ObserverId) : Channel :=
  { c with observers := c.observers.filter (· ≠ observer) }

/-- Starts a new path; a connected session counts this as a negotiation anew. -/
def Channel.executeRestart (c : Channel) : Reaction :=
  Channel.create
    { c with
      renegotiation :=
        if c.negotiation = .connected then c.renegotiation.advance .sent else c.renegotiation }
    .offer

/-- Starts a new path at once if the signaling is stable, else as soon as it is. -/
def Channel.restartIce (c : Channel) : Reaction :=
  if c.signaling.isStable then c.executeRestart
  else { channel := { c with restartNoted := true } }

/-- Applies a description of the server, always as an answer. -/
def Channel.applyRemote (c : Channel) (sdp : String) : Reaction :=
  match SessionDescription.parse .answer sdp with
  | .error _ => c.failPending Cause.remoteDescription.error
  | .ok description =>
    if c.isOpen then { channel := c, effects := [.spawn (.setRemote description)] } else c.still

end MediaSession
