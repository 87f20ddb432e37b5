import MediaSession.Channel.Answers

namespace MediaSession

/-- Whatever a channel meets: a call, an event of the engine, a message or the answer to a task. -/
inductive Stimulus where
  | publish (stream : Option LocalStream) (call : CallId)
  | subscribe (stream : Option RemoteStream) (options : SubscribeOptions) (call : CallId)
  /-- Without an identity the present session is meant. -/
  | unpublish (session : Option String) (call : Option CallId)
  | unsubscribe (session : Option String) (call : Option CallId)
  | control (target : ControlTarget) (operation : ControlOperation) (call : CallId)
  | statistics (call : CallId)
  | create (creation : Creation)
  | restartIce
  | applyRemote (sdp : String)
  | receive (message : Datum)
  | addObserver (observer : ObserverId)
  | removeObserver (observer : ObserverId)
  | signalingChanged (state : SignalingState)
  | connectionChanged (state : IceConnectionState)
  | gatheringChanged (state : IceGatheringState)
  | candidateFound (candidate : IceCandidate)
  | candidatesRemoved (removed : List String)
  | streamAdded (media : MediaStream)
  | answered (current : Option SessionDescription) (task : Task) (answer : Answer)
  | drop
  deriving Inhabited

def Channel.meet (c : Channel) : Stimulus → Reaction
  | .publish stream call => c.publish stream call
  | .subscribe stream options call => c.subscribe stream options call
  | .unpublish session call => c.unpublish (session.getD c.session) call
  | .unsubscribe session call => c.unsubscribe (session.getD c.session) call
  | .control target operation call => c.control target operation call
  | .statistics call => c.statistics call
  | .create creation => c.create creation
  | .restartIce => c.restartIce
  | .applyRemote sdp => c.applyRemote sdp
  | .receive message => c.receive message
  | .addObserver observer => (c.addObserver observer).still
  | .removeObserver observer => (c.removeObserver observer).still
  | .signalingChanged state => c.signalingChanged state
  | .connectionChanged state => c.connectionChanged state
  | .gatheringChanged state => c.gatheringChanged state
  | .candidateFound candidate => c.candidateFound candidate
  | .candidatesRemoved removed => c.candidatesRemoved removed
  | .streamAdded media => c.streamAdded media
  | .answered current task answer => c.answered current task answer
  | .drop => c.drop

/-- One step of a channel: the state that it was in and what it met there. -/
structure Turn where
  before : Channel
  stimulus : Stimulus
  deriving Inhabited

def Turn.reaction (turn : Turn) : Reaction := turn.before.meet turn.stimulus

def Turn.after (turn : Turn) : Channel := turn.reaction.channel

end MediaSession
