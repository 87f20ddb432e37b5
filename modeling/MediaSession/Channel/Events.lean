import MediaSession.Channel.Calls
import MediaSession.Wire.ServerMessage

namespace MediaSession

/-- A server's success concerns a publication first, a subscription only with its media there. -/
def Channel.serverSucceeded (c : Channel) : Reaction :=
  if c.pending.publish.isSome then c.succeedPublish
  else if c.pending.subscribe.isSome then
    let (fired, latch) := c.latch.noteServer
    if fired then Channel.succeedSubscribe { c with latch } else { channel := { c with latch } }
  else c.still

/-- A server's failure counts only until the connection stands. -/
def Channel.serverFailed (c : Channel) : Reaction :=
  if !c.isConnected && c.pending.failure.isSome then c.failPending Cause.serverFailure.error
  else c.still

/-- Of the descriptions that the server may send only answers are applied. -/
def Channel.receive (c : Channel) (message : Datum) : Reaction :=
  match ServerMessage.ofDatum message with
  | .success => c.serverSucceeded
  | .failure => c.serverFailed
  | .description kind sdp => if kind = "answer" then c.applyRemote sdp else c.still
  | _ => c.still

/-- A change to stable sends what was held back, or discards it in favour of a noted restart. -/
def Channel.signalingChanged (c : Channel) (state : SignalingState) : Reaction :=
  let restart := state.isStable && c.restartNoted
  let (sent, candidates) :=
    c.candidates.report state.isStable (if restart then .discard else .send)
  Reaction.andThen
    { channel :=
        { c with
          signaling := state
          restartNoted := if state.isStable then false else c.restartNoted
          candidates }
      effects := sent.map .send }
    fun c => if restart then c.executeRestart else c.still

/-- A failure counts only after a connection, and once. -/
def Channel.connectionChanged (c : Channel) (state : IceConnectionState) : Reaction :=
  match state with
  | .connected | .completed =>
    { channel := { c with isConnected := true, negotiation := c.negotiation.advance .connected } }
  | .failed =>
    if c.isConnected then Channel.streamFailed { c with isConnected := false } .connectivityLost
    else c.still
  | _ => c.still

/-- The gathering of paths is of no consequence. -/
def Channel.gatheringChanged (c : Channel) (_ : IceGatheringState) : Reaction := c.still

def Channel.candidateFound (c : Channel) (candidate : IceCandidate) : Reaction :=
  let (sent, candidates) :=
    c.candidates.offer
      (.ofCandidate c.session candidate.mid candidate.lineIndex candidate.candidate)
  { channel := { c with candidates }, effects := sent.map .send }

def Channel.candidatesRemoved (c : Channel) (removed : List String) : Reaction :=
  if removed = [] then c.still
  else { channel := c, effects := [.send (.ofRemoved c.session removed)] }

/-- Media of the other side belongs to the subscribed stream. -/
def Channel.streamAdded (c : Channel) (media : MediaStream) : Reaction :=
  let c : Channel := { c with subscribed := c.subscribed.map (·.withMedia media) }
  if c.pending.subscribe.isSome then
    let (fired, latch) := c.latch.noteMedia
    if fired then Channel.succeedSubscribe { c with latch } else { channel := { c with latch } }
  else c.still

end MediaSession
