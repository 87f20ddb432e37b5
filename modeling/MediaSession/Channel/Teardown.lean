import MediaSession.Channel

namespace MediaSession

/-- Ends the session: tells the server, closes the connection and forgets what belonged to it. -/
def Channel.dismantle (c : Channel) (event : StreamEvent) (call : Option CallId) : Reaction :=
  { channel :=
      { c with
        isConnected := false
        isOpen := false
        session := ""
        negotiation := c.negotiation.advance .ended
        renegotiation := c.renegotiation.advance .reset
        latch := {}
        candidates := c.candidates.clear }
    effects := .spawn (.reportEnd event c.session call) ::
      if c.isOpen then [.engine .close] else [] }

def Channel.unpublish (c : Channel) (session : String) (call : Option CallId) : Reaction :=
  if session ≠ c.session then c.refuse call .foreignPublication
  else (c.dismantle .unpublish call).andThen fun c => { channel := { c with published := none } }

/-- Ends the subscription of the session with this identity, unless it is still being set up. -/
def Channel.unsubscribe (c : Channel) (session : String) (call : Option CallId) : Reaction :=
  if session ≠ c.session then c.refuse call .foreignSubscription
  else if c.pending.subscribe.isSome then c.refuse call .unfinishedSubscription
  else
    (c.dismantle .unsubscribe call).andThen fun c => { channel := { c with subscribed := none } }

/-- Ends what is active, under the identity that the session has now. -/
def Channel.endStreams (c : Channel) : Reaction :=
  let session := c.session
  Reaction.andThen (if c.published.isSome then c.unpublish session none else c.still) fun c =>
    if c.subscribed.isSome then c.unsubscribe session none else c.still

/-- Tells every observer about the stream that was active, then ends what is active. -/
def Channel.streamFailed (c : Channel) (cause : Cause) : Reaction :=
  Reaction.andThen
    { channel := c
      effects := c.observers.map fun observer =>
        .post (.streamFailed observer c.activeStream cause.error) }
    Channel.endStreams

def Channel.drop (c : Channel) : Reaction := c.endStreams

end MediaSession
