namespace MediaSession

inductive NegotiationState where
  | ready
  | offered
  | pending
  | matched
  | connecting
  | connected
  deriving DecidableEq, Inhabited, Repr

inductive NegotiationEvent where
  | invitationSent
  | invitationReceived
  | accepted
  | handshakeConfirmed
  | descriptionSent
  | connected
  | ended
  deriving DecidableEq, Inhabited, Repr

def NegotiationState.next? : NegotiationState → NegotiationEvent → Option NegotiationState
  | _, .ended => some .ready
  | .ready, .invitationSent => some .offered
  | .ready, .invitationReceived => some .pending
  | .pending, .accepted => some .matched
  | .offered, .handshakeConfirmed => some .matched
  | .matched, .descriptionSent => some .connecting
  | .connecting, .descriptionSent => some .connecting
  | .connected, .descriptionSent => some .connected
  | .matched, .connected => some .connected
  | .connecting, .connected => some .connected
  | .connected, .connected => some .connected
  | _, _ => none

/-- An event that is not allowed changes nothing. -/
def NegotiationState.advance (state : NegotiationState) (event : NegotiationEvent) :
    NegotiationState :=
  (state.next? event).getD state

inductive RenegotiationState where
  | none
  | sent
  | received
  | accepted
  deriving DecidableEq, Inhabited, Repr

inductive RenegotiationEvent where
  | sent
  | received
  | accepted
  | completed
  | reset
  deriving DecidableEq, Inhabited, Repr

def RenegotiationState.next? : RenegotiationState → RenegotiationEvent → Option RenegotiationState
  | _, .reset => some .none
  | .none, .sent => some .sent
  | .none, .received => some .received
  | .received, .accepted => some .accepted
  | .sent, .completed => some .none
  | .accepted, .completed => some .none
  | _, _ => Option.none

def RenegotiationState.advance (state : RenegotiationState) (event : RenegotiationEvent) :
    RenegotiationState :=
  (state.next? event).getD state

end MediaSession
