namespace MediaSession

inductive SignalingState where
  | stable
  | haveLocalOffer
  | haveRemoteOffer
  | haveLocalProvisional
  | haveRemoteProvisional
  | closed
  deriving DecidableEq, Inhabited, Repr

def SignalingState.isStable (state : SignalingState) : Bool := state = .stable

inductive IceConnectionState where
  | new
  | checking
  | connected
  | completed
  | failed
  | disconnected
  | closed
  deriving DecidableEq, Inhabited, Repr

inductive IceGatheringState where
  | new
  | gathering
  | complete
  deriving DecidableEq, Inhabited, Repr

end MediaSession
