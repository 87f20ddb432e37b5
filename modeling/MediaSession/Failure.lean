namespace MediaSession

inductive CallError where
  | transport (detail : String)
  | rejected (detail : String)
  | engine (detail : String)
  | invalidDescription (detail : String)
  | closed
  deriving DecidableEq, Inhabited, Repr

def CallError.message : CallError → String
  | .transport detail => "Transportfehler: " ++ detail
  | .rejected detail => "Vom Server abgelehnt: " ++ detail
  | .engine detail => "Engine-Fehler: " ++ detail
  | .invalidDescription detail => "Ungueltige Session-Description: " ++ detail
  | .closed => "PeerConnection geschlossen"

inductive ChannelError where
  | negotiation (detail : String)
  | transport (detail : String)
  | configuration (detail : String)
  | other (detail : String)
  deriving DecidableEq, Inhabited, Repr

def ChannelError.message : ChannelError → String
  | .negotiation detail => "Verhandlung fehlgeschlagen: " ++ detail
  | .transport detail => "Transportfehler: " ++ detail
  | .configuration detail => "Konfigurationsfehler: " ++ detail
  | .other detail => detail

/-- A failed call reaches the continuation as a transport failure that quotes it. -/
def CallError.toChannelError (e : CallError) : ChannelError := .transport e.message

/-- The reasons for which the channel itself gives up a request or a stream. -/
inductive Cause where
  | missingStream
  | withoutTracks
  | endedStream
  | unsupportedOption
  | alreadySubscribing
  | foreignPublication
  | foreignSubscription
  | unfinishedSubscription
  | withoutStream
  | localDescription
  | remoteDescription
  | serverFailure
  | connectivityLost
  deriving DecidableEq, Inhabited, Repr

def Cause.message : Cause → String
  | .missingStream => "Nullptr is not allowed."
  | .withoutTracks => "Cannot publish media stream without any tracks."
  | .endedStream => "Cannot publish ended stream."
  | .unsupportedOption => "Unsupported subscribe option."
  | .alreadySubscribing => "Subscribing this stream."
  | .foreignPublication => "Invalid stream to be unpublished."
  | .foreignSubscription => "Invalid stream to be unsubscribed."
  | .unfinishedSubscription => "Cannot unsubscribe a stream during subscribing."
  | .withoutStream => "No stream associated with the session"
  | .localDescription => "Failed to set local description."
  | .remoteDescription => "Failed to set remote description."
  | .serverFailure => "Server internal error during connection establishment."
  | .connectivityLost => "Stream ICE connection failed."

def Cause.error (cause : Cause) : ChannelError := .negotiation cause.message

end MediaSession
