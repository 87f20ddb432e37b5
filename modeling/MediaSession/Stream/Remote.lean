import MediaSession.Stream.Media
import MediaSession.Stream.Quality

namespace MediaSession

/-- A stream of another participant; its media arrives after the subscription. -/
structure RemoteStream where
  id : String := ""
  hasAudio : Bool := false
  hasVideo : Bool := false
  source : StreamSource := {}
  settings : PublicationSettings := {}
  capabilities : SubscriptionCapabilities := {}
  media : Option MediaStream := none
  deriving DecidableEq, Inhabited

def RemoteStream.withMedia (stream : RemoteStream) (media : MediaStream) : RemoteStream :=
  { stream with media := some media }

def PublicationSettings.variant? (settings : PublicationSettings) (rid : String) :
    Option VideoPublication :=
  settings.video.find? (·.rid == rid)

end MediaSession
