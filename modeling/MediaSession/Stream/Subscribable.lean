import MediaSession.Stream.Remote

namespace MediaSession

/-- Nothing asked for, or published, or within the capabilities. -/
def resolutionAllowed (wanted : Resolution) (settings : PublicationSettings)
    (capabilities : SubscriptionCapabilities) : Bool :=
  wanted.isEmpty ||
    (wanted.isSet &&
      (settings.video.any (·.resolution == wanted) ||
        capabilities.video.resolutions.any (· == wanted)))

def frameRateAllowed (wanted : Binary64) (settings : PublicationSettings)
    (capabilities : SubscriptionCapabilities) : Bool :=
  wanted.isZero || settings.video.any (·.frameRate.equals wanted) ||
    capabilities.video.frameRates.any (·.equals wanted)

def keyFrameIntervalAllowed (wanted : UInt32) (settings : PublicationSettings)
    (capabilities : SubscriptionCapabilities) : Bool :=
  wanted == 0 || settings.video.any (·.keyframeInterval == wanted) ||
    capabilities.video.keyframeIntervals.any (· == wanted)

/-- A bitrate multiplier is never published, only offered as a capability. -/
def bitrateMultiplierAllowed (wanted : Binary64) (capabilities : SubscriptionCapabilities) : Bool :=
  wanted.isZero || capabilities.video.bitrateMultipliers.any (·.equals wanted)

/-- Whether a stream can be subscribed with these options. A `rid` decides alone. -/
def SubscribeOptions.allowed (options : SubscribeOptions) (settings : PublicationSettings)
    (capabilities : SubscriptionCapabilities) : Bool :=
  if options.video.rid ≠ "" then (settings.variant? options.video.rid).isSome
  else
    resolutionAllowed options.video.resolution settings capabilities &&
      frameRateAllowed options.video.frameRate settings capabilities &&
      keyFrameIntervalAllowed options.video.keyFrameInterval settings capabilities &&
      bitrateMultiplierAllowed options.video.bitrateMultiplier capabilities

end MediaSession
