import MediaSession.Stream.Subscribable

namespace MediaSession

/--
Each published variant and each capability for the video on the one side is also among those on the
other side, wherever it stands there and however often.
-/
structure Widens (settings : PublicationSettings) (capabilities : SubscriptionCapabilities)
    (settings' : PublicationSettings) (capabilities' : SubscriptionCapabilities) : Prop where
  variants : settings.video ⊆ settings'.video
  resolutions : capabilities.video.resolutions ⊆ capabilities'.video.resolutions
  frameRates : capabilities.video.frameRates ⊆ capabilities'.video.frameRates
  bitrateMultipliers : capabilities.video.bitrateMultipliers ⊆ capabilities'.video.bitrateMultipliers
  keyframeIntervals : capabilities.video.keyframeIntervals ⊆ capabilities'.video.keyframeIntervals

/-- Each quantity is not asked for, or it is that of a variant, or it is a capability. -/
structure VideoConstraints.OnOffer (video : VideoConstraints) (settings : PublicationSettings)
    (capabilities : SubscriptionCapabilities) : Prop where
  resolution : video.resolution.isEmpty = true ∨ video.resolution.isSet = true ∧
    ((∃ variant ∈ settings.video, variant.resolution = video.resolution) ∨
      video.resolution ∈ capabilities.video.resolutions)
  frameRate : video.frameRate.isZero = true ∨
    (∃ variant ∈ settings.video, variant.frameRate.equals video.frameRate = true) ∨
      ∃ rate ∈ capabilities.video.frameRates, rate.equals video.frameRate = true
  keyFrameInterval : video.keyFrameInterval = 0 ∨
    (∃ variant ∈ settings.video, variant.keyframeInterval = video.keyFrameInterval) ∨
      video.keyFrameInterval ∈ capabilities.video.keyframeIntervals
  bitrateMultiplier : video.bitrateMultiplier.isZero = true ∨
    ∃ multiplier ∈ capabilities.video.bitrateMultipliers,
      multiplier.equals video.bitrateMultiplier = true

theorem variant?_isSome_iff {settings : PublicationSettings} {rid : String} :
    (settings.variant? rid).isSome = true ↔ rid ∈ settings.video.map (·.rid) := by
  simp [PublicationSettings.variant?, List.find?_isSome]

section Offers

variable {settings settings' : PublicationSettings}
variable {capabilities capabilities' : SubscriptionCapabilities}

theorem resolutionAllowed_iff {wanted : Resolution} :
    resolutionAllowed wanted settings capabilities = true ↔
      wanted.isEmpty = true ∨ wanted.isSet = true ∧
        ((∃ variant ∈ settings.video, variant.resolution = wanted) ∨
          wanted ∈ capabilities.video.resolutions) := by
  simp [resolutionAllowed]

theorem frameRateAllowed_iff {wanted : Binary64} :
    frameRateAllowed wanted settings capabilities = true ↔ wanted.isZero = true ∨
      (∃ variant ∈ settings.video, variant.frameRate.equals wanted = true) ∨
        ∃ rate ∈ capabilities.video.frameRates, rate.equals wanted = true := by
  simp [frameRateAllowed, or_assoc]

theorem keyFrameIntervalAllowed_iff {wanted : UInt32} :
    keyFrameIntervalAllowed wanted settings capabilities = true ↔ wanted = 0 ∨
      (∃ variant ∈ settings.video, variant.keyframeInterval = wanted) ∨
        wanted ∈ capabilities.video.keyframeIntervals := by
  simp [keyFrameIntervalAllowed, or_assoc]

theorem bitrateMultiplierAllowed_iff {wanted : Binary64} :
    bitrateMultiplierAllowed wanted capabilities = true ↔ wanted.isZero = true ∨
      ∃ multiplier ∈ capabilities.video.bitrateMultipliers, multiplier.equals wanted = true := by
  simp [bitrateMultiplierAllowed]

namespace SubscribeOptions

variable {options : SubscribeOptions}

theorem allowed_iff_mem (hr : options.video.rid ≠ "") :
    options.allowed settings capabilities = true ↔
      options.video.rid ∈ settings.video.map (·.rid) := by
  rw [allowed, if_pos hr, variant?_isSome_iff]

theorem allowed_iff_onOffer (hr : options.video.rid = "") :
    options.allowed settings capabilities = true ↔
      options.video.OnOffer settings capabilities := by
  rw [allowed, if_neg fun hn => hn hr]
  simp only [Bool.and_eq_true, resolutionAllowed_iff, frameRateAllowed_iff,
    keyFrameIntervalAllowed_iff, bitrateMultiplierAllowed_iff]
  constructor
  · rintro ⟨⟨⟨hs, hf⟩, hk⟩, hb⟩
    exact ⟨hs, hf, hk, hb⟩
  · rintro ⟨hs, hf, hk, hb⟩
    exact ⟨⟨⟨hs, hf⟩, hk⟩, hb⟩

end SubscribeOptions

namespace Widens

/-- What is asked of the published variants is still true of one of them. -/
theorem exists_variant (h : Widens settings capabilities settings' capabilities')
    {P : VideoPublication → Prop} (hv : ∃ variant ∈ settings.video, P variant) :
    ∃ variant ∈ settings'.video, P variant := by
  obtain ⟨variant, hm, hp⟩ := hv
  exact ⟨variant, h.variants hm, hp⟩

theorem onOffer (h : Widens settings capabilities settings' capabilities')
    {video : VideoConstraints} (ho : video.OnOffer settings capabilities) :
    video.OnOffer settings' capabilities' where
  resolution := ho.resolution.imp_right fun ⟨hs, hr⟩ =>
    ⟨hs, hr.imp h.exists_variant fun hm => h.resolutions hm⟩
  frameRate := ho.frameRate.imp_right fun hf =>
    hf.imp h.exists_variant fun ⟨rate, hm, he⟩ => ⟨rate, h.frameRates hm, he⟩
  keyFrameInterval := ho.keyFrameInterval.imp_right fun hk =>
    hk.imp h.exists_variant fun hm => h.keyframeIntervals hm
  bitrateMultiplier := ho.bitrateMultiplier.imp_right fun ⟨multiplier, hm, he⟩ =>
    ⟨multiplier, h.bitrateMultipliers hm, he⟩

theorem allowed (h : Widens settings capabilities settings' capabilities')
    {options : SubscribeOptions} (ha : options.allowed settings capabilities = true) :
    options.allowed settings' capabilities' = true := by
  by_cases hr : options.video.rid = ""
  · rw [SubscribeOptions.allowed_iff_onOffer hr] at ha ⊢
    exact h.onOffer ha
  · rw [SubscribeOptions.allowed_iff_mem hr] at ha ⊢
    exact List.map_subset _ h.variants ha

end Widens

/-- The codecs that are asked for, and all that is asked of the audio, have no say. -/
theorem allowed_codecs (options : SubscribeOptions) (audio : AudioConstraints)
    (codecs : List String) :
    SubscribeOptions.allowed { audio, video := { options.video with codecs } } settings
        capabilities = options.allowed settings capabilities :=
  rfl

/--
Options that are allowed stay so when variants or capabilities are added anywhere. Only what the
lists hold counts, not in which order or how often, and the codecs asked for do not count at all.
With a `rid` the verdict is whether a published variant has it, whatever else is asked or offered;
without one it is whether each quantity that is asked for is on offer.
-/
theorem allowed_offers (options : SubscribeOptions) (settings settings' : PublicationSettings)
    (capabilities capabilities' : SubscriptionCapabilities) :
    (Widens settings capabilities settings' capabilities' →
        options.allowed settings capabilities = true →
        options.allowed settings' capabilities' = true) ∧
      (Widens settings capabilities settings' capabilities' →
        Widens settings' capabilities' settings capabilities → ∀ audio codecs,
        SubscribeOptions.allowed { audio, video := { options.video with codecs } } settings'
            capabilities' = options.allowed settings capabilities) ∧
      (options.video.rid ≠ "" → ∀ options' : SubscribeOptions,
        options'.video.rid = options.video.rid →
        (∀ rid, rid ∈ settings'.video.map (·.rid) ↔ rid ∈ settings.video.map (·.rid)) →
        options'.allowed settings' capabilities' = options.allowed settings capabilities ∧
          (options.allowed settings capabilities = true ↔
            options.video.rid ∈ settings.video.map (·.rid))) ∧
      (options.video.rid = "" → (options.allowed settings capabilities = true ↔
        options.video.OnOffer settings capabilities)) := by
  refine ⟨fun h ha => h.allowed ha, fun h h' audio codecs => ?_, fun hr options' he hm => ?_,
    fun hr => SubscribeOptions.allowed_iff_onOffer hr⟩
  · rw [allowed_codecs, Bool.eq_iff_iff]
    exact ⟨fun ha => h'.allowed ha, fun ha => h.allowed ha⟩
  · have hr' : options'.video.rid ≠ "" := he ▸ hr
    refine ⟨?_, SubscribeOptions.allowed_iff_mem hr⟩
    rw [Bool.eq_iff_iff, SubscribeOptions.allowed_iff_mem hr',
      SubscribeOptions.allowed_iff_mem hr, he]
    exact hm options.video.rid

end Offers

/-- One picture in two sizes. -/
def twoSizes : PublicationSettings where
  video :=
    [{ resolution := { width := 1280, height := 720 }, rid := "h" },
      { resolution := { width := 640, height := 360 }, rid := "l" }]

def onceMore (settings : PublicationSettings) : PublicationSettings where
  video := settings.video.reverse ++ settings.video

theorem twoSizes_widens : Widens twoSizes {} (onceMore twoSizes) {} := by
  refine ⟨?_, by simp, by simp, by simp, by simp⟩
  exact List.subset_append_right _ _

theorem onceMore_twoSizes_widens : Widens (onceMore twoSizes) {} twoSizes {} := by
  refine ⟨?_, by simp, by simp, by simp, by simp⟩
  simp [onceMore, twoSizes]

theorem twoSizes_allowed :
    SubscribeOptions.allowed { video := { resolution := { width := 640, height := 360 } } }
        (onceMore twoSizes) {} = true ∧
      SubscribeOptions.allowed { video := { keyFrameInterval := 30, codecs := ["VP8"] } }
        (onceMore twoSizes) {} = false ∧
      SubscribeOptions.allowed { video := { keyFrameInterval := 30, rid := "l" } }
        { video := [{ rid := "l" }, { rid := "h" }] } {} = true := by
  refine ⟨?_, ?_, ?_⟩
  · exact (allowed_offers { video := { resolution := { width := 640, height := 360 } } }
      twoSizes (onceMore twoSizes) {} {}).1 twoSizes_widens (by decide)
  · obtain ⟨_, hsame, _⟩ := allowed_offers { video := { keyFrameInterval := 30 } }
      twoSizes (onceMore twoSizes) {} {}
    exact (hsame twoSizes_widens onceMore_twoSizes_widens {} ["VP8"]).trans (by decide)
  · obtain ⟨_, _, hrid, _⟩ := allowed_offers { video := { rid := "l" } }
      twoSizes { video := [{ rid := "l" }, { rid := "h" }] } {} {}
    have hm (rid : String) : rid ∈ ["l", "h"] ↔ rid ∈ twoSizes.video.map (·.rid) := by
      simp [twoSizes, or_comm]
    obtain ⟨heq, hiff⟩ := hrid (by decide) { video := { keyFrameInterval := 30, rid := "l" } } rfl hm
    exact heq.trans (hiff.mpr (by decide))

end MediaSession
