import MediaSession.Proofs.LogFlow
import MediaSession.Proofs.SessionCourse

namespace MediaSession

/-- The source of the video of the published stream, or of the subscribed one if there is none. -/
def Channel.shownVideo (c : Channel) : Option VideoSource :=
  match c.published with
  | some stream => some stream.source.video
  | none => c.subscribed.map (·.source.video)

namespace ChannelConfig

/-- The codecs for a video from this source: a shared screen may have a list of its own. -/
def codecsFor (config : ChannelConfig) (source : Option VideoSource) : List String :=
  if config.screenCodecs ≠ [] ∧ source = some .screenCast then config.screenCodecs
  else config.video.map (·.codec)

/-- A description as it is to be applied: the codecs of the audio are put first, then those of the
video. -/
def rewritten (config : ChannelConfig) (source : Option VideoSource)
    (description : SessionDescription) : SessionDescription :=
  { kind := description.kind
    sdp := preferCodecs .video (config.codecsFor source)
      (preferCodecs .audio (config.audio.map (·.codec)) description.sdp) }

/-- The limit in bits per second that a first entry sets, if it is not zero. -/
def limit? (kind : MediaKind) (kbps : UInt32) : Option (MediaKind × Nat) :=
  if kbps = 0 then none else some (kind, min (1000 * kbps.toNat) 4294967295)

/-- The limits of a configuration, that of the audio before that of the video. -/
def limits (config : ChannelConfig) : List (MediaKind × Nat) :=
  (config.audio.head?.bind fun first => limit? .audio first.maxBitrateKbps).toList ++
    (config.video.head?.bind fun first => limit? .video first.maxBitrateKbps).toList

theorem limits_eq (config : ChannelConfig) :
    config.limits = (limit? .audio config.audioLimitKbps).toList ++
      (limit? .video config.videoLimitKbps).toList := by
  unfold limits audioLimitKbps videoLimitKbps
  cases config.audio <;> cases config.video <;> rfl

end ChannelConfig

namespace Turn

/-- The description that a step is to apply, because one has been created. -/
def created? (config : ChannelConfig) (turn : Turn) : Option SessionDescription :=
  match turn.stimulus with
  | .answered _ (.create _ _) (.ok reply) =>
    some (config.rewritten turn.before.shownVideo reply.description)
  | _ => none

/-- The description that has been applied when a step is made. -/
def applied? (turn : Turn) : Option SessionDescription :=
  match turn.stimulus with
  | .answered _ (.setLocal description) (.ok _) => some description
  | _ => none

/-- The limits that follow on a description that has been applied. -/
def limits (config : ChannelConfig) (turn : Turn) : List (MediaKind × Nat) :=
  if turn.applied?.isSome then config.limits else []

/-- The envelope that follows on a description that has been applied: it carries the kind and the
text of what the engine holds then. -/
def described (turn : Turn) : List SignalingEnvelope :=
  match turn.stimulus with
  | .answered (some current) (.setLocal _) (.ok _) =>
    [⟨turn.before.session,
      match current.kind with
      | .offer => .offer current.sdp
      | .answer => .answer current.sdp
      | .provisionalAnswer => .provisionalAnswer current.sdp⟩]
  | _ => []

end Turn

namespace Record

/-- The description that the engine is to apply. -/
def setLocal? : Record → Option SessionDescription
  | .engine (.setLocal description) => some description
  | _ => none

/-- The limit in bits per second that the engine is to keep. -/
def limit? : Record → Option (MediaKind × Nat)
  | .engine (.setMaxBitrate kind bps) => some (kind, bps.toNat)
  | _ => none

/-- Whether the engine is to create a description. -/
def creates : Record → Bool
  | .engine (.create _ _) => true
  | _ => false

end Record

namespace Channel

variable (c : Channel)

theorem showsScreen_iff : c.showsScreen = true ↔ c.shownVideo = some .screenCast := by
  unfold showsScreen shownVideo
  cases c.published <;> cases c.subscribed <;> simp [StreamSource.showsScreen]

theorem preferConfigured_eq (description : SessionDescription) :
    { description with sdp := c.preferConfigured description.sdp } =
      c.config.rewritten c.shownVideo description := by
  have hv : c.config.videoCodecs c.showsScreen = c.config.codecsFor c.shownVideo := by
    unfold ChannelConfig.videoCodecs ChannelConfig.codecsFor
    simp [← showsScreen_iff, and_comm]
  simp only [preferConfigured, ChannelConfig.rewritten, hv]
  rfl

theorem toNat_bitsPerSecond (kbps : UInt32) :
    (bitsPerSecond kbps).toNat = min (1000 * kbps.toNat) 4294967295 := by
  have hlt : min (1000 * kbps.toNat) 4294967295 < UInt32.size :=
    Nat.lt_of_le_of_lt (Nat.min_le_right _ _) (by decide)
  exact UInt32.toNat_ofNat_of_lt' hlt

theorem localApplied_prompt (current : Option SessionDescription) :
    (c.localApplied current).prompt = c.bitrateLimits.map .engine := by
  have hl : (c.bitrateLimits.map Effect.engine).filterMap Effect.prompt? =
      c.bitrateLimits.map .engine := by
    simp [Function.comp_def, Effect.prompt?]
  unfold localApplied
  split
  · exact hl
  · simp [Reaction.prompt, hl, Effect.prompt?, List.filterMap_cons]

theorem filterMap_limit?_bitrateLimits :
    (c.bitrateLimits.map Record.engine).filterMap Record.limit? = c.config.limits := by
  rw [ChannelConfig.limits_eq]
  by_cases ha : c.config.audioLimitKbps = 0 <;> by_cases hv : c.config.videoLimitKbps = 0 <;>
    simp [bitrateLimits, ChannelConfig.limit?, Record.limit?, toNat_bitsPerSecond, ha, hv]

end Channel

theorem Effect.setLocal?_eq_none {effect : Effect} (h : effect.describes = false) :
    effect.record?.bind Record.setLocal? = none := by
  rcases effect with _ | _ | task | task | call
  case spawn => cases task <;> first | rfl | cases h
  case proceed => cases task <;> first | rfl | cases h
  case engine => cases call <;> first | rfl | cases h
  all_goals rfl

theorem Effect.limit?_eq_none {effect : Effect} (h : effect.describes = false) :
    effect.prompt?.bind Record.limit? = none := by
  rcases effect with _ | _ | task | task | call
  case engine => cases call <;> first | rfl | cases h
  all_goals rfl

namespace Turn

variable {config : ChannelConfig} {turn : Turn}

theorem of_created? (h : turn.created? config ≠ none) : ∃ current creation options reply,
    turn.stimulus = .answered current (.create creation options) (.ok reply) := by
  unfold created? at h
  split at h
  next hs => exact ⟨_, _, _, _, hs⟩
  next => exact absurd rfl h

theorem of_applied? (h : turn.applied? ≠ none) : ∃ current description reply,
    turn.stimulus = .answered current (.setLocal description) (.ok reply) := by
  unfold applied? at h
  split at h
  next hs => exact ⟨_, _, _, hs⟩
  next => exact absurd rfl h

theorem described_eq_nil (h : turn.applied? = none) : turn.described = [] := by
  unfold described
  split
  next hs =>
    unfold applied? at h
    rw [hs] at h
    cases h
  next => rfl

/-- No other step has to do with a description of this side. -/
theorem plain (h : turn.before.Fares turn.stimulus turn.reaction)
    (hc : turn.created? config = none) (ha : turn.applied? = none) :
    ∀ effect ∈ turn.reaction.effects, effect.describes = false := by
  intro effect he
  cases h with
  | stands _ h => exact (h.plain effect he).1
  | invites _ _ h => exact (h.plain effect he).1
  | confirms _ h => exact (h.plain effect he).1
  | denies _ h => exact (h.plain effect he).1
  | connects _ _ h => exact (h.plain effect he).1
  | routes _ hr _ hm =>
    rw [hr] at he
    obtain ⟨⟨id, signaling⟩, hs, rfl⟩ := List.mem_map.mp he
    have hn := hm _ hs
    cases signaling with
    | candidate info => rfl
    | removedCandidates candidates => rfl
    | _ => cases hn
  | withdraws _ hr =>
    rw [hr] at he
    rw [List.mem_singleton.mp he]
    rfl
  | applies hs _ =>
    unfold created? at hc
    rw [hs] at hc
    cases hc
  | describes hs _ =>
    unfold applied? at ha
    rw [hs] at ha
    cases ha

/-- What a step does for the descriptions of this side. -/
structure Pipes (config : ChannelConfig) (turn : Turn) : Prop where
  setLocal : turn.reaction.asked.filterMap Record.setLocal? = (turn.created? config).toList
  limits : turn.reaction.prompt.filterMap Record.limit? = turn.limits config
  described : turn.reaction.sent.filter (·.signaling.describes) = turn.described

theorem Pipes.of_created {current : Option SessionDescription} {creation : Creation}
    {options : CreationOptions} {reply : Reply} (hc : turn.before.config = config)
    (hs : turn.stimulus = .answered current (.create creation options) (.ok reply)) :
    turn.Pipes config := by
  have hr : turn.reaction =
      { channel := turn.before
        effects := [.proceed (.setLocal
          (config.rewritten turn.before.shownVideo reply.description))] } := by
    rw [← hc, ← Channel.preferConfigured_eq]
    exact Turn.reaction_eq hs
  constructor
  · rw [hr, created?, hs]
    rfl
  · rw [hr, Turn.limits, applied?, hs]
    rfl
  · rw [hr, described_eq_nil (by rw [applied?, hs])]
    rfl

theorem Pipes.of_applied {current : Option SessionDescription}
    {description : SessionDescription} {reply : Reply} (hc : turn.before.config = config)
    (hs : turn.stimulus = .answered current (.setLocal description) (.ok reply)) :
    turn.Pipes config := by
  have hr : turn.reaction = turn.before.localApplied current := Turn.reaction_eq hs
  constructor
  · rw [hr, Channel.localApplied_asked, created?, hs]
    refine List.filterMap_eq_nil_iff.mpr fun record hm => ?_
    obtain ⟨call, hc, rfl⟩ := List.mem_map.mp hm
    obtain ⟨kind, kbps, rfl⟩ := Channel.eq_of_mem_bitrateLimits hc
    rfl
  · rw [hr, Channel.localApplied_prompt, Channel.filterMap_limit?_bitrateLimits, hc, Turn.limits,
      applied?, hs]
    rfl
  · rw [hr, Channel.localApplied_sent, Turn.described, hs]
    cases current with
    | none => rfl
    | some current =>
      obtain ⟨kind, sdp⟩ := current
      cases kind <;> rfl

theorem pipes (h : turn.before.Fares turn.stimulus turn.reaction)
    (hc : turn.before.config = config) : turn.Pipes config := by
  by_cases hcr : turn.created? config = none
  · by_cases hap : turn.applied? = none
    · have hp := plain h hcr hap
      constructor
      · rw [hcr, Reaction.asked, List.filterMap_filterMap]
        exact List.filterMap_eq_nil_iff.mpr fun e he => Effect.setLocal?_eq_none (hp e he)
      · rw [Turn.limits, hap, Reaction.prompt, List.filterMap_filterMap]
        exact List.filterMap_eq_nil_iff.mpr fun e he => Effect.limit?_eq_none (hp e he)
      · rw [described_eq_nil hap]
        refine List.filter_eq_nil_iff.mpr fun envelope he hd => ?_
        exact Bool.false_ne_true ((hp _ (Reaction.mem_sent.mp he)).symm.trans hd)
    · obtain ⟨current, description, reply, hs⟩ := of_applied? hap
      exact .of_applied hc hs
  · obtain ⟨current, creation, options, reply, hs⟩ := of_created? hcr
    exact .of_created hc hs

end Turn

/-- The limits that the engine was called to keep. -/
def limitCalls (log : List Record) : List (MediaKind × Nat) := log.filterMap Record.limit?

/-- The envelopes with a description that have been handed over. -/
def descriptionsSent (log : List Record) : List SignalingEnvelope :=
  (handedOver log).filter (·.signaling.describes)

theorem Record.limit?_eq_none {record : Record}
    (h : (∃ task, record = Task.record task) ∨ record.isCall = false) : record.limit? = none := by
  rcases h with ⟨task, rfl⟩ | h
  · cases task <;> rfl
  · cases record with
    | engine call => cases h
    | _ => rfl

theorem Course.pipes {config : ChannelConfig} {history : List Turn} (h : Course config history)
    {turn : Turn} (ht : turn ∈ history) : turn.Pipes config := by
  obtain ⟨past, rest, rfl⟩ := List.append_of_mem ht
  exact Turn.pipes h.fares (h.before ▸ h.left.config_eq)

theorem Course.sent_described {config : ChannelConfig} {history : List Turn}
    (h : Course config history) :
    (sent history).filter (·.signaling.describes) = history.flatMap Turn.described := by
  rw [sent, List.filter_flatMap]
  exact List.flatMap_congr fun turn ht => (h.pipes ht).described

namespace Rehearsal

/--
The limits are those of the steps so far. Whenever a description was handed over, the limits of all
steps up to some moment had been set, and it was among the descriptions of these steps, in order.
-/
structure Paced (config : ChannelConfig) (r : Rehearsal) : Prop where
  chronicle : Chronicle config r
  dispatches : Dispatches r
  limits : limitCalls r.log = r.history.flatMap (·.limits config)
  order : ∀ before envelope after, r.log = before ++ .message envelope :: after →
    envelope.signaling.describes = true → ∃ past rest, r.history = past ++ rest ∧
      limitCalls before = past.flatMap (·.limits config) ∧
      descriptionsSent (before ++ [.message envelope]) <+: past.flatMap Turn.described

theorem Paced.limits_change {config : ChannelConfig} {r r' : Rehearsal} (h : Paced config r)
    (hr : Change r r') : limitCalls r'.log = r'.history.flatMap (·.limits config) := by
  rcases hr.log with ⟨turn, hh, hl⟩ | ⟨hh, hl | ⟨record, hl, hk⟩⟩
  · have hp : turn.Pipes config := (h.chronicle.change hr).course.pipes (by simp [hh])
    have hlimits := h.limits
    have hprompt := hp.limits
    rw [limitCalls] at hlimits ⊢
    rw [hl, hh, List.filterMap_append, hlimits, hprompt, List.flatMap_append,
      List.flatMap_singleton]
  · rw [hl, hh, h.limits]
  · have hlimits := h.limits
    rw [limitCalls] at hlimits ⊢
    rw [hl, hh, List.filterMap_append, hlimits]
    simp [Record.limit?_eq_none hk]

theorem Paced.change {config : ChannelConfig} {r r' : Rehearsal} (h : Paced config r)
    (hr : Change r r') : Paced config r' := by
  have hc := h.chronicle.change hr
  have hd := h.dispatches.change hr
  refine ⟨hc, hd, h.limits_change hr, fun before envelope after he hv => ?_⟩
  have earlier {after : List Record} (hb : r.log = before ++ .message envelope :: after) :
      ∃ past rest, r'.history = past ++ rest ∧
        limitCalls before = past.flatMap (·.limits config) ∧
        descriptionsSent (before ++ [.message envelope]) <+: past.flatMap Turn.described := by
    obtain ⟨past, rest, hp, hs⟩ := h.order before envelope after hb hv
    rcases hr.history with hh | ⟨turn, hh⟩
    · exact ⟨past, rest, hh.trans hp, hs⟩
    · exact ⟨past, rest ++ [turn], by rw [hh, hp, List.append_assoc], hs⟩
  rcases hr.log with ⟨turn, _, hl⟩ | ⟨hh, hl | ⟨record, hl, hk⟩⟩
  · have hn : .message envelope ∉ turn.reaction.prompt := by
      intro hm
      obtain ⟨effect, _, hp⟩ := List.mem_filterMap.mp hm
      cases effect <;> cases hp
    obtain ⟨between, _, hb⟩ := append_eq_append_cons (hl.symm.trans he) hn
    exact earlier hb
  · exact earlier (hl.symm.trans he)
  · rcases snoc_eq_append_cons (hl.symm.trans he) with ⟨rfl, rfl, _⟩ | ⟨between, _, hb⟩
    · -- The envelope leaves the queue now, and everything that was sent before it has left it.
      refine ⟨r'.history, [], by simp, ?_, ?_⟩
      · rw [hh, h.limits]
      · rw [← hl, ← hc.course.sent_described, ← hd.order]
        exact (List.prefix_append _ _).filter _
    · exact earlier hb

variable (config : ChannelConfig) (usual : Endpoint → Answer) (moves : List Move)

end Rehearsal

end MediaSession
