import MediaSession.Proofs.HandshakeFailure
import MediaSession.Proofs.LogFlow
import MediaSession.Proofs.SuccessSession

namespace MediaSession

/-- The kind and the direction of the transceiver that a call adds to the engine. -/
def Record.transceiver? : Record → Option (MediaKind × Direction)
  | .engine (.addTrack track init) => some (track.kind, init.direction)
  | .engine (.addTransceiver kind init) => some (kind, init.direction)
  | _ => none

/-- The transceivers that are added to the engine, in order. -/
def transceivers (log : List Record) : List (MediaKind × Direction) :=
  log.filterMap Record.transceiver?

/-- Each track of a request names the media line at which it stands. -/
def InitOptions.Numbered (request : InitOptions) : Prop :=
  ∀ (k : Nat) (track : TrackOptions), request.tracks[k]? = some track → track.mid = toString k

/-- The media kinds that are asked for, audio first. -/
def MediaKind.wanted (withAudio withVideo : Bool) : List MediaKind :=
  (if withAudio then [.audio] else []) ++ (if withVideo then [.video] else [])

theorem mediaLine_of_wanted {withAudio withVideo : Bool} {k : Nat} {kind : MediaKind}
    (h : (MediaKind.wanted withAudio withVideo)[k]? = some kind) :
    mediaLine kind withAudio = toString k := by
  cases withAudio with
  | true =>
    cases withVideo with
    | true =>
      match k with
      | 0 => obtain rfl := Option.some.inj h; rfl
      | 1 => obtain rfl := Option.some.inj h; rfl
      | k + 2 => cases h
    | false =>
      match k with
      | 0 => obtain rfl := Option.some.inj h; rfl
      | k + 1 => cases h
  | false =>
    cases withVideo with
    | true =>
      match k with
      | 0 => obtain rfl := Option.some.inj h; rfl
      | k + 1 => cases h
    | false => cases h

theorem MediaKind.contains_audio_wanted (withAudio withVideo : Bool) :
    (wanted withAudio withVideo).contains .audio = withAudio := by
  cases withAudio <;> cases withVideo <;> rfl

theorem MediaKind.mem_wanted {withAudio withVideo : Bool} {kind : MediaKind} :
    kind ∈ wanted withAudio withVideo ↔
      kind = .audio ∧ withAudio = true ∨ kind = .video ∧ withVideo = true := by
  cases withAudio <;> cases withVideo <;> simp [wanted]

/-- The kinds of two lists are all asked for, and in this order, if each of them has one at most. -/
theorem MediaKind.append_eq_wanted_iff (audio video : List MediaKind) :
    audio ++ video = wanted (!audio.isEmpty) (!video.isEmpty) ↔
      audio.Sublist [.audio] ∧ video.Sublist [.video] := by
  constructor
  · intro h
    cases audio with
    | nil =>
      cases video with
      | nil => exact ⟨List.nil_sublist _, List.nil_sublist _⟩
      | cons kind more =>
        have hv : kind :: more = [.video] := h
        exact ⟨List.nil_sublist _, hv ▸ List.Sublist.refl _⟩
    | cons kind more =>
      cases video with
      | nil =>
        have ha : kind :: more = [.audio] := by simpa [wanted] using h
        exact ⟨ha ▸ List.Sublist.refl _, List.nil_sublist _⟩
      | cons other rest =>
        have hb : kind :: (more ++ other :: rest) = [.audio, .video] := h
        obtain ⟨rfl, hm⟩ := List.cons.inj hb
        obtain ⟨rfl, ho⟩ : more = [] ∧ other :: rest = [.video] := by
          cases more with
          | nil => exact ⟨rfl, hm⟩
          | cons _ _ => simp at hm
        exact ⟨List.Sublist.refl _, ho ▸ List.Sublist.refl _⟩
  · rintro ⟨ha, hv⟩
    rcases List.sublist_singleton.mp ha with rfl | rfl <;>
      rcases List.sublist_singleton.mp hv with rfl | rfl <;> rfl

/-- Tracks of the kinds that are asked for are numbered if each takes the media line of its kind. -/
theorem InitOptions.numbered_of_wanted {request : InitOptions} {withAudio withVideo : Bool}
    (hk : request.tracks.map (·.kind) = MediaKind.wanted withAudio withVideo)
    (hm : ∀ track ∈ request.tracks, track.mid = mediaLine track.kind withAudio) :
    request.Numbered := by
  intro k track ht
  have hkind : (MediaKind.wanted withAudio withVideo)[k]? = some track.kind := by
    rw [← hk, List.getElem?_map, ht]
    rfl
  exact (hm track (List.mem_of_getElem? ht)).trans (mediaLine_of_wanted hkind)

/--
Where an announced track of a subscription comes from: the stream itself, or, for a video with a
wanted `rid`, the first of the published variants with that `rid`.
-/
inductive Originates (stream : RemoteStream) (options : SubscribeOptions) (track : TrackOptions) :
    Prop
  | stream (hk : track.kind = .audio ∨ options.video.rid = "")
      (ho : track.origin = some stream.id) (hr : track.simulcastRid = none)
  | variant {before variant after} (hk : track.kind = .video) (hr : options.video.rid ≠ "")
      (hs : stream.settings.video = before ++ variant :: after)
      (hv : variant.rid = options.video.rid)
      (hb : ∀ earlier ∈ before, earlier.rid ≠ options.video.rid)
      (ho : track.origin = some variant.trackId)
      (hi : track.simulcastRid = some options.video.rid)

section Subscription

variable {stream : RemoteStream} {options : SubscribeOptions}

theorem wantedKinds_eq : wantedKinds stream options =
    MediaKind.wanted (stream.hasAudio && !options.audio.disabled)
      (stream.hasVideo && !options.video.disabled) := rfl

theorem subscribeTrack_kind (withAudio : Bool) (kind : MediaKind) :
    (subscribeTrack stream options withAudio kind).kind = kind := by
  cases kind <;> rfl

theorem subscribeTrack_mid (withAudio : Bool) (kind : MediaKind) :
    (subscribeTrack stream options withAudio kind).mid = mediaLine kind withAudio := by
  cases kind <;> rfl

theorem subscribeRequest_kinds :
    (subscribeRequest stream options).tracks.map (·.kind) = wantedKinds stream options := by
  rw [subscribeRequest, List.map_map]
  exact List.map_id'' (subscribeTrack_kind _) _

theorem subscribeRequest_numbered : (subscribeRequest stream options).Numbered := by
  apply InitOptions.numbered_of_wanted (subscribeRequest_kinds.trans wantedKinds_eq)
  intro track ht
  obtain ⟨kind, _, rfl⟩ := List.mem_map.mp ht
  rw [subscribeTrack_mid, subscribeTrack_kind, wantedKinds_eq, MediaKind.contains_audio_wanted]

/-- An option that names an unknown variant has been turned down before, so none is left out. -/
theorem subscribeTrack_originates
    (ha : options.allowed stream.settings stream.capabilities = true) (withAudio : Bool)
    (kind : MediaKind) :
    Originates stream options (subscribeTrack stream options withAudio kind) := by
  cases kind with
  | audio => exact .stream (Or.inl rfl) rfl rfl
  | video =>
    by_cases hr : options.video.rid = ""
    · refine .stream (Or.inr hr) ?_ ?_
      · simp [subscribeTrack, videoOrigin, hr]
      · simp [subscribeTrack, hr]
    · have hv : (stream.settings.variant? options.video.rid).isSome = true := by
        simpa [SubscribeOptions.allowed, hr] using ha
      obtain ⟨variant, hf⟩ := Option.isSome_iff_exists.mp hv
      obtain ⟨hrid, before, after, hs, hb⟩ := List.find?_eq_some_iff_append.mp hf
      have hid : variant.rid = options.video.rid := by simpa using hrid
      refine .variant rfl hr hs hid (fun earlier he => ?_) ?_ ?_
      · simpa using hb earlier he
      · simp [subscribeTrack, videoOrigin, hr, hf]
      · simp [subscribeTrack, hr]

/-- What an accepted subscription does at once if the connection is open, and what it asks for. -/
theorem Channel.subscribe_effects {c : Channel} {call : CallId}
    (ha : options.allowed stream.settings stream.capabilities = true)
    (hp : c.pending.subscribe = none) (ho : c.isOpen = true) :
    (c.subscribe (some stream) options call).effects =
      ((wantedKinds stream options).map fun kind =>
          .engine (.addTransceiver kind { direction := .recvOnly })) ++
        [.spawn (.requestSubscribe (subscribeRequest stream options) stream.id)] := by
  simp [subscribe, ha, hp, ho]

end Subscription

section Publication

variable (stream : LocalStream) (media : MediaStream)

theorem publishOptions_kinds : (publishOptions stream media).tracks.map (·.kind) =
    MediaKind.wanted (!media.audioTracks.isEmpty) (!media.videoTracks.isEmpty) := by
  cases ha : media.audioTracks <;> cases hv : media.videoTracks <;>
    simp [publishOptions, ha, hv, MediaKind.wanted, TrackOptions.of]

theorem publishOptions_numbered : (publishOptions stream media).Numbered := by
  apply InitOptions.numbered_of_wanted (publishOptions_kinds stream media)
  intro track ht
  rcases List.mem_append.mp ht with ha | hv
  · split at ha
    · obtain rfl := List.mem_singleton.mp ha
      rfl
    · cases ha
  · split at hv
    · cases hv
    · obtain rfl := List.mem_singleton.mp hv
      rfl

theorem Channel.senders_transceivers (c : Channel) :
    transceivers ((c.senders media).map .engine) =
      (media.audioTracks ++ media.videoTracks).map fun track => (track.kind, .sendOnly) := by
  simp [transceivers, senders, Record.transceiver?, List.filterMap_append, Function.comp_def]

theorem Channel.publishConfirmed_prompt {c : Channel} (ho : c.isOpen = true) (ack : InitAck) :
    (c.publishConfirmed media ack).prompt =
      ((c.confirmHandshake ack).senders media).map .engine := by
  simp [publishConfirmed, confirmHandshake, create, Reaction.andThen, ho, Reaction.prompt,
    Effect.prompt?, Function.comp_def]

end Publication

theorem Turn.Accepts.subscribes {turn : Turn} {call : CallId}
    (h : turn.Accepts .subscription call) :
    ∃ stream options, turn.stimulus = .subscribe (some stream) options call ∧
      options.allowed stream.settings stream.capabilities = true ∧
      turn.before.pending.subscribe = none := by
  obtain ⟨ha, hr⟩ := h
  rw [Turn.reaction] at hr
  cases hs : turn.stimulus with
  | subscribe stream options other =>
    rw [hs] at ha hr
    obtain ⟨-, rfl⟩ := Prod.mk.inj (Option.some.inj ha)
    obtain ⟨wanted, rfl, ho, hp, -⟩ := Channel.subscribe_of_requests hr
    exact ⟨wanted, options, rfl, ho, hp⟩
  | _ =>
    rw [hs] at ha
    cases ha

theorem Turn.Accepts.publishes {turn : Turn} {call : CallId}
    (h : turn.Accepts .publication call) :
    ∃ stream media, turn.stimulus = .publish (some stream) call ∧ stream.media = some media ∧
      turn.reaction.handed = [.requestPublish (publishOptions stream media) media] := by
  obtain ⟨ha, hr⟩ := h
  rw [Turn.reaction] at hr ⊢
  cases hs : turn.stimulus with
  | publish stream other =>
    rw [hs] at ha hr
    obtain ⟨-, rfl⟩ := Prod.mk.inj (Option.some.inj ha)
    obtain ⟨wanted, media, rfl, hm, -, hh⟩ := Channel.publish_of_requests hr
    exact ⟨wanted, media, rfl, hm, hh⟩
  | _ =>
    rw [hs] at ha
    cases ha

/-- Whoever acknowledges a request for a publication goes on with its media. -/
theorem Turn.Acknowledges.publishes {own asked : Turn} {id : String} {request : InitOptions}
    {media : MediaStream} (h : own.Acknowledges asked id)
    (hh : asked.reaction.handed = [.requestPublish request media]) :
    own.stimulus.task? = some (.requestPublish request media) ∧
      ∃ ack, own.reaction = own.before.publishConfirmed media ack := by
  obtain ⟨ha, task, hm, ht⟩ := h
  rw [hh] at hm
  obtain rfl := List.mem_singleton.mp hm
  refine ⟨ht, ?_⟩
  unfold Turn.reaction
  cases hs : own.stimulus with
  | answered current task answer =>
    rw [hs] at ha ht
    obtain rfl := Option.some.inj ht
    cases answer with
    | ok reply => exact ⟨reply.acknowledgement, rfl⟩
    | error e => cases ha
  | _ =>
    rw [hs] at ht
    cases ht

namespace Rehearsal

variable (config : ChannelConfig) (usual : Endpoint → Answer) (moves : List Move)
variable {past rest : List Turn}

/--
An accepted subscription on an open connection adds one receive-only transceiver for each track that
it announces to the server, of the same kind and in the same order. The tracks are numbered by their
media lines, and each of them names where it comes from.
-/
theorem play_subscription_announced {turn : Turn} {call : CallId}
    (he : (play config usual moves).history = past ++ turn :: rest)
    (ha : turn.Accepts .subscription call) (ho : turn.before.isOpen = true) :
    ∃ stream options request before after,
      turn.stimulus = .subscribe (some stream) options call ∧
      turn.reaction.asked = turn.reaction.prompt ++ [.request request "" stream.id] ∧
      (play config usual moves).log = before ++ (turn.reaction.prompt ++ after) ∧
      transceivers turn.reaction.prompt =
        request.tracks.map (fun track => (track.kind, .recvOnly)) ∧
      request.Numbered ∧
      (∀ kind, kind ∈ request.tracks.map (·.kind) ↔
        kind = .audio ∧ stream.hasAudio = true ∧ options.audio.disabled = false ∨
          kind = .video ∧ stream.hasVideo = true ∧ options.video.disabled = false) ∧
      ∀ track ∈ request.tracks, Originates stream options track := by
  obtain ⟨stream, options, hs, hallowed, hp⟩ := ha.subscribes
  obtain ⟨before, after, hlog, _⟩ := play_logged config usual moves past turn rest he
  have hf : turn.reaction.effects = _ :=
    (congrArg Reaction.effects (Turn.reaction_eq hs)).trans
      (Channel.subscribe_effects hallowed hp ho)
  have hprompt : turn.reaction.prompt = (wantedKinds stream options).map fun kind =>
      .engine (.addTransceiver kind { direction := .recvOnly }) := by
    rw [Reaction.prompt, hf]
    simp [Effect.prompt?, List.filterMap_append, Function.comp_def]
  have hkinds : (subscribeRequest stream options).tracks.map (·.kind) =
      wantedKinds stream options := subscribeRequest_kinds
  refine ⟨stream, options, subscribeRequest stream options, before, after, hs, ?_, hlog, ?_,
    subscribeRequest_numbered, fun kind => ?_, fun track ht => ?_⟩
  · rw [hprompt, Reaction.asked, hf]
    simp [Effect.record?, Task.record, List.filterMap_append, Function.comp_def]
  · calc transceivers turn.reaction.prompt
        = (wantedKinds stream options).map ((·, Direction.recvOnly)) := by
          rw [hprompt, transceivers, List.filterMap_map]
          exact congrFun List.filterMap_eq_map _
      _ = (subscribeRequest stream options).tracks.map
            (fun track => (track.kind, Direction.recvOnly)) := by
          rw [← hkinds, List.map_map]
          rfl
  · rw [hkinds, wantedKinds_eq, MediaKind.mem_wanted]
    simp
  · obtain ⟨kind, _, rfl⟩ := List.mem_map.mp ht
    exact subscribeTrack_originates hallowed _ kind

/-- A stream whose video is published in several variants, two of them under one `rid`. -/
def simulcast : RemoteStream :=
  { id := "stream", hasAudio := true, hasVideo := true
    settings := { video :=
      [{ rid := "low", trackId := "small" }, { rid := "high", trackId := "large" },
        { rid := "high", trackId := "spare" }] } }

def simulcastSubscription : Rehearsal :=
  play {} (fun _ => acknowledgement "session")
    [.command (.subscribe (some simulcast) { video := { rid := "high" } } { name := "first" })]

theorem simulcastSubscription_announced : ∃ turn request before after,
    simulcastSubscription.history = [] ++ turn :: [] ∧
      turn.reaction.asked = turn.reaction.prompt ++ [.request request "" "stream"] ∧
      simulcastSubscription.log = before ++ (turn.reaction.prompt ++ after) ∧
      transceivers turn.reaction.prompt =
        request.tracks.map (fun track => (track.kind, .recvOnly)) ∧
      request.Numbered ∧ .video ∈ request.tracks.map (·.kind) ∧
      ∀ track ∈ request.tracks, Originates simulcast { video := { rid := "high" } } track := by
  have he : simulcastSubscription.history = [] ++ simulcastSubscription.history[0] :: [] := rfl
  have ha : (simulcastSubscription.history[0]).Accepts .subscription 0 := by decide
  obtain ⟨stream, options, request, before, after, hs, hasked, hlog, ht, hn, hk, ho⟩ :=
    play_subscription_announced {} _ _ he ha rfl
  obtain ⟨hstream, rfl, _⟩ := Stimulus.subscribe.inj hs
  obtain rfl := Option.some.inj hstream
  have hv : .video ∈ request.tracks.map (·.kind) := (hk .video).mpr (Or.inr ⟨rfl, rfl, rfl⟩)
  exact ⟨_, request, before, after, he, hasked, hlog, ht, hn, hv, ho⟩

/--
The request for a publication announces one track of each kind that its media has, numbered by their
media lines; when it is acknowledged on an open connection, one send-only transceiver is added for
each single track. So both agree if and only if the media has one track of each kind at most.
-/
theorem play_publication_announced {asked own : Turn} {since : List Turn} {call : CallId}
    {id : String} (he : (play config usual moves).history = past ++ asked :: (since ++ own :: rest))
    (ha : asked.Accepts .publication call) (hi : own.Acknowledges asked id)
    (ho : own.before.isOpen = true) :
    ∃ stream media request before after,
      asked.stimulus = .publish (some stream) call ∧ stream.media = some media ∧
      asked.reaction.handed = [.requestPublish request media] ∧
      (play config usual moves).log = before ++ (own.reaction.prompt ++ after) ∧
      .request request media.id "" ∈ before ∧
      transceivers own.reaction.prompt =
        (media.audioTracks ++ media.videoTracks).map (fun track => (track.kind, .sendOnly)) ∧
      request.Numbered ∧
      (∀ kind, kind ∈ request.tracks.map (·.kind) ↔
        kind = .audio ∧ media.audioTracks ≠ [] ∨ kind = .video ∧ media.videoTracks ≠ []) ∧
      (transceivers own.reaction.prompt =
          request.tracks.map (fun track => (track.kind, .sendOnly)) ↔
        (media.audioTracks.map (·.kind)).Sublist [.audio] ∧
          (media.videoTracks.map (·.kind)).Sublist [.video]) := by
  obtain ⟨stream, media, hs, hm, hh⟩ := ha.publishes
  obtain ⟨htask, ack, hr⟩ := hi.publishes hh
  have he' : (play config usual moves).history = (past ++ asked :: since) ++ own :: rest := by
    simp [he]
  obtain ⟨before, after, hlog, hb⟩ := play_logged config usual moves _ own rest he'
  have ht : transceivers own.reaction.prompt =
      (media.audioTracks ++ media.videoTracks).map fun track => (track.kind, .sendOnly) := by
    rw [hr, Channel.publishConfirmed_prompt media ho, Channel.senders_transceivers]
  have hk := publishOptions_kinds stream media
  refine ⟨stream, media, publishOptions stream media, before, after, hs, hm, hh, hlog,
    hb _ htask, ht, publishOptions_numbered stream media, fun kind => ?_, ?_⟩
  · rw [hk, MediaKind.mem_wanted]
    simp
  · have hadded : transceivers own.reaction.prompt =
        (media.audioTracks.map (·.kind) ++ media.videoTracks.map (·.kind)).map
          ((·, Direction.sendOnly)) := by
      rw [ht, ← List.map_append, List.map_map]
      rfl
    have hannounced : (publishOptions stream media).tracks.map
        (fun track => (track.kind, Direction.sendOnly)) =
          (MediaKind.wanted (!media.audioTracks.isEmpty) (!media.videoTracks.isEmpty)).map
            ((·, Direction.sendOnly)) := by
      rw [← hk, List.map_map]
      rfl
    have hinj : Function.Injective fun kind : MediaKind => (kind, Direction.sendOnly) :=
      fun _ _ h => (Prod.mk.inj h).1
    have hiff := MediaKind.append_eq_wanted_iff (media.audioTracks.map (·.kind))
      (media.videoTracks.map (·.kind))
    rw [List.isEmpty_map, List.isEmpty_map] at hiff
    rwa [hadded, hannounced, (List.map_injective_iff.mpr hinj).eq_iff]

def camera : LocalStream :=
  { media := some
      { id := "media"
        audioTracks := [{ id := "voice", kind := .audio }]
        videoTracks := [{ id := "picture", kind := .video }] } }

/-- A publication with one track of each kind, until it is acknowledged. -/
def cameraPublication : Rehearsal :=
  play {} (fun _ => acknowledgement "session")
    [.command (.publish (some camera) { name := "first" }), .turn]

theorem cameraPublication_announced : ∃ asked own request before after,
    cameraPublication.history = [] ++ asked :: ([] ++ own :: []) ∧
      cameraPublication.log = before ++ (own.reaction.prompt ++ after) ∧
      .request request "media" "" ∈ before ∧ request.Numbered ∧
      transceivers own.reaction.prompt =
        request.tracks.map (fun track => (track.kind, .sendOnly)) := by
  have he : cameraPublication.history = [] ++ cameraPublication.history[0] ::
      ([] ++ cameraPublication.history[1] :: []) := rfl
  have ha : (cameraPublication.history[0]).Accepts .publication 0 := by decide
  have hi : (cameraPublication.history[1]).Acknowledges cameraPublication.history[0] "session" :=
    ⟨rfl, _, List.mem_cons_self, rfl⟩
  obtain ⟨stream, media, request, before, after, hs, hm, _, hlog, hb, _, hn, _, hiff⟩ :=
    play_publication_announced {} _ _ he ha hi rfl
  obtain ⟨hstream, _⟩ := Stimulus.publish.inj hs
  obtain rfl := Option.some.inj hstream
  obtain rfl := Option.some.inj hm
  exact ⟨_, _, request, before, after, he, hlog, hb, hn, hiff.mpr (by decide)⟩

/-- A publication with two tracks of one kind, until it is acknowledged. -/
def stereoPublication : Rehearsal :=
  play {} (fun _ => acknowledgement "session")
    [.command (.publish
        (some { media := some { id := "media", audioTracks :=
          [{ id := "left", kind := .audio }, { id := "right", kind := .audio }] } })
        { name := "first" }),
      .turn]

/-- Of several tracks of one kind only one is announced, but all of them are added. -/
theorem second_track_unannounced :
    ¬ ∀ (config : ChannelConfig) (usual : Endpoint → Answer) (moves : List Move)
        (past since rest : List Turn) (asked own : Turn) (call : CallId) (id : String)
        (request : InitOptions) (media : MediaStream),
      (play config usual moves).history = past ++ asked :: (since ++ own :: rest) →
      asked.Accepts .publication call → own.Acknowledges asked id →
      own.before.isOpen = true → asked.reaction.handed = [.requestPublish request media] →
      transceivers own.reaction.prompt =
        request.tracks.map (fun track => (track.kind, .sendOnly)) := by
  intro h
  have he : stereoPublication.history = [] ++ stereoPublication.history[0] ::
      ([] ++ stereoPublication.history[1] :: []) := rfl
  have hi : (stereoPublication.history[1]).Acknowledges stereoPublication.history[0] "session" :=
    ⟨rfl, _, List.mem_cons_self, rfl⟩
  have ht := h {} (fun _ => acknowledgement "session") _ _ _ _ _ _ 0 _ _ _ he (by decide) hi rfl rfl
  have hl := congrArg List.length ht
  exact absurd hl (by decide)

end Rehearsal

end MediaSession
