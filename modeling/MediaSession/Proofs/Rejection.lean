import MediaSession.Proofs.Notices
import MediaSession.Proofs.TaskFlow

namespace MediaSession

/-- Whether a stimulus is a call that may be turned down on the spot. -/
def Stimulus.isRequest : Stimulus → Bool
  | .publish _ _ => true
  | .subscribe _ _ _ => true
  | .unpublish _ _ => true
  | .unsubscribe _ _ => true
  | .control _ _ _ => true
  | .statistics _ => true
  | _ => false

namespace Channel

/-- The calls that are turned down on the spot, and the error that their failure carries. -/
inductive Rejects (c : Channel) : Stimulus → ChannelError → Prop
  | withoutStream {call} : c.Rejects (.publish none call) Cause.missingStream.error
  | withoutMedia {stream call} (hm : stream.media = none) :
      c.Rejects (.publish (some stream) call) Cause.missingStream.error
  | withoutTracks {stream media call} (hm : stream.media = some media)
      (ht : media.audioTracks ++ media.videoTracks = []) :
      c.Rejects (.publish (some stream) call) Cause.withoutTracks.error
  | withoutLiveTrack {stream media call} (hm : stream.media = some media)
      (ht : media.audioTracks ++ media.videoTracks ≠ [])
      (hl : ∀ track ∈ media.audioTracks ++ media.videoTracks, track.state ≠ .live) :
      c.Rejects (.publish (some stream) call) Cause.endedStream.error
  | withoutRemote {options call} :
      c.Rejects (.subscribe none options call) Cause.missingStream.error
  | notAllowed {stream options call}
      (ho : options.allowed stream.settings stream.capabilities = false) :
      c.Rejects (.subscribe (some stream) options call) Cause.unsupportedOption.error
  | subscribing {stream options call}
      (ho : options.allowed stream.settings stream.capabilities = true)
      (hp : c.pending.subscribe ≠ none) :
      c.Rejects (.subscribe (some stream) options call) Cause.alreadySubscribing.error
  | foreignPublication {session call} (hs : session ≠ c.session) :
      c.Rejects (.unpublish (some session) call) Cause.foreignPublication.error
  | foreignSubscription {session call} (hs : session ≠ c.session) :
      c.Rejects (.unsubscribe (some session) call) Cause.foreignSubscription.error
  | unfinished {session call} (hs : session.getD c.session = c.session)
      (hp : c.pending.subscribe ≠ none) :
      c.Rejects (.unsubscribe session call) Cause.unfinishedSubscription.error
  | controlsNothing {target operation call} (hp : c.published = none) (hs : c.subscribed = none) :
      c.Rejects (.control target operation call) Cause.withoutStream.error
  | measuresNothing {call} (hp : c.published = none) (hs : c.subscribed = none) :
      c.Rejects (.statistics call) Cause.withoutStream.error
  | closed {call} (hs : c.published ≠ none ∨ c.subscribed ≠ none) (ho : c.isOpen = false) :
      c.Rejects (.statistics call) CallError.closed.toChannelError

end Channel

theorem MediaStream.hasTracks_eq_false_iff {media : MediaStream} :
    media.hasTracks = false ↔ media.audioTracks ++ media.videoTracks = [] := by
  simp [hasTracks]

theorem MediaStream.isEnded_iff {media : MediaStream} :
    media.isEnded = true ↔
      ∀ track ∈ media.audioTracks ++ media.videoTracks, track.state ≠ .live := by
  simp [isEnded, MediaTrack.isLive, or_imp, forall_and]

namespace Channel

variable {c : Channel} {stimulus : Stimulus} {error : ChannelError}

/-- A call that is turned down changes nothing and asks nothing; only its failure is posted. -/
theorem Rejects.meet_eq (h : c.Rejects stimulus error) :
    c.meet stimulus =
      { channel := c
        effects := stimulus.call?.toList.map fun call => .post (.failed call error) } := by
  cases h with
  | withoutStream => rfl
  | withoutMedia hm => simp [meet, publish, hm, refuse, Stimulus.call?]
  | withoutTracks hm ht =>
    have hf := MediaStream.hasTracks_eq_false_iff.mpr ht
    simp [meet, publish, hm, hf, refuse, Stimulus.call?]
  | @withoutLiveTrack stream media call hm ht hl =>
    have hf : media.hasTracks = true := by
      rw [← Bool.not_eq_false, MediaStream.hasTracks_eq_false_iff]
      exact ht
    have he := MediaStream.isEnded_iff.mpr hl
    simp [meet, publish, hm, hf, he, refuse, Stimulus.call?]
  | withoutRemote => rfl
  | notAllowed ho => simp [meet, subscribe, ho, refuse, Stimulus.call?]
  | subscribing ho hp =>
    have hp' := Option.isSome_iff_ne_none.mpr hp
    simp [meet, subscribe, ho, hp', refuse, Stimulus.call?]
  | foreignPublication hs => simp [meet, unpublish, hs, refuse, Stimulus.call?]
  | foreignSubscription hs => simp [meet, unsubscribe, hs, refuse, Stimulus.call?]
  | unfinished hs hp =>
    have hp' := Option.isSome_iff_ne_none.mpr hp
    simp [meet, unsubscribe, hs, hp', refuse, Stimulus.call?]
  | controlsNothing hp hs => simp [meet, control, hp, hs, refuse, Stimulus.call?]
  | measuresNothing hp hs => simp [meet, statistics, hp, hs, refuse, Stimulus.call?]
  | closed hs ho =>
    have hs' : (c.published.isNone && c.subscribed.isNone) = false := by
      simpa [Decidable.imp_iff_not_or, Option.isSome_iff_ne_none] using hs
    simp [meet, statistics, hs', ho, Stimulus.call?]

theorem exists_rejects_publish {stream : Option LocalStream} {call : CallId}
    (ha : (c.publish stream call).asked = []) :
    ∃ error, c.Rejects (.publish stream call) error := by
  cases stream with
  | none => exact ⟨_, .withoutStream⟩
  | some stream =>
    cases hm : stream.media with
    | none => exact ⟨_, .withoutMedia hm⟩
    | some media =>
      cases ht : media.hasTracks with
      | false => exact ⟨_, .withoutTracks hm (MediaStream.hasTracks_eq_false_iff.mp ht)⟩
      | true =>
        cases he : media.isEnded with
        | true =>
          have hn : media.audioTracks ++ media.videoTracks ≠ [] := by
            rw [Ne, ← MediaStream.hasTracks_eq_false_iff, ht]
            exact Bool.noConfusion
          exact ⟨_, .withoutLiveTrack hm hn (MediaStream.isEnded_iff.mp he)⟩
        | false => simp [publish, hm, ht, he, Reaction.asked, Effect.record?] at ha

theorem exists_rejects_subscribe {stream : Option RemoteStream} {options : SubscribeOptions}
    {call : CallId} (ha : (c.subscribe stream options call).asked = []) :
    ∃ error, c.Rejects (.subscribe stream options call) error := by
  cases stream with
  | none => exact ⟨_, .withoutRemote⟩
  | some stream =>
    cases ho : options.allowed stream.settings stream.capabilities with
    | false => exact ⟨_, .notAllowed ho⟩
    | true =>
      by_cases hp : c.pending.subscribe = none
      · simp [subscribe, ho, hp, Reaction.asked, Effect.record?] at ha
      · exact ⟨_, .subscribing ho hp⟩

theorem exists_rejects_unpublish {session : Option String} {call : Option CallId}
    (ha : (c.unpublish (session.getD c.session) call).asked = []) :
    ∃ error, c.Rejects (.unpublish session call) error := by
  by_cases hs : session.getD c.session = c.session
  · simp [unpublish, hs, dismantle, Reaction.andThen, Reaction.asked, Effect.record?] at ha
  · cases session with
    | none => exact absurd rfl hs
    | some session => exact ⟨_, .foreignPublication hs⟩

theorem exists_rejects_unsubscribe {session : Option String} {call : Option CallId}
    (ha : (c.unsubscribe (session.getD c.session) call).asked = []) :
    ∃ error, c.Rejects (.unsubscribe session call) error := by
  by_cases hs : session.getD c.session = c.session
  · by_cases hp : c.pending.subscribe = none
    · simp [unsubscribe, hs, hp, dismantle, Reaction.andThen, Reaction.asked, Effect.record?] at ha
    · exact ⟨_, .unfinished hs hp⟩
  · cases session with
    | none => exact absurd rfl hs
    | some session => exact ⟨_, .foreignSubscription hs⟩

theorem exists_rejects_control {target : ControlTarget} {operation : ControlOperation}
    {call : CallId} (ha : (c.control target operation call).asked = []) :
    ∃ error, c.Rejects (.control target operation call) error := by
  by_cases hs : c.published = none ∧ c.subscribed = none
  · exact ⟨_, .controlsNothing hs.1 hs.2⟩
  · simp [control, hs, Reaction.asked, Effect.record?] at ha

theorem exists_rejects_statistics {call : CallId} (ha : (c.statistics call).asked = []) :
    ∃ error, c.Rejects (.statistics call) error := by
  by_cases hs : c.published = none ∧ c.subscribed = none
  · exact ⟨_, .measuresNothing hs.1 hs.2⟩
  · cases ho : c.isOpen with
    | false => exact ⟨_, .closed (not_and_or.mp hs) ho⟩
    | true => simp [statistics, hs, ho, Reaction.asked, Effect.record?] at ha

/-- The calls that ask nothing of the server and the engine are those that are turned down. -/
theorem exists_rejects_iff (h : stimulus.isRequest = true) :
    (∃ error, c.Rejects stimulus error) ↔ (c.meet stimulus).asked = [] := by
  constructor
  · rintro ⟨error, hr⟩
    rw [hr.meet_eq]
    simp [Reaction.asked, Effect.record?]
  · intro ha
    cases stimulus with
    | publish stream call => exact exists_rejects_publish ha
    | subscribe stream options call => exact exists_rejects_subscribe ha
    | unpublish session call => exact exists_rejects_unpublish ha
    | unsubscribe session call => exact exists_rejects_unsubscribe ha
    | control target operation call => exact exists_rejects_control ha
    | statistics call => exact exists_rejects_statistics ha
    | _ => cases h

end Channel

namespace Rehearsal

variable (config : ChannelConfig) (usual : Endpoint → Answer) (moves : List Move)
variable {past rest : List Turn} {turn : Turn} {error : ChannelError}

/--
A call that is turned down on the spot leaves the channel as it is and asks nothing of the server
or the engine. Its own failure is posted, if it has continuations, and nothing else; over the whole
run that is the only notice that the call gets.
-/
theorem play_rejection_atomic
    (he : (play config usual moves).history = past ++ turn :: rest)
    (hr : turn.before.Rejects turn.stimulus error) :
    turn.after = turn.before ∧ turn.reaction.asked = [] ∧
      turn.reaction.effects =
        turn.stimulus.call?.toList.map (fun call => .post (.failed call error)) ∧
      ∀ call, turn.stimulus.call? = some call →
        (delivered (play config usual moves).log ++
            (play config usual moves).notices.waiting).filter
          (fun notice => notice.call? == some call) = [.failed call error] := by
  have hm : turn.reaction = _ := hr.meet_eq
  refine ⟨congrArg Reaction.channel hm, ?_, congrArg Reaction.effects hm, fun call hc => ?_⟩
  · rw [hm]
    simp [Reaction.asked, Effect.record?]
  · rw [(play_announces config usual moves).order]
    refine filter_call_eq_singleton (play_posted_nodup config usual moves) ?_ rfl
    refine List.mem_flatMap.mpr ⟨turn, by simp [he], ?_⟩
    simp [Reaction.posted, hm, hc]

/-- A second subscription while the server takes its time with the first one. -/
def subscribedTwice : Rehearsal :=
  play {} (fun _ => .error .closed)
    [.command (.plan .request [.hold]),
      .command (.subscribe (some {}) {} { name := "first" }),
      .command (.subscribe (some {}) {} { name := "second" }),
      .turn, .turn]

theorem subscribedTwice_rejected : ∃ past turn, subscribedTwice.history = past ++ turn :: [] ∧
    turn.before.Rejects turn.stimulus Cause.alreadySubscribing.error ∧
    turn.after.pending.subscribe = some 0 ∧
    (delivered subscribedTwice.log ++ subscribedTwice.notices.waiting).filter
      (fun notice => notice.call? == some 1) = [.failed 1 Cause.alreadySubscribing.error] := by
  have he : subscribedTwice.history =
      subscribedTwice.history.take 1 ++ subscribedTwice.history[1] :: [] := rfl
  have hr : (subscribedTwice.history[1]).before.Rejects (subscribedTwice.history[1]).stimulus
      Cause.alreadySubscribing.error := .subscribing rfl (by decide)
  obtain ⟨ha, _, _, hn⟩ := play_rejection_atomic {} _ _ he hr
  exact ⟨_, _, he, hr, ha ▸ rfl, hn 1 rfl⟩

end Rehearsal

end MediaSession
