import MediaSession.Proofs.StreamFailure

namespace MediaSession

namespace Channel

/-- Whether the stream is active whose end this event reports. -/
def Active (c : Channel) : StreamEvent → Prop
  | .unpublish => c.published ≠ none
  | .unsubscribe => c.subscribed ≠ none

/-- A channel without streams, session and connection, whose active streams have been reported
under the session that was there before. -/
structure Ends (c : Channel) (reaction : Reaction) : Prop where
  published : reaction.channel.published = none
  subscribed : reaction.channel.subscribed = none
  session : reaction.channel.session = ""
  isOpen : reaction.channel.isOpen = false
  reported : ∀ event, c.Active event → .reportEnd event c.session ∈ reaction.asked

variable {c : Channel}

theorem dismantle_reports (event : StreamEvent) (call : Option CallId) :
    .reportEnd event c.session ∈ (c.dismantle event call).asked := by
  rw [dismantle_asked]
  exact List.mem_cons_self

theorem unsubscribe_still {session : String}
    (h : session ≠ c.session ∨ c.pending.subscribe ≠ none) :
    c.unsubscribe session none = c.still := by
  unfold unsubscribe
  split
  next => rfl
  next hs =>
    have hp := Option.isSome_iff_ne_none.mpr (h.resolve_left hs)
    rw [if_pos hp]
    rfl

theorem endStreams_both (hp : c.published ≠ none) (hs : c.subscribed ≠ none) :
    c.endStreams = (c.unpublish c.session none).andThen (·.unsubscribe c.session none) := by
  have hp' := Option.isSome_iff_ne_none.mpr hp
  have hs' := Option.isSome_iff_ne_none.mpr hs
  simp [endStreams, unpublish_own, hp', hs', dismantle, Reaction.andThen]

theorem endStreams_ends_of_published (hp : c.published ≠ none) (hs : c.subscribed = none) :
    c.Ends c.endStreams := by
  rw [endStreams_published hp hs, unpublish_own]
  refine ⟨rfl, hs, rfl, rfl, fun event ha => ?_⟩
  cases event with
  | unpublish => exact c.dismantle_reports _ none
  | unsubscribe => exact absurd hs ha

theorem endStreams_ends_of_subscribed (hp : c.published = none) (hs : c.subscribed ≠ none)
    (hq : c.pending.subscribe = none) : c.Ends c.endStreams := by
  rw [endStreams_subscribed hp hs, unsubscribe_own hq]
  refine ⟨hp, rfl, rfl, rfl, fun event ha => ?_⟩
  cases event with
  | unpublish => exact absurd hp ha
  | unsubscribe => exact c.dismantle_reports _ none

/-- Both streams end only if the session has no identity that the first teardown would forget. -/
theorem endStreams_ends_of_both (hp : c.published ≠ none) (hs : c.subscribed ≠ none)
    (hq : c.pending.subscribe = none) (hi : c.session = "") : c.Ends c.endStreams := by
  have he : c.endStreams =
      { channel :=
          { (c.dismantle .unpublish none).channel with published := none, subscribed := none }
        effects := (c.dismantle .unpublish none).effects ++
          [.spawn (.reportEnd .unsubscribe c.session none)] } := by
    rw [endStreams_both hp hs, unpublish_own]
    simp [unsubscribe, dismantle, Reaction.andThen, CandidateBuffer.clear, hi, hq]
  rw [he]
  refine ⟨rfl, rfl, rfl, rfl, fun event _ => ?_⟩
  have ha : Reaction.asked { channel := c, effects := (c.dismantle .unpublish none).effects ++
      [.spawn (.reportEnd .unsubscribe c.session none)] } =
      (c.dismantle .unpublish none).asked ++ [.reportEnd .unsubscribe c.session] :=
    List.filterMap_append
  cases event with
  | unpublish => exact ha ▸ List.mem_append_left _ (c.dismantle_reports _ none)
  | unsubscribe => exact ha ▸ List.mem_append_right _ List.mem_cons_self

theorem endStreams_keeps_subscribed (hs : c.subscribed ≠ none)
    (h : c.pending.subscribe ≠ none ∨ c.published ≠ none ∧ c.session ≠ "") :
    c.endStreams.channel.subscribed = c.subscribed := by
  by_cases hp : c.published = none
  · rw [endStreams_subscribed hp hs]
    rw [unsubscribe_still (Or.inr (h.resolve_right fun hn => hn.1 hp))]
    rfl
  · have hu : (c.unpublish c.session none).channel.session = "" ∧
        (c.unpublish c.session none).channel.pending = c.pending ∧
        (c.unpublish c.session none).channel.subscribed = c.subscribed := by
      rw [unpublish_own]
      exact ⟨rfl, rfl, rfl⟩
    have hr : (c.unpublish c.session none).channel.unsubscribe c.session none =
        (c.unpublish c.session none).channel.still := by
      refine unsubscribe_still ?_
      rw [hu.1, hu.2.1]
      exact h.symm.imp_left And.right
    rw [endStreams_both hp hs, Reaction.andThen, hr]
    exact hu.2.2

/-- All active streams end if no guard of the unsubscription stands in the way. -/
theorem endStreams_ends_iff (h : c.published ≠ none ∨ c.subscribed ≠ none) :
    c.Ends c.endStreams ↔ (c.subscribed ≠ none →
      c.pending.subscribe = none ∧ (c.published ≠ none → c.session = "")) := by
  constructor
  · intro he hs
    by_contra hn
    refine hs ((endStreams_keeps_subscribed hs ?_).symm.trans he.subscribed)
    simpa only [not_and_or, Classical.not_imp] using hn
  · intro hall
    by_cases hs : c.subscribed = none
    · exact endStreams_ends_of_published (h.resolve_right (not_not_intro hs)) hs
    · by_cases hp : c.published = none
      · exact endStreams_ends_of_subscribed hp hs (hall hs).1
      · exact endStreams_ends_of_both hp hs (hall hs).1 ((hall hs).2 hp)

theorem streamFailed_asked (c : Channel) (cause : Cause) :
    (c.streamFailed cause).asked = c.endStreams.asked := by
  rw [streamFailed, Reaction.asked, Reaction.andThen, List.filterMap_append,
    filterMap_map_none fun _ => rfl]
  rfl

/--
When the connectivity is lost all active streams end and no call stays pending if and only if no
call was pending, and the session, if both streams were active, had no identity: the error path
gives up no pending call, and the end of the publication forgets the identity that the end of the
subscription is then compared with.
-/
theorem connectionChanged_failed_iff (hc : c.isConnected = true)
    (h : c.published ≠ none ∨ c.subscribed ≠ none) :
    c.Ends (c.connectionChanged .failed) ∧
        (c.connectionChanged .failed).channel.pending = .empty ↔
      c.pending = .empty ∧ (c.published ≠ none → c.subscribed ≠ none → c.session = "") := by
  have hr : c.connectionChanged .failed =
      Channel.streamFailed { c with isConnected := false } .connectivityLost := by
    simp [connectionChanged, hc]
  have hp : (c.connectionChanged .failed).channel.pending = c.pending := by
    rw [hr]
    exact (leaves_composes.streamFailed _ .connectivityLost).pending
  have he : c.Ends (c.connectionChanged .failed) ↔ (c.subscribed ≠ none →
      c.pending.subscribe = none ∧ (c.published ≠ none → c.session = "")) := by
    have ha := streamFailed_asked { c with isConnected := false } .connectivityLost
    have hi := endStreams_ends_iff (c := { c with isConnected := false }) h
    rw [hr]
    refine Iff.trans ⟨fun hk => ?_, fun hk => ?_⟩ hi
    · exact ⟨hk.published, hk.subscribed, hk.session, hk.isOpen, ha ▸ hk.reported⟩
    · exact ⟨hk.published, hk.subscribed, hk.session, hk.isOpen, ha.symm ▸ hk.reported⟩
  rw [he, hp]
  constructor
  · rintro ⟨hs, hq⟩
    exact ⟨hq, fun hp hn => (hs hn).2 hp⟩
  · rintro ⟨hq, hs⟩
    exact ⟨fun hn => ⟨hq ▸ rfl, fun hp => hs hp hn⟩, hq⟩

end Channel

namespace Rehearsal

/-- A publication that the server has accepted, until the connectivity is lost. -/
def lostPublication : List Turn :=
  (play {} (fun _ => acknowledgement "session")
    [.command (.publish (some microphone) { name := "first" }),
      .turn,
      .command (.receive (.text "success")),
      .command (.connectionChanged .connected),
      .command (.connectionChanged .failed)]).history

theorem lostPublication_ends : ∃ past turn, lostPublication = past ++ turn :: [] ∧
    turn.stimulus = .connectionChanged .failed ∧ turn.before.session = "session" ∧
    turn.before.Ends turn.reaction ∧ turn.after.pending = .empty := by
  have he : lostPublication = lostPublication.take 4 ++ lostPublication[4] :: [] := rfl
  have hp : (lostPublication[4]).before.published ≠ none := Option.some_ne_none microphone
  obtain ⟨hk, hq⟩ := (Channel.connectionChanged_failed_iff
    (c := (lostPublication[4]).before) rfl (Or.inl hp)).mpr ⟨rfl, fun _ hn => absurd rfl hn⟩
  exact ⟨_, _, he, rfl, rfl, hk, hq⟩

/-- A publication and a subscription are set up, each with a session of its own. -/
def settingUpPair : List Move :=
  [.command (.plan .request
      [.answer (acknowledgement "first"), .answer (acknowledgement "second")]),
    .command (.plan .createOffer [.hold, .hold]),
    .command (.publish (some microphone) { name := "first" }),
    .turn, .turn,
    .command (.receive (.text "success")),
    .turn,
    .command (.subscribe (some {}) {} { name := "second" }),
    .turn, .turn,
    .command (.streamAdded { id := "media" }),
    .command (.receive (.text "success"))]

/-- Both streams are set up when the connectivity is lost. -/
def lostPair : List Turn :=
  (play {} (fun _ => .error .closed)
    (settingUpPair ++
      [.command (.connectionChanged .connected), .command (.connectionChanged .failed)])).history

theorem lost_subscription_remains :
    ¬ ∀ (config : ChannelConfig) (usual : Endpoint → Answer) (moves : List Move)
        (past rest : List Turn) (turn : Turn),
      (play config usual moves).history = past ++ turn :: rest →
      turn.stimulus = .connectionChanged .failed → turn.before.isConnected = true →
      turn.before.published ≠ none ∨ turn.before.subscribed ≠ none →
      turn.before.Ends turn.reaction ∧ turn.after.pending = .empty := by
  intro h
  have he : lostPair = lostPair.take 8 ++ lostPair[8] :: [] := rfl
  have hs : (lostPair[8]).before.subscribed ≠ none := by decide
  obtain ⟨hk, _⟩ := h _ _ _ _ _ _ he rfl rfl (Or.inr hs)
  have hc : (lostPair[8]).after.subscribed ≠ none := by decide
  exact hc hk.subscribed

end Rehearsal

end MediaSession
