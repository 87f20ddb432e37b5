import MediaSession.Proofs.EngineUse
import MediaSession.Proofs.Notices
import MediaSession.Proofs.SessionEnds

namespace MediaSession

@[simp] theorem NegotiationState.advance_ended (state : NegotiationState) :
    state.advance .ended = .ready := by
  cases state <;> rfl

@[simp] theorem RenegotiationState.advance_reset (state : RenegotiationState) :
    state.advance .reset = .none := by
  cases state <;> rfl

/-- The observers that are registered after these steps, in the order of their registration. -/
def enrolled (past : List Turn) : List ObserverId :=
  past.foldl (fun observers turn => turn.stimulus.enrolled observers) []

theorem enrolled_snoc (past : List Turn) (turn : Turn) :
    enrolled (past ++ [turn]) = turn.stimulus.enrolled (enrolled past) := by
  simp [enrolled]

theorem Stimulus.enrolled_nodup {stimulus : Stimulus} {observers : List ObserverId}
    (h : observers.Nodup) : (stimulus.enrolled observers).Nodup := by
  cases stimulus with
  | addObserver observer =>
    simp only [enrolled]
    split
    next => exact h
    next hn =>
      refine List.nodup_append.mpr ⟨h, by simp, ?_⟩
      rintro other ho new hm rfl
      exact hn (List.mem_singleton.mp hm ▸ ho)
  | removeObserver observer => exact h.filter _
  | _ => exact h

theorem enrolled_nodup (past : List Turn) : (enrolled past).Nodup := by
  induction past using List.reverseRecOn with
  | nil => exact List.nodup_nil
  | append_singleton past turn ih => exact enrolled_snoc past turn ▸ Stimulus.enrolled_nodup ih

theorem Course.observers {config : ChannelConfig} {past : List Turn} (h : Course config past) :
    (Channel.now config past).observers = enrolled past := by
  refine h.induction (P := fun past c => c.observers = enrolled past) rfl fun past turn ho => ?_
  rw [enrolled_snoc, ← ho]
  exact turn.before.meet_observers turn.stimulus

namespace Channel

/-- The only active stream, and the event by which the server learns of its end. -/
inductive Sole (c : Channel) : ActiveStream → StreamEvent → Prop
  | published {stream} (hp : c.published = some stream) (hs : c.subscribed = none) :
      c.Sole (.published stream) .unpublish
  | subscribed {stream} (hp : c.published = none) (hs : c.subscribed = some stream) :
      c.Sole (.subscribed stream) .unsubscribe

/-- A channel that has neither a stream nor a session nor a connection, and awaits nothing. -/
structure Cleared (c : Channel) : Prop where
  published : c.published = none
  subscribed : c.subscribed = none
  pending : c.pending = .empty
  session : c.session = ""
  isOpen : c.isOpen = false
  negotiation : c.negotiation = .ready
  renegotiation : c.renegotiation = .none
  isConnected : c.isConnected = false
  latch : c.latch = {}
  candidates : c.candidates.waiting = []

variable {c : Channel}

theorem unpublish_own (call : Option CallId) :
    c.unpublish c.session call =
      { channel := { (c.dismantle .unpublish call).channel with published := none }
        effects := (c.dismantle .unpublish call).effects } := by
  simp [unpublish, Reaction.andThen]

theorem unsubscribe_own (hp : c.pending.subscribe = none) (call : Option CallId) :
    c.unsubscribe c.session call =
      { channel := { (c.dismantle .unsubscribe call).channel with subscribed := none }
        effects := (c.dismantle .unsubscribe call).effects } := by
  simp [unsubscribe, hp, Reaction.andThen]

theorem endStreams_published (hp : c.published ≠ none) (hs : c.subscribed = none) :
    c.endStreams = c.unpublish c.session none := by
  have hp' := Option.isSome_iff_ne_none.mpr hp
  rw [unpublish_own]
  simp [endStreams, unpublish_own, hp', hs, dismantle, still, Reaction.andThen]

theorem endStreams_subscribed (hp : c.published = none) (hs : c.subscribed ≠ none) :
    c.endStreams = c.unsubscribe c.session none := by
  have hs' := Option.isSome_iff_ne_none.mpr hs
  simp [endStreams, hp, hs', still, Reaction.andThen]

theorem endStreams_of_sole {stream : ActiveStream} {event : StreamEvent} (h : c.Sole stream event)
    (hp : c.pending = .empty) :
    c.endStreams.channel.Cleared ∧ c.endStreams.effects = (c.dismantle event none).effects := by
  cases h with
  | published hs hn =>
    rw [endStreams_published (by simp [hs]) hn, unpublish_own]
    exact ⟨⟨rfl, hn, hp, rfl, rfl, c.negotiation.advance_ended, c.renegotiation.advance_reset, rfl,
      rfl, rfl⟩, rfl⟩
  | subscribed hn hs =>
    have hq : c.pending.subscribe = none := by rw [hp]; rfl
    rw [endStreams_subscribed hn (by simp [hs]), unsubscribe_own hq]
    exact ⟨⟨hn, rfl, hp, rfl, rfl, c.negotiation.advance_ended, c.renegotiation.advance_reset, rfl,
      rfl, rfl⟩, rfl⟩

theorem dismantle_asked (event : StreamEvent) (call : Option CallId) :
    (c.dismantle event call).asked =
      .reportEnd event c.session :: if c.isOpen then [.engine .close] else [] := by
  cases ho : c.isOpen <;> simp [Reaction.asked, dismantle, ho, Effect.record?, Task.record]

theorem dismantle_posted (event : StreamEvent) (call : Option CallId) :
    (c.dismantle event call).posted = [] := by
  cases ho : c.isOpen <;> simp [Reaction.posted, dismantle, ho]

theorem Sole.activeStream {stream : ActiveStream} {event : StreamEvent}
    (h : c.Sole stream event) : c.activeStream = some stream := by
  cases h with
  | published hs _ => simp [Channel.activeStream, hs]
  | subscribed hn hs => simp [Channel.activeStream, hn, hs]

theorem descriptionFailed_of_sole {stream : ActiveStream} {event : StreamEvent}
    (h : c.Sole stream event) (cause : Cause) :
    (c.descriptionFailed cause).channel.Cleared ∧
      (c.descriptionFailed cause).effects =
        c.pending.failure.toList.map (fun call => .post (.failed call cause.error)) ++
          (c.observers.map (fun observer =>
              .post (.streamFailed observer (some stream) cause.error)) ++
            (c.dismantle event none).effects) := by
  -- The pending calls are given up first, so that no guard keeps the stream.
  have h' : Sole { c with pending := .empty } stream event := by
    cases h with
    | published hs hn => exact .published hs hn
    | subscribed hn hs => exact .subscribed hn hs
  obtain ⟨hc, he⟩ := endStreams_of_sole h' rfl
  refine ⟨hc, ?_⟩
  simp only [descriptionFailed, failPending, streamFailed, Reaction.andThen,
    PendingCalls.takeFailure, h'.activeStream, he]
  rfl

end Channel

namespace Rehearsal

variable (config : ChannelConfig) (usual : Endpoint → Answer) (moves : List Move)
variable {past rest : List Turn} {turn : Turn}

/--
If a description cannot be applied and one stream is active, the pending failure is posted first,
then each observer is told of the stream, once and in the order of registration. The server is told
the end of the stream under the session of before, and nothing is left of the session.
-/
theorem play_description_failure
    (he : (play config usual moves).history = past ++ turn :: rest)
    {current : Option SessionDescription} {task : Task} {error : CallError} {text : String}
    (ht : turn.stimulus = .answered current task (.error error))
    (hx : (∃ description, task = .setLocal description ∧
        text = "Failed to set local description.") ∨
      ∃ description, task = .setRemote description ∧
        text = "Failed to set remote description.")
    {stream : ActiveStream} {event : StreamEvent} (hs : turn.before.Sole stream event) :
    delivered (play config usual moves).log ++ (play config usual moves).notices.waiting =
        posted past ++
          (turn.before.pending.failure.toList.map (.failed · (.negotiation text)) ++
            (enrolled past).map (.streamFailed · (some stream) (.negotiation text))) ++
          posted rest ∧
      (enrolled past).Nodup ∧
      turn.reaction.asked = .reportEnd event turn.before.session ::
        (if turn.before.isOpen then [.engine .close] else []) ∧
      turn.after.Cleared := by
  obtain ⟨cause, hr, hc⟩ : ∃ cause, turn.reaction = turn.before.descriptionFailed cause ∧
      cause.error = .negotiation text := by
    rcases hx with ⟨description, rfl, rfl⟩ | ⟨description, rfl, rfl⟩
    · exact ⟨.localDescription, Turn.reaction_eq ht, rfl⟩
    · exact ⟨.remoteDescription, Turn.reaction_eq ht, rfl⟩
  obtain ⟨hcleared, heffects⟩ := Channel.descriptionFailed_of_sole hs cause
  rw [← hr] at hcleared heffects
  have ho : turn.before.observers = enrolled past := by
    have hcourse := (play_chronicle config usual moves).course
    rw [he] at hcourse
    exact hcourse.before ▸ hcourse.left.observers
  have hp : turn.reaction.posted =
      turn.before.pending.failure.toList.map (.failed · (.negotiation text)) ++
        (enrolled past).map (.streamFailed · (some stream) (.negotiation text)) := by
    have hd := turn.before.dismantle_posted event none
    rw [Reaction.posted] at hd
    rw [Reaction.posted, heffects, ho, hc]
    simp [hd, Function.comp_def]
  refine ⟨?_, enrolled_nodup past, ?_, hcleared⟩
  · rw [(play_announces config usual moves).order, he, ← hp]
    simp [posted]
  · rw [← Channel.dismantle_asked event none, Reaction.asked, heffects, List.filterMap_append,
      List.filterMap_append, filterMap_map_none fun _ => rfl, filterMap_map_none fun _ => rfl]
    rfl

/-- The engine refuses to apply the offer of a publication that an observer watches. -/
def refusedOffer : Rehearsal :=
  play {} (fun endpoint =>
      if endpoint = .setLocal then .error .closed else acknowledgement "session")
    [.command (.addObserver "watcher" []),
      .command (.publish (some microphone) { name := "first" }),
      .turn, .turn, .turn]

/-- The engine refuses to apply the answer to a subscription, before there is an offer. -/
def refusedAnswer : Rehearsal :=
  play {} (fun endpoint =>
      if endpoint = .setRemote then .error .closed else acknowledgement "session")
    [.command (.addObserver "watcher" []),
      .command (.plan .createOffer [.hold]),
      .command (.subscribe (some {}) {} { name := "second" }),
      .turn,
      .command (.receive (.record [("type", .text "answer"), ("sdp", .text "v=0")])),
      .turn, .turn]

theorem refusedDescription_cleared :
    (∃ past turn, refusedOffer.history = past ++ turn :: [] ∧
      turn.before.session = "session" ∧ turn.before.pending.failure = some 0 ∧
      delivered refusedOffer.log ++ refusedOffer.notices.waiting =
        [.failed 0 (.negotiation "Failed to set local description."),
          .streamFailed "watcher" (some (.published microphone))
            (.negotiation "Failed to set local description.")] ∧
      turn.reaction.asked = [.reportEnd .unpublish "session", .engine .close] ∧
      turn.after.Cleared) ∧
    ∃ past turn, refusedAnswer.history = past ++ turn :: [] ∧
      turn.before.session = "session" ∧ turn.before.pending.subscribe = some 0 ∧
      delivered refusedAnswer.log ++ refusedAnswer.notices.waiting =
        [.failed 0 (.negotiation "Failed to set remote description."),
          .streamFailed "watcher" (some (.subscribed {}))
            (.negotiation "Failed to set remote description.")] ∧
      turn.reaction.asked = [.reportEnd .unsubscribe "session", .engine .close] ∧
      turn.after.Cleared := by
  constructor
  · have he : refusedOffer.history =
        refusedOffer.history.take 4 ++ refusedOffer.history[4] :: [] := rfl
    have hs : (refusedOffer.history[4]).before.Sole (.published microphone) .unpublish :=
      .published rfl rfl
    obtain ⟨hp, _, ha, hc⟩ :=
      play_description_failure {} _ _ he rfl (Or.inl ⟨_, rfl, rfl⟩) hs
    exact ⟨_, _, he, rfl, rfl, hp, ha, hc⟩
  · have he : refusedAnswer.history =
        refusedAnswer.history.take 4 ++ refusedAnswer.history[4] :: [] := rfl
    have hs : (refusedAnswer.history[4]).before.Sole (.subscribed {}) .unsubscribe :=
      .subscribed rfl rfl
    obtain ⟨hp, _, ha, hc⟩ :=
      play_description_failure {} _ _ he rfl (Or.inr ⟨_, rfl, rfl⟩) hs
    exact ⟨_, _, he, rfl, rfl, hp, ha, hc⟩

end Rehearsal

end MediaSession
