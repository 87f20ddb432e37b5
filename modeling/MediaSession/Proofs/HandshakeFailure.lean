import MediaSession.Proofs.Acceptance
import MediaSession.Proofs.StreamFailure

namespace MediaSession

namespace Channel

variable {c : Channel} {call : CallId}

theorem refuse_not_requests (call : Option CallId) (cause : Cause) :
    ¬ (c.refuse call cause).Requests :=
  (leaves_composes.refuse c call cause).keeps.requests

theorem publish_of_requests {stream : Option LocalStream}
    (h : (c.publish stream call).Requests) :
    ∃ wanted media, stream = some wanted ∧ wanted.media = some media ∧
      (c.publish stream call).channel =
        { c with
          pending := c.pending.awaitPublish call
          published := some wanted
          directions := { audio := .sendOnly, video := .sendOnly }
          negotiation := c.negotiation.advance .invitationSent } ∧
      (c.publish stream call).handed =
        [.requestPublish (publishOptions wanted media) media] := by
  have hr := c.publish_reacts stream call
  generalize c.publish stream call = reaction at h hr
  cases hr with
  | refusesPublish => exact absurd h (refuse_not_requests _ _)
  | publishes hm => exact ⟨_, _, rfl, hm, rfl, by simp [Reaction.handed, Effect.task?]⟩

theorem subscribe_of_requests {stream : Option RemoteStream} {options : SubscribeOptions}
    (h : (c.subscribe stream options call).Requests) :
    ∃ wanted, stream = some wanted ∧
      options.allowed wanted.settings wanted.capabilities = true ∧ c.pending.subscribe = none ∧
      (c.subscribe stream options call).channel =
        { c with
          pending := c.pending.awaitSubscribe call
          latch := {}
          subscribed := some wanted
          directions := { audio := .recvOnly, video := .recvOnly }
          negotiation := c.negotiation.advance .invitationSent } ∧
      (c.subscribe stream options call).handed =
        [.requestSubscribe (subscribeRequest wanted options) wanted.id] := by
  have hr := c.subscribe_reacts stream options call
  generalize c.subscribe stream options call = reaction at h hr
  cases hr with
  | refusesSubscribe => exact absurd h (refuse_not_requests _ _)
  | subscribes ha hb =>
    exact ⟨_, rfl, ha, hb, rfl, by simp [Reaction.handed, Effect.task?, Function.comp_def]⟩

/-- A failed handshake ends the negotiation, whatever its state, and takes the pending failure. -/
theorem handshakeFailed_eq (hp : c.pending.failure = some call) (error : CallError) :
    c.handshakeFailed error =
      { channel := { c with negotiation := .ready, pending := .empty }
        effects := [.post (.failed call error.toChannelError)] } := by
  simp [handshakeFailed, failPending, PendingCalls.takeFailure, hp]

end Channel

/-- An accepted call has recorded its stream and asks the server for a session. -/
theorem Turn.Accepts.records {turn : Turn} {kind : CallKind} {call : CallId}
    (h : turn.Accepts kind call) :
    (∃ stream, turn.stimulus = .publish (some stream) call ∧
        turn.after =
          { turn.before with
            pending := turn.before.pending.awaitPublish call
            published := some stream
            directions := { audio := .sendOnly, video := .sendOnly }
            negotiation := turn.before.negotiation.advance .invitationSent } ∧
        ∃ options media, turn.reaction.handed = [.requestPublish options media]) ∨
      ∃ stream options, turn.stimulus = .subscribe (some stream) options call ∧
        turn.after =
          { turn.before with
            pending := turn.before.pending.awaitSubscribe call
            latch := {}
            subscribed := some stream
            directions := { audio := .recvOnly, video := .recvOnly }
            negotiation := turn.before.negotiation.advance .invitationSent } ∧
        ∃ request id, turn.reaction.handed = [.requestSubscribe request id] := by
  obtain ⟨ha, hr⟩ := h
  unfold Turn.after Turn.reaction at *
  cases hs : turn.stimulus with
  | publish stream other =>
    rw [hs] at ha hr
    obtain ⟨-, rfl⟩ := Prod.mk.inj (Option.some.inj ha)
    obtain ⟨wanted, media, rfl, _, hc, hh⟩ := Channel.publish_of_requests hr
    exact Or.inl ⟨wanted, rfl, hc, _, media, hh⟩
  | subscribe stream options other =>
    rw [hs] at ha hr
    obtain ⟨-, rfl⟩ := Prod.mk.inj (Option.some.inj ha)
    obtain ⟨wanted, rfl, _, _, hc, hh⟩ := Channel.subscribe_of_requests hr
    exact Or.inr ⟨wanted, options, rfl, hc, _, _, hh⟩
  | _ =>
    rw [hs] at ha
    cases ha

namespace Rehearsal

variable (config : ChannelConfig) (usual : Endpoint → Answer) (moves : List Move)
variable {past rest : List Turn} {accepted failed : Turn} {kind : CallKind} {call : CallId}

/--
If the request of an accepted call is answered with an error before anything else happens, the
negotiation is ready again, whatever its state was, and the stream of the call stays recorded. The
other stream, the session and its connection are as they were when the call was made, nothing is
pending, and the call is told the error.
-/
theorem play_handshake_failure
    (he : (play config usual moves).history = past ++ accepted :: failed :: rest)
    (ha : accepted.Accepts kind call) {task : Task} (ht : task ∈ accepted.reaction.handed)
    {current : Option SessionDescription} {error : CallError}
    (hf : failed.stimulus = .answered current task (.error error)) :
    failed.reaction.effects = [.post (.failed call error.toChannelError)] ∧
      ((∃ stream, accepted.stimulus = .publish (some stream) call ∧
          failed.after =
            { accepted.before with
              pending := .empty
              published := some stream
              directions := { audio := .sendOnly, video := .sendOnly }
              negotiation := .ready }) ∨
        ∃ stream options, accepted.stimulus = .subscribe (some stream) options call ∧
          failed.after =
            { accepted.before with
              pending := .empty
              latch := {}
              subscribed := some stream
              directions := { audio := .recvOnly, video := .recvOnly }
              negotiation := .ready }) := by
  have hb : failed.before = accepted.after := by
    have hcourse := (play_chronicle config usual moves).course
    have hnow := hcourse (past ++ [accepted]) failed rest (by simp [he])
    rwa [Channel.now_snoc] at hnow
  have hfailure : accepted.after.pending.failure = some call := ha.registered.2
  have hreaction (hr : accepted.after.answered current task (.error error) =
      accepted.after.handshakeFailed error) : failed.reaction =
        { channel := { accepted.after with negotiation := .ready, pending := .empty }
          effects := [.post (.failed call error.toChannelError)] } := by
    have hm : failed.reaction = failed.before.answered current task (.error error) :=
      Turn.reaction_eq hf
    rw [hm, hb, hr, Channel.handshakeFailed_eq hfailure]
  rcases ha.records with ⟨stream, hs, hc, options, media, hh⟩ |
    ⟨stream, options, hs, hc, request, id, hh⟩
  · rw [hh] at ht
    obtain rfl := List.mem_singleton.mp ht
    have hr := hreaction rfl
    refine ⟨congrArg Reaction.effects hr, Or.inl ⟨stream, hs, ?_⟩⟩
    rw [Turn.after, hr, hc]
  · rw [hh] at ht
    obtain rfl := List.mem_singleton.mp ht
    have hr := hreaction rfl
    refine ⟨congrArg Reaction.effects hr, Or.inr ⟨stream, options, hs, ?_⟩⟩
    rw [Turn.after, hr, hc]

/-- A connected publication, and a subscription that the server turns down. -/
def deniedSubscription : List Turn :=
  (play {} (fun _ => acknowledgement "session")
    [.command (.publish (some microphone) { name := "first" }),
      .turn, .turn, .turn,
      .command (.receive (.text "success")),
      .command (.connectionChanged .connected),
      .command (.plan .request [.answer (.error (.rejected "no room"))]),
      .command (.subscribe (some {}) {} { name := "second" }),
      .turn, .turn, .turn, .turn, .turn]).history

theorem deniedSubscription_recorded : ∃ past accepted failed rest,
    deniedSubscription = past ++ accepted :: failed :: rest ∧
      accepted.Accepts .subscription 1 ∧ accepted.before.negotiation = .connected ∧
      failed.reaction.effects =
        [.post (.failed 1 (.transport "Vom Server abgelehnt: no room"))] ∧
      failed.after.negotiation = .ready ∧ failed.after.subscribed = some ({} : RemoteStream) ∧
      failed.after.published = some microphone ∧ failed.after.session = "session" := by
  have he : deniedSubscription = deniedSubscription.take 6 ++ deniedSubscription[6] ::
      deniedSubscription[7] :: deniedSubscription.drop 8 := rfl
  have ha : (deniedSubscription[6]).Accepts .subscription 1 := by decide
  obtain ⟨ht, hc⟩ := play_handshake_failure {} _ _ he ha (List.mem_singleton_self _) rfl
  rcases hc with ⟨stream, hs, _⟩ | ⟨stream, options, hs, hafter⟩
  · cases hs
  · obtain ⟨hstream, _, _⟩ := Stimulus.subscribe.inj hs
    refine ⟨_, _, _, _, he, ha, rfl, ht, ?_⟩
    rw [hafter, ← hstream]
    exact ⟨rfl, rfl, rfl, rfl⟩

theorem denied_subscription_disturbs :
    ¬ ∀ (config : ChannelConfig) (usual : Endpoint → Answer) (moves : List Move)
        (past rest : List Turn) (accepted failed : Turn) (kind : CallKind) (call : CallId)
        (task : Task) (current : Option SessionDescription) (error : CallError),
      (play config usual moves).history = past ++ accepted :: failed :: rest →
      accepted.Accepts kind call → task ∈ accepted.reaction.handed →
      failed.stimulus = .answered current task (.error error) →
      failed.after.negotiation = accepted.before.negotiation ∧
        failed.after.published = accepted.before.published ∧
        failed.after.subscribed = accepted.before.subscribed := by
  intro h
  have he : deniedSubscription = deniedSubscription.take 6 ++ deniedSubscription[6] ::
      deniedSubscription[7] :: deniedSubscription.drop 8 := rfl
  have ha : (deniedSubscription[6]).Accepts .subscription 1 := by decide
  obtain ⟨hn, _⟩ := h _ _ _ _ _ _ _ _ _ _ _ _ he ha (List.mem_singleton_self _) rfl
  exact absurd hn (by decide)

end Rehearsal

end MediaSession
