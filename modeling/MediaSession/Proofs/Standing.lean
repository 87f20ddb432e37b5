import MediaSession.Proofs.CandidateFlow
import MediaSession.Proofs.ConnectivityLoss
import MediaSession.Proofs.Dispatch

namespace MediaSession

/-- The session that a call on the server names. -/
@[simp] def Task.session? : Task → Option String
  | .reportEnd _ session _ => some session
  | .control _ session _ _ _ => some session
  | _ => none

/-- The session that an effect names. -/
@[simp] def Effect.session? : Effect → Option String
  | .post (.succeeded _ session) => some session
  | .send envelope => some envelope.id
  | .spawn task => task.session?
  | .proceed task => task.session?
  | _ => none

/-- Whether a description of this side is sent. -/
@[simp] def SignalingPayload.describes : SignalingPayload → Bool
  | .candidate _ => false
  | .removedCandidates _ => false
  | _ => true

/-- Whether an effect belongs to a description of this side: it applies one, sets the limits that
follow, or sends one. -/
@[simp] def Effect.describes : Effect → Bool
  | .send envelope => envelope.signaling.describes
  | .spawn (.setLocal _) => true
  | .proceed (.setLocal _) => true
  | .engine (.setLocal _) => true
  | .engine (.setMaxBitrate _ _) => true
  | _ => false

/-- Whether nobody has begun to negotiate anew, or this side has. -/
def RenegotiationState.IsOwn (state : RenegotiationState) : Prop := state = .none ∨ state = .sent

theorem RenegotiationState.IsOwn.advance {state : RenegotiationState} (h : state.IsOwn)
    {event : RenegotiationEvent} (hr : event ≠ .received) : (state.advance event).IsOwn := by
  rcases h with rfl | rfl <;> cases event <;> simp_all [IsOwn, RenegotiationState.advance, next?]

theorem CandidateBuffer.eq_of_mem_offer {buffer : CandidateBuffer α} {message other : α}
    (h : other ∈ (buffer.offer message).1) : other = message := by
  unfold offer at h
  split at h
  · exact List.mem_singleton.mp h
  · simp at h

/-- Whether the engine reports that the connection stands. -/
def Stimulus.connects : Stimulus → Bool
  | .connectionChanged .connected => true
  | .connectionChanged .completed => true
  | _ => false

namespace Channel

/--
A step that does nothing to the standing of a channel, except that a teardown ends the session and
the negotiation. It names no other session and sends no envelope, and no description of this side is
concerned.
-/
structure Stands (c : Channel) (reaction : Reaction) : Prop where
  config : reaction.channel.config = c.config
  standing : ¬ reaction.Dismantles ∧ reaction.channel.session = c.session ∧
      reaction.channel.negotiation = c.negotiation ∨
    reaction.Dismantles ∧ reaction.channel.session = "" ∧ reaction.channel.negotiation = .ready
  renegotiation : c.renegotiation.IsOwn → reaction.channel.renegotiation.IsOwn
  names : ∀ effect ∈ reaction.effects, ∀ id, effect.session? = some id → id = c.session
  plain : ∀ effect ∈ reaction.effects, effect.describes = false ∧ effect.envelope? = none

/-- The part of the state that a step without a teardown leaves. -/
def standing (c : Channel) : ChannelConfig × String × NegotiationState × RenegotiationState :=
  (c.config, c.session, c.negotiation, c.renegotiation)

theorem not_dismantles {c : Channel} {effects : List Effect}
    (h : ∀ effect ∈ effects, effect.reportsEnd = false) :
    ¬ Reaction.Dismantles { channel := c, effects } := by
  rintro ⟨effect, he, hr⟩
  exact Bool.false_ne_true ((h effect he).symm.trans hr)

theorem Stands.of_own {c c' : Channel} {effects : List Effect} (hg : c'.config = c.config)
    (hs : c'.session = c.session) (hn : c'.negotiation = c.negotiation)
    (hr : c.renegotiation.IsOwn → c'.renegotiation.IsOwn)
    (h : ∀ effect ∈ effects, effect.reportsEnd = false ∧
      (effect.describes = false ∧ effect.envelope? = none) ∧
      ∀ id, effect.session? = some id → id = c.session) :
    c.Stands { channel := c', effects } :=
  ⟨hg, Or.inl ⟨not_dismantles fun effect he => (h effect he).1, hs, hn⟩, hr,
    fun effect he => (h effect he).2.2, fun effect he => (h effect he).2.1⟩

theorem Stands.of_modest {c c' : Channel} {effects : List Effect}
    (hc : c'.standing = c.standing)
    (h : ∀ effect ∈ effects, effect.reportsEnd = false ∧
      (effect.describes = false ∧ effect.envelope? = none) ∧
      ∀ id, effect.session? = some id → id = c.session) :
    c.Stands { channel := c', effects } := by
  simp only [Channel.standing, Prod.mk.injEq] at hc
  obtain ⟨hg, hs, hn, hr⟩ := hc
  exact .of_own hg hs hn (fun ho => hr ▸ ho) h

theorem Stands.of_silent {c c' : Channel} (hc : c'.standing = c.standing) :
    c.Stands { channel := c' } :=
  .of_modest hc (by simp)

theorem Stands.of_standing {c c' : Channel} {reaction : Reaction} (h : c'.Stands reaction)
    (hc : c'.standing = c.standing) : c.Stands reaction := by
  simp only [Channel.standing, Prod.mk.injEq] at hc
  obtain ⟨hg, hs, hn, hr⟩ := hc
  exact ⟨hg ▸ h.config, hs ▸ hn ▸ h.standing, fun ho => h.renegotiation (hr ▸ ho), hs ▸ h.names,
    h.plain⟩

/-- After a teardown the next step names the empty identity, so there must have been no other. -/
theorem Stands.andThen {c : Channel} {reaction : Reaction} {f : Channel → Reaction}
    (h : c.Stands reaction) (hd : reaction.Dismantles → c.session = "")
    (hf : reaction.channel.Stands (f reaction.channel)) : c.Stands (reaction.andThen f) := by
  refine ⟨hf.config.trans h.config, ?_, hf.renegotiation ∘ h.renegotiation, ?_, ?_⟩
  · rcases hf.standing with ⟨hk, hs, hn⟩ | ⟨⟨effect, he, hr⟩, hs, hn⟩
    · rcases h.standing with ⟨hk', hs', hn'⟩ | ⟨⟨effect, he, hr⟩, hs', hn'⟩
      · refine Or.inl ⟨?_, hs.trans hs', hn.trans hn'⟩
        rintro ⟨effect, he, hr⟩
        rcases List.mem_append.mp he with he | he
        · exact hk' ⟨effect, he, hr⟩
        · exact hk ⟨effect, he, hr⟩
      · exact Or.inr ⟨⟨effect, List.mem_append_left _ he, hr⟩, hs.trans hs', hn.trans hn'⟩
    · exact Or.inr ⟨⟨effect, List.mem_append_right _ he, hr⟩, hs, hn⟩
  · intro effect he id hi
    rcases List.mem_append.mp he with he | he
    · exact h.names effect he id hi
    · refine (hf.names effect he id hi).trans ?_
      rcases h.standing with ⟨_, hs, _⟩ | ⟨ht, hs, _⟩
      · exact hs
      · exact hs.trans (hd ht).symm
  · intro effect he
    rcases List.mem_append.mp he with he | he
    · exact h.plain effect he
    · exact hf.plain effect he

variable (c : Channel)

theorem still_stands : c.Stands c.still := .of_silent rfl

theorem refuse_stands (call : Option CallId) (cause : Cause) :
    c.Stands (c.refuse call cause) := .of_modest rfl (by cases call <;> simp)

theorem failPending_stands (error : ChannelError) : c.Stands (c.failPending error) :=
  .of_modest rfl (by cases c.pending.takeFailure.1 <;> simp)

/-- A teardown, whatever stream is forgotten with it. -/
theorem dismantle_stands (event : StreamEvent) (call : Option CallId) {c' : Channel}
    (hc : c'.standing = (c.dismantle event call).channel.standing) :
    c.Stands { channel := c', effects := (c.dismantle event call).effects } := by
  simp only [Channel.standing, dismantle, Prod.mk.injEq] at hc
  obtain ⟨hg, hs, hn, hr⟩ := hc
  refine ⟨hg, Or.inr ⟨⟨_, List.mem_cons_self, rfl⟩, hs, ?_⟩, fun _ => Or.inl ?_, ?_, ?_⟩
  · rw [hn, NegotiationState.advance_ended]
  · rw [hr, RenegotiationState.advance_reset]
  · cases ho : c.isOpen <;> simp [dismantle, ho]
  · cases ho : c.isOpen <;> simp [dismantle, ho]

theorem unpublish_stands (session : String) (call : Option CallId) :
    c.Stands (c.unpublish session call) := by
  by_cases hs : session = c.session
  · rw [hs, unpublish_own]
    exact c.dismantle_stands .unpublish call rfl
  · rw [unpublish, if_pos hs]
    exact c.refuse_stands call _

theorem unsubscribe_stands (session : String) (call : Option CallId) :
    c.Stands (c.unsubscribe session call) := by
  by_cases hs : session = c.session
  · by_cases hp : c.pending.subscribe = none
    · rw [hs, unsubscribe_own hp]
      exact c.dismantle_stands .unsubscribe call rfl
    · rw [unsubscribe, if_neg (not_not_intro hs), if_pos (Option.isSome_iff_ne_none.mpr hp)]
      exact c.refuse_stands call _
  · rw [unsubscribe, if_pos hs]
    exact c.refuse_stands call _

theorem endStreams_stands : c.Stands c.endStreams := by
  by_cases hp : c.published = none
  · by_cases hs : c.subscribed = none
    · have he : c.endStreams = c.still := by simp [endStreams, hp, hs, still, Reaction.andThen]
      exact he ▸ c.still_stands
    · exact endStreams_subscribed hp hs ▸ c.unsubscribe_stands _ none
  · by_cases hs : c.subscribed = none
    · exact endStreams_published hp hs ▸ c.unpublish_stands _ none
    · rw [endStreams_both hp hs]
      by_cases hi : c.session = ""
      · exact (c.unpublish_stands _ none).andThen (fun _ => hi) (unsubscribe_stands _ _ none)
      · -- The end of the publication takes the identity that the subscription is compared with.
        have he : (c.unpublish c.session none).andThen (·.unsubscribe c.session none) =
            c.unpublish c.session none := by
          rw [unpublish_own, Reaction.andThen, unsubscribe_still (Or.inl hi)]
          simp [still]
        rw [he]
        exact c.unpublish_stands _ none

theorem streamFailed_stands (cause : Cause) : c.Stands (c.streamFailed cause) := by
  have hp : ∀ effect ∈ c.observers.map (fun observer =>
      Effect.post (.streamFailed observer c.activeStream cause.error)),
      effect.reportsEnd = false := by simp
  exact Stands.andThen (.of_modest rfl (by simp)) (fun ht => absurd ht (not_dismantles hp))
    (endStreams_stands _)

theorem descriptionFailed_stands (cause : Cause) : c.Stands (c.descriptionFailed cause) := by
  refine (c.failPending_stands cause.error).andThen (fun ht => ?_) (streamFailed_stands _ cause)
  exact absurd ht (not_dismantles (by cases c.pending.takeFailure.1 <;> simp))

theorem handshakeFailed_stands (error : CallError) :
    Stands { c with negotiation := .ready } (c.handshakeFailed error) := by
  unfold handshakeFailed
  rw [NegotiationState.advance_ended]
  exact failPending_stands _ _

theorem restarted_isOwn (ho : c.renegotiation.IsOwn) : c.restarted.IsOwn := by
  unfold restarted
  split
  · exact ho.advance (by decide)
  · exact ho

/-- What a step does to the standing of a channel, and what it says under a session. -/
inductive Fares (c : Channel) (stimulus : Stimulus) (reaction : Reaction) : Prop
  | stands (ha : stimulus.acknowledged? = none) (h : c.Stands reaction)
  | invites (ha : stimulus.acknowledged? = none) (hr : reaction.Requests)
      (h : Stands { c with negotiation := c.negotiation.advance .invitationSent } reaction)
  | confirms {id} (ha : stimulus.acknowledged? = some id)
      (h : Stands
        { c with session := id, negotiation := c.negotiation.advance .handshakeConfirmed } reaction)
      (hn : ∀ effect ∈ reaction.effects, effect.session? = none ∧ effect.reportsEnd = false)
  | denies (ha : stimulus.acknowledged? = none)
      (h : Stands { c with negotiation := .ready } reaction)
  | connects (ha : stimulus.acknowledged? = none) (hs : stimulus.connects = true)
      (h : Stands { c with negotiation := c.negotiation.advance .connected } reaction)
  | routes {c'} {envelopes : List SignalingEnvelope} (ha : stimulus.acknowledged? = none)
      (hr : reaction = { channel := c', effects := envelopes.map .send })
      (hc : c'.standing = c.standing)
      (he : ∀ envelope ∈ envelopes, (Effect.send envelope).candidate? = some envelope)
  | withdraws {removed} (hs : stimulus = .candidatesRemoved removed)
      (hr : reaction =
        { channel := c, effects := [.send (.ofRemoved c.session removed)] })
  | applies {current creation options reply}
      (hs : stimulus = .answered current (.create creation options) (.ok reply))
      (hr : reaction =
        { channel := c
          effects := [.proceed (.setLocal
            { reply.description with sdp := c.preferConfigured reply.description.sdp })] })
  | describes {current description reply}
      (hs : stimulus = .answered current (.setLocal description) (.ok reply))
      (hr : reaction = c.localApplied current)

variable {c} {stimulus : Stimulus} {reaction : Reaction}

theorem Reacts.fares (h : c.Reacts stimulus reaction) (ho : c.Orderly) :
    c.Fares stimulus reaction := by
  cases h with
  | unpublishes => exact .stands rfl (c.unpublish_stands _ _)
  | unsubscribes => exact .stands rfl (c.unsubscribe_stands _ _)
  | drops => exact .stands rfl c.endStreams_stands
  | loses =>
    exact .stands rfl (.of_standing (streamFailed_stands _ .connectivityLost) rfl)
  | failsLocal | failsRemote => exact .stands rfl (c.descriptionFailed_stands _)
  | misreads | fails => exact .stands rfl (c.failPending_stands _)
  | refusesPublish | refusesSubscribe | refusesControl | refusesStatistics =>
    exact .stands rfl (c.refuse_stands _ _)
  | expectsNothing | ignores | knows | wavers | gathers | withdrawsNothing | createsNothing =>
    exact .stands rfl c.still_stands
  | notesRestart | notesServer | notesMedia | attaches | enrols | dismisses | suspends =>
    exact .stands rfl (.of_silent rfl)
  | publishes => exact .invites rfl ⟨_, List.mem_cons_self, rfl⟩ (.of_modest rfl (by simp))
  | subscribes =>
    exact .invites rfl ⟨_, List.mem_append_right _ List.mem_cons_self, rfl⟩
      (.of_modest rfl (by simp [or_imp, forall_and]))
  | restarts | restartsLate =>
    exact .stands rfl (.of_own rfl rfl rfl c.restarted_isOwn (by simp))
  | renews =>
    exact .stands rfl (.of_own rfl rfl rfl (fun hr => hr.advance (by decide)) (by simp))
  | releases => exact .routes rfl rfl rfl ho.candidates
  | finds he =>
    refine .routes rfl rfl rfl fun envelope hm => ?_
    rw [CandidateBuffer.eq_of_mem_offer hm, he]
    rfl
  | withdraws => exact .withdraws rfl rfl
  | connects hs =>
    exact .connects rfl (by rcases hs with rfl | rfl <;> rfl) (.of_modest rfl (by simp))
  | confirmsPublish hc =>
    refine .confirms rfl (.of_modest rfl ?_) ?_ <;> cases hopen : c.isOpen <;>
      simp [hc, hopen, senders, or_imp, forall_and]
  | confirmsSubscribe => exact .confirms rfl (.of_modest rfl (by simp)) (by simp)
  | deniesPublish | deniesSubscribe => exact .denies rfl (c.handshakeFailed_stands _)
  | applies => exact .applies rfl rfl
  | limits | describes => exact .describes rfl rfl
  | _ => exact .stands rfl (.of_modest rfl (by simp))

theorem meet_fares (ho : c.Orderly) (stimulus : Stimulus) :
    c.Fares stimulus (c.meet stimulus) :=
  (c.meet_reacts stimulus).fares ho

end Channel

end MediaSession
