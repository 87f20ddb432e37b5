import MediaSession.Proofs.SessionCourse

namespace MediaSession

/-- What has to happen one after the other until a negotiation is connected. -/
inductive Milestone where
  | invitation
  | acknowledgement
  | connection
  deriving DecidableEq

/-- What has happened since the negotiation was ready. -/
def NegotiationState.milestones : NegotiationState → List Milestone
  | .ready => []
  | .offered => [.invitation]
  | .pending => []
  | .matched => [.invitation, .acknowledgement]
  | .connecting => [.invitation, .acknowledgement]
  | .connected => [.invitation, .acknowledgement, .connection]

def NegotiationEvent.milestone? : NegotiationEvent → Option Milestone
  | .invitationSent => some .invitation
  | .handshakeConfirmed => some .acknowledgement
  | .connected => some .connection
  | _ => none

/-- The events that come from the other side, and that no step brings about. -/
def NegotiationEvent.isForeign : NegotiationEvent → Bool
  | .invitationReceived => true
  | .accepted => true
  | _ => false

namespace NegotiationState

variable {state : NegotiationState} {event : NegotiationEvent}

/-- An event adds its milestone at the end, or it is of no consequence, or it begins anew. -/
theorem milestones_advance (state : NegotiationState) (h : event.isForeign = false) :
    (state.advance event).milestones = state.milestones ∨ (state.advance event).milestones = [] ∨
      ∃ milestone, event.milestone? = some milestone ∧
        (state.advance event).milestones = state.milestones ++ [milestone] := by
  cases state <;> cases event <;>
    simp_all [NegotiationEvent.isForeign, NegotiationEvent.milestone?, advance, next?, milestones]

theorem advance_ne_pending (h : event.isForeign = false) (hs : state ≠ .pending) :
    state.advance event ≠ .pending := by
  cases state <;> cases event <;> simp_all [NegotiationEvent.isForeign, advance, next?]

/-- Only an acknowledgement leads to a state in which it has been met. -/
theorem acknowledged_of_advance (h : event.isForeign = false) (he : event ≠ .handshakeConfirmed)
    (hm : .acknowledgement ∈ (state.advance event).milestones) :
    .acknowledgement ∈ state.milestones := by
  cases state <;> cases event <;>
    simp_all [NegotiationEvent.isForeign, advance, next?, milestones]

end NegotiationState

/-- Whether a step is one in which this happens. A request counts as sent when it is handed out. -/
def Turn.Passes (turn : Turn) : Milestone → Prop
  | .invitation => turn.reaction.Requests
  | .acknowledgement => turn.stimulus.acknowledged? ≠ none
  | .connection => turn.stimulus.connects = true

/-- The milestones have been passed in this order. -/
def Passed (since : List Turn) (milestones : List Milestone) : Prop :=
  ∃ turns, turns.Sublist since ∧ List.Forall₂ Turn.Passes turns milestones

theorem Passed.nil (since : List Turn) : Passed since [] := ⟨[], List.nil_sublist since, .nil⟩

theorem Passed.later {since : List Turn} {milestones : List Milestone}
    (h : Passed since milestones) (turn : Turn) : Passed (since ++ [turn]) milestones := by
  obtain ⟨turns, hs, hm⟩ := h
  exact ⟨turns, hs.trans (List.sublist_append_left since [turn]), hm⟩

theorem Passed.snoc {since : List Turn} {milestones : List Milestone}
    (h : Passed since milestones) {turn : Turn} {milestone : Milestone}
    (ht : turn.Passes milestone) : Passed (since ++ [turn]) (milestones ++ [milestone]) := by
  obtain ⟨turns, hs, hm⟩ := h
  exact ⟨turns ++ [turn], hs.append (List.Sublist.refl [turn]),
    List.rel_append hm (.cons ht .nil)⟩

/-- An event that a step brings about: it comes from this side, and with its milestone. -/
structure Turn.Brings (turn : Turn) (event : NegotiationEvent) : Prop where
  own : event.isForeign = false
  passes : ∀ milestone, event.milestone? = some milestone → turn.Passes milestone

theorem Passed.advance {since : List Turn} {state : NegotiationState} {event : NegotiationEvent}
    {turn : Turn} (h : Passed since state.milestones) (hb : turn.Brings event) :
    Passed (since ++ [turn]) (state.advance event).milestones := by
  rcases state.milestones_advance hb.own with hm | hm | ⟨milestone, he, hm⟩
  · exact hm ▸ h.later turn
  · exact hm ▸ .nil _
  · exact hm ▸ h.snoc (hb.passes milestone he)

theorem Channel.Stands.negotiation {c : Channel} {reaction : Reaction} (h : c.Stands reaction) :
    reaction.channel.negotiation = c.negotiation ∨ reaction.channel.negotiation = .ready :=
  h.standing.imp (·.2.2) (·.2.2)

theorem Channel.localApplied_negotiation (c : Channel) (current : Option SessionDescription) :
    (c.localApplied current).channel.negotiation = c.negotiation ∨
      (c.localApplied current).channel.negotiation = c.negotiation.advance .descriptionSent := by
  unfold localApplied
  split
  · exact Or.inl rfl
  · exact Or.inr rfl

/-- A step leaves the state of the negotiation or takes it on with an event that it brings about. -/
theorem Turn.negotiates {turn : Turn} (h : turn.before.Fares turn.stimulus turn.reaction) :
    turn.after.negotiation = turn.before.negotiation ∨ ∃ event, turn.Brings event ∧
      turn.after.negotiation = turn.before.negotiation.advance event := by
  have ended : turn.Brings .ended := ⟨rfl, fun _ he => by cases he⟩
  have of_stands {c : Channel} (hs : c.Stands turn.reaction)
      (hc : c.negotiation = turn.before.negotiation ∨ ∃ event, turn.Brings event ∧
        c.negotiation = turn.before.negotiation.advance event) :
      turn.after.negotiation = turn.before.negotiation ∨ ∃ event, turn.Brings event ∧
        turn.after.negotiation = turn.before.negotiation.advance event := by
    rcases hs.negotiation with hn | hn
    · rwa [← hn] at hc
    · exact Or.inr ⟨.ended, ended, hn.trans (NegotiationState.advance_ended _).symm⟩
  cases h with
  | stands _ h => exact of_stands h (Or.inl rfl)
  | invites _ hr h =>
    have hb : turn.Brings .invitationSent := ⟨rfl, fun _ he => Option.some.inj he ▸ hr⟩
    exact of_stands h (Or.inr ⟨_, hb, rfl⟩)
  | confirms ha h _ =>
    have hp : turn.stimulus.acknowledged? ≠ none := by simp [ha]
    have hb : turn.Brings .handshakeConfirmed := ⟨rfl, fun _ he => Option.some.inj he ▸ hp⟩
    exact of_stands h (Or.inr ⟨_, hb, rfl⟩)
  | denies _ h =>
    exact of_stands h (Or.inr ⟨_, ended, (NegotiationState.advance_ended _).symm⟩)
  | connects _ hs h =>
    have hb : turn.Brings .connected := ⟨rfl, fun _ he => Option.some.inj he ▸ hs⟩
    exact of_stands h (Or.inr ⟨_, hb, rfl⟩)
  | routes _ hr hc _ =>
    rw [Turn.after, hr]
    exact Or.inl (congrArg (·.2.2.1) hc)
  | withdraws _ hr =>
    rw [Turn.after, hr]
    exact Or.inl rfl
  | applies _ hr =>
    rw [Turn.after, hr]
    exact Or.inl rfl
  | describes _ hr =>
    have hb : turn.Brings .descriptionSent := ⟨rfl, fun _ he => by cases he⟩
    rw [Turn.after, hr]
    exact (Channel.localApplied_negotiation _ _).imp_right fun hn => ⟨_, hb, hn⟩

namespace Course

variable {config : ChannelConfig} {past : List Turn}

theorem negotiation_ne_pending (h : Course config past) :
    (Channel.now config past).negotiation ≠ .pending := by
  refine h.fares_induction (P := fun _ c => c.negotiation ≠ .pending) (by simp)
    fun past turn hf hn => ?_
  rcases Turn.negotiates hf with he | ⟨event, hb, he⟩
  · rwa [he]
  · exact he ▸ NegotiationState.advance_ne_pending hb.own hn

/-- Once a negotiation has been acknowledged the session is that of the last acknowledgement. -/
theorem last_acknowledged (h : Course config past)
    (hm : .acknowledgement ∈ (Channel.now config past).negotiation.milestones) :
    (acknowledged past).getLast? = some (Channel.now config past).session := by
  revert hm
  refine h.fares_induction (P := fun past c => .acknowledgement ∈ c.negotiation.milestones →
    (acknowledged past).getLast? = some c.session) (by simp [NegotiationState.milestones])
    fun past turn hf ih hm => ?_
  rw [acknowledged_snoc]
  rcases hf.session with ⟨_, _, _, hn⟩ | ⟨_, hs⟩
  · rw [Turn.after, hn] at hm
    cases hm
  · rw [Turn.after, hs]
    cases ha : turn.stimulus.acknowledged? with
    | some id => simp
    | none =>
      have hb : .acknowledgement ∈ turn.before.negotiation.milestones := by
        rcases Turn.negotiates hf with he | ⟨event, hb, he⟩
        · exact he ▸ hm
        · have hne : event ≠ .handshakeConfirmed := by
            rintro rfl
            exact hb.passes .acknowledgement rfl ha
          exact NegotiationState.acknowledged_of_advance hb.own hne (he ▸ hm)
      simpa using ih hb

/-- Since any moment at which the negotiation was ready its milestones have been passed. -/
theorem passed (h : Course config past) {earlier since : List Turn} (he : past = earlier ++ since)
    (hr : (Channel.now config earlier).negotiation = .ready) :
    Passed since (Channel.now config past).negotiation.milestones := by
  induction since using List.reverseRecOn generalizing past with
  | nil =>
    rw [he, List.append_nil, hr]
    exact .nil _
  | append_singleton since turn ih =>
    have hp : past = (earlier ++ since) ++ turn :: [] := by simp [he]
    rw [hp] at h ⊢
    rw [Channel.now_snoc]
    have hs : Passed since turn.before.negotiation.milestones := h.before ▸ ih h.left rfl
    rcases Turn.negotiates h.fares with hn | ⟨event, hb, hn⟩
    · exact hn ▸ hs.later turn
    · exact hn ▸ hs.advance hb

end Course

namespace Rehearsal

variable (config : ChannelConfig) (usual : Endpoint → Answer) (moves : List Move)
variable {past rest : List Turn}

/--
At every moment a negotiation that is matched, connecting or connected has the session of the last
acknowledgement. If it is connected, then since the last moment at which it was ready, and since any
earlier one, a request was sent, an acknowledgement met after it and a connection reported after
that. The states that the other side would bring about are never reached.
-/
theorem play_negotiation_agrees (he : (play config usual moves).history = past ++ rest) :
    ((Channel.now config past).negotiation ∈
        [NegotiationState.matched, .connecting, .connected] →
      (acknowledged past).getLast? = some (Channel.now config past).session) ∧
    ((Channel.now config past).negotiation = .connected →
      ∀ earlier since, past = earlier ++ since →
        (Channel.now config earlier).negotiation = .ready →
        ∃ invitation ack connection, [invitation, ack, connection].Sublist since ∧
          invitation.reaction.Requests ∧ ack.stimulus.acknowledged? ≠ none ∧
          connection.stimulus.connects = true) ∧
    (Channel.now config past).negotiation ≠ .pending ∧
    (Channel.now config past).renegotiation ≠ .received ∧
    (Channel.now config past).renegotiation ≠ .accepted := by
  have hc : Course config past := by
    have hc := (play_chronicle config usual moves).course
    rw [he] at hc
    exact hc.left
  refine ⟨fun hm => hc.last_acknowledged ?_, fun hn earlier since hp hr => ?_,
    hc.negotiation_ne_pending, ?_, ?_⟩
  · rcases List.mem_cons.mp hm with hn | hm
    · simp [hn, NegotiationState.milestones]
    · rcases List.mem_cons.mp hm with hn | hm
      · simp [hn, NegotiationState.milestones]
      · simp [List.mem_singleton.mp hm, NegotiationState.milestones]
  · have hs := hc.passed hp hr
    rw [hn] at hs
    obtain ⟨turns, hs, hf⟩ := hs
    obtain ⟨invitation, _, hi, hf₁, rfl⟩ := List.forall₂_cons_right_iff.mp hf
    obtain ⟨ack, _, ha, hf₂, rfl⟩ := List.forall₂_cons_right_iff.mp hf₁
    obtain ⟨connection, _, hk, hf₃, rfl⟩ := List.forall₂_cons_right_iff.mp hf₂
    obtain rfl := List.forall₂_nil_right_iff.mp hf₃
    exact ⟨invitation, ack, connection, hs, hi, ha, hk⟩
  · rcases hc.renegotiation_isOwn with hn | hn <;> simp [hn]
  · rcases hc.renegotiation_isOwn with hn | hn <;> simp [hn]

/-- A first session that fails, and a second one up to its connection. -/
def connectedAgain : List Turn :=
  (play {} (fun _ => .error .closed)
    [.command (.plan .request
        [.answer (.error .closed), .answer (acknowledgement "second")]),
      .command (.publish (some microphone) { name := "first" }),
      .turn, .turn, .turn,
      .command (.publish (some microphone) { name := "second" }),
      .turn,
      .command (.connectionChanged .completed)]).history

theorem connectedAgain_agrees :
    (Channel.now {} connectedAgain).negotiation = .connected ∧
      (Channel.now {} connectedAgain).session = "second" ∧
      (acknowledged connectedAgain).getLast? = some "second" ∧
      ∃ invitation ack connection,
        [invitation, ack, connection].Sublist (connectedAgain.drop 2) ∧
          invitation.reaction.Requests ∧ ack.stimulus.acknowledged? ≠ none ∧
          connection.stimulus.connects = true := by
  have hn : (Channel.now {} connectedAgain).negotiation = .connected := rfl
  obtain ⟨hs, hp, _⟩ :=
    play_negotiation_agrees {} _ _ (List.append_nil connectedAgain).symm
  exact ⟨hn, rfl, hs (by simp [hn]),
    hp hn _ _ (List.take_append_drop 2 connectedAgain).symm rfl⟩

end Rehearsal

end MediaSession
