import MediaSession.Proofs.Standing

namespace MediaSession

namespace Channel

variable {c : Channel} {stimulus : Stimulus} {reaction : Reaction}

theorem localApplied_frame (current : Option SessionDescription) :
    (c.localApplied current).channel.config = c.config ∧
      (c.localApplied current).channel.session = c.session ∧
      (c.localApplied current).channel.renegotiation = c.renegotiation ∧
      ¬ (c.localApplied current).Dismantles := by
  unfold localApplied
  split
  · exact ⟨rfl, rfl, rfl, not_dismantles (by simp)⟩
  · exact ⟨rfl, rfl, rfl, not_dismantles (by simp [or_imp, forall_and])⟩

theorem localApplied_names (current : Option SessionDescription) :
    ∀ effect ∈ (c.localApplied current).effects, ∀ id, effect.session? = some id →
      id = c.session := by
  have hl : ∀ effect ∈ c.bitrateLimits.map Effect.engine, effect.session? = none := by simp
  unfold localApplied
  intro effect he id hi
  split at he
  · rw [hl effect he] at hi
    cases hi
  · rcases List.mem_append.mp he with he | he
    · rw [hl effect he] at hi
      cases hi
    · rw [List.mem_singleton.mp he] at hi
      exact (Option.some.inj hi).symm

theorem Fares.config (h : c.Fares stimulus reaction) : reaction.channel.config = c.config := by
  cases h with
  | stands _ h => exact h.config
  | invites _ _ h => exact h.config
  | confirms _ h => exact h.config
  | denies _ h => exact h.config
  | connects _ _ h => exact h.config
  | routes _ hr hc _ =>
    rw [hr]
    exact congrArg (·.1) hc
  | withdraws _ hr => rw [hr]
  | applies _ hr => rw [hr]
  | describes _ hr => exact hr ▸ (localApplied_frame _).1

/-- Only a teardown takes a session, and the negotiation with it; only an acknowledgement brings
one. -/
theorem Fares.session (h : c.Fares stimulus reaction) :
    reaction.Dismantles ∧ stimulus.acknowledged? = none ∧ reaction.channel.session = "" ∧
        reaction.channel.negotiation = .ready ∨
      ¬ reaction.Dismantles ∧
        reaction.channel.session = stimulus.acknowledged?.getD c.session := by
  have of_stands {c' : Channel} (ha : stimulus.acknowledged? = none) (h : c'.Stands reaction)
      (hc : c'.session = c.session) :
      reaction.Dismantles ∧ stimulus.acknowledged? = none ∧ reaction.channel.session = "" ∧
          reaction.channel.negotiation = .ready ∨
        ¬ reaction.Dismantles ∧
          reaction.channel.session = stimulus.acknowledged?.getD c.session := by
    rw [ha, Option.getD_none, ← hc]
    exact h.standing.symm.imp (fun ht => ⟨ht.1, rfl, ht.2⟩) fun hk => ⟨hk.1, hk.2.1⟩
  cases h with
  | stands ha h => exact of_stands ha h rfl
  | invites ha _ h => exact of_stands ha h rfl
  | confirms ha h hn =>
    have hd : ¬ reaction.Dismantles :=
      not_dismantles (c := reaction.channel) fun e he => (hn e he).2
    refine Or.inr ⟨hd, ?_⟩
    rw [ha]
    exact (h.standing.resolve_right fun ht => hd ht.1).2.1
  | denies ha h => exact of_stands ha h rfl
  | connects ha _ h => exact of_stands ha h rfl
  | routes ha hr hc _ =>
    refine Or.inr ⟨hr ▸ not_dismantles (by simp), ?_⟩
    rw [hr, ha]
    exact congrArg (·.2.1) hc
  | withdraws hs hr => exact Or.inr ⟨hr ▸ not_dismantles (by simp), by rw [hr, hs]; rfl⟩
  | applies hs hr => exact Or.inr ⟨hr ▸ not_dismantles (by simp), by rw [hr, hs]; rfl⟩
  | describes hs hr =>
    obtain ⟨_, he, _, hd⟩ := localApplied_frame (c := c) _
    exact Or.inr ⟨hr ▸ hd, by rw [hr, hs, he]; rfl⟩

theorem Fares.renegotiation (h : c.Fares stimulus reaction) (ho : c.renegotiation.IsOwn) :
    reaction.channel.renegotiation.IsOwn := by
  cases h with
  | stands _ h => exact h.renegotiation ho
  | invites _ _ h => exact h.renegotiation ho
  | confirms _ h => exact h.renegotiation ho
  | denies _ h => exact h.renegotiation ho
  | connects _ _ h => exact h.renegotiation ho
  | routes _ hr hc _ =>
    have hn : reaction.channel.renegotiation = c.renegotiation := by
      rw [hr]
      exact congrArg (·.2.2.2) hc
    exact hn ▸ ho
  | withdraws _ hr => exact hr ▸ ho
  | applies _ hr => exact hr ▸ ho
  | describes _ hr =>
    obtain ⟨_, _, hn, _⟩ := localApplied_frame (c := c) _
    rw [hr, hn]
    exact ho

/-- What a step says under a session it says under the present one, but for candidates that were
held back. -/
theorem Fares.names (h : c.Fares stimulus reaction) {effect : Effect} {id : String}
    (he : effect ∈ reaction.effects) (hi : effect.session? = some id) :
    id = c.session ∨ effect.candidate? ≠ none := by
  cases h with
  | stands _ h => exact Or.inl (h.names effect he id hi)
  | invites _ _ h => exact Or.inl (h.names effect he id hi)
  | confirms _ _ hn =>
    rw [(hn effect he).1] at hi
    cases hi
  | denies _ h => exact Or.inl (h.names effect he id hi)
  | connects _ _ h => exact Or.inl (h.names effect he id hi)
  | routes _ hr _ hc =>
    rw [hr] at he
    obtain ⟨envelope, hm, rfl⟩ := List.mem_map.mp he
    exact Or.inr (hc envelope hm ▸ Option.some_ne_none envelope)
  | withdraws _ hr =>
    rw [hr] at he
    rw [List.mem_singleton.mp he] at hi
    exact Or.inl (Option.some.inj hi).symm
  | applies _ hr =>
    rw [hr] at he
    rw [List.mem_singleton.mp he] at hi
    cases hi
  | describes _ hr => exact Or.inl (localApplied_names _ effect (hr ▸ he) id hi)

end Channel

/-- The session that these steps leave established: that of the last acknowledgement, unless a
teardown has come after it. -/
def established (past : List Turn) : Option String :=
  past.foldl (fun session turn =>
    if turn.reaction.Dismantles then none else turn.stimulus.acknowledged?.or session) none

theorem established_snoc (past : List Turn) (turn : Turn) :
    established (past ++ [turn]) =
      if turn.reaction.Dismantles then none
      else turn.stimulus.acknowledged?.or (established past) := by
  simp [established]

theorem Channel.Reacts.not_dismantles {c : Channel} {stimulus : Stimulus} {reaction : Reaction}
    (h : c.Reacts stimulus reaction) (ha : stimulus.acknowledged? ≠ none) :
    ¬ reaction.Dismantles := by
  cases h with
  | confirmsPublish => exact Channel.not_dismantles (by simp [or_imp, forall_and])
  | confirmsSubscribe => exact Channel.not_dismantles (by simp)
  | _ => exact absurd rfl ha

theorem established_eq_some_iff {past : List Turn} {id : String} :
    established past = some id ↔ ∃ before ack after, past = before ++ ack :: after ∧
      ack.stimulus.acknowledged? = some id ∧
      ∀ turn ∈ after, turn.stimulus.acknowledged? = none ∧ ¬ turn.reaction.Dismantles := by
  induction past using List.reverseRecOn with
  | nil => simp [established]
  | append_singleton past turn ih =>
    have h := exists_since_snoc (fun _ ack => ack.stimulus.acknowledged? = some id)
      (fun turn => turn.stimulus.acknowledged? = none ∧ ¬ turn.reaction.Dismantles) past turn
    rw [← ih] at h
    refine Iff.trans ?_ h.symm
    rw [established_snoc]
    cases ha : turn.stimulus.acknowledged? with
    | none => simp [and_comm]
    | some session =>
      have hd : ¬ turn.reaction.Dismantles :=
        (turn.before.meet_reacts turn.stimulus).not_dismantles (by simp [ha])
      simp [hd]

namespace Course

variable {config : ChannelConfig} {past rest : List Turn} {turn : Turn}

/-- What a new channel has and every step keeps, given all that a step may do. -/
theorem fares_induction {P : List Turn → Channel → Prop} (hstart : P [] { config })
    (hstep : ∀ past turn, turn.before.Fares turn.stimulus turn.reaction → P past turn.before →
      P (past ++ [turn]) turn.after)
    (h : Course config past) : P past (Channel.now config past) := by
  refine (h.induction (P := fun past c => Flows past c ∧ P past c) ⟨.start config, hstart⟩ ?_).2
  intro past turn ⟨hf, hp⟩
  exact ⟨hf.snoc, hstep past turn (turn.before.meet_fares hf.orderly turn.stimulus) hp⟩

theorem fares (h : Course config (past ++ turn :: rest)) :
    turn.before.Fares turn.stimulus turn.reaction := by
  have hf : Flows past (Channel.now config past) :=
    h.left.induction (.start config) fun _ _ hf => hf.snoc
  exact turn.before.meet_fares (h.before ▸ hf.orderly) turn.stimulus

theorem config_eq (h : Course config past) : (Channel.now config past).config = config :=
  h.fares_induction (P := fun _ c => c.config = config) rfl fun _ _ hf hc => hf.config.trans hc

theorem session_eq (h : Course config past) :
    (Channel.now config past).session = (established past).getD "" := by
  refine h.fares_induction (P := fun past c => c.session = (established past).getD "") rfl
    fun past turn hf hs => ?_
  rw [established_snoc, Turn.after]
  rcases hf.session with ⟨hd, _, he, _⟩ | ⟨hd, he⟩
  · rw [if_pos hd, he]
    rfl
  · rw [if_neg hd, he, hs]
    cases turn.stimulus.acknowledged? <;> rfl

theorem renegotiation_isOwn (h : Course config past) :
    (Channel.now config past).renegotiation.IsOwn :=
  h.fares_induction (P := fun _ c => c.renegotiation.IsOwn) (Or.inl rfl)
    fun _ _ hf ho => hf.renegotiation ho

end Course

end MediaSession
