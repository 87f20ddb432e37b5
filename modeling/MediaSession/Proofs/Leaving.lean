import MediaSession.Proofs.Reactions

namespace MediaSession

/-- The call whose success is posted to the event queue. -/
@[simp] def Effect.succeeded? : Effect → Option CallId
  | .post (.succeeded call _) => some call
  | _ => none

/-- The call whose failure is posted to the event queue. -/
@[simp] def Effect.failed? : Effect → Option CallId
  | .post (.failed call _) => some call
  | _ => none

/-- The envelope that carries a candidate to the queue of outgoing messages. -/
@[simp] def Effect.candidate? : Effect → Option SignalingEnvelope
  | .send ⟨id, .candidate info⟩ => some ⟨id, .candidate info⟩
  | _ => none

/-- Whether the server is asked for a session. -/
@[simp] def Effect.requests : Effect → Bool
  | .spawn (.requestPublish _ _) => true
  | .spawn (.requestSubscribe _ _) => true
  | _ => false

/-- Whether the server is told that a stream has ended. -/
@[simp] def Effect.reportsEnd : Effect → Bool
  | .spawn (.reportEnd _ _ _) => true
  | _ => false

@[simp] def Effect.Plain (effect : Effect) : Prop :=
  effect.succeeded? = none ∧ effect.candidate? = none ∧ effect.requests = false

def Reaction.Dismantles (reaction : Reaction) : Prop :=
  ∃ effect ∈ reaction.effects, effect.reportsEnd = true

instance (reaction : Reaction) : Decidable reaction.Dismantles :=
  inferInstanceAs (Decidable (∃ effect ∈ _, _))

/--
A step that concerns neither the pending calls nor the candidates, except that a teardown starts
the latch anew and clears the buffer.
-/
structure Channel.Leaves (c : Channel) (reaction : Reaction) : Prop where
  plain : ∀ effect ∈ reaction.effects, effect.Plain
  pending : reaction.channel.pending = c.pending
  signaling : reaction.channel.signaling = c.signaling
  teardown : reaction.channel.latch = c.latch ∧ reaction.channel.candidates = c.candidates ∨
    reaction.Dismantles ∧ reaction.channel.latch = {} ∧
      reaction.channel.candidates = c.candidates.clear

/-- The part of the state that the pending calls and the candidates depend on. -/
def Channel.ledger (c : Channel) :
    PendingCalls CallId × SignalingState × SubscribeLatch × CandidateBuffer SignalingEnvelope :=
  (c.pending, c.signaling, c.latch, c.candidates)

theorem Channel.Leaves.of_plain {c c' : Channel} {effects : List Effect}
    (hc : c'.ledger = c.ledger) (h : ∀ effect ∈ effects, effect.Plain) :
    c.Leaves { channel := c', effects } := by
  simp only [ledger, Prod.mk.injEq] at hc
  obtain ⟨hp, hs, hl, hw⟩ := hc
  exact ⟨h, hp, hs, Or.inl ⟨hl, hw⟩⟩

theorem Channel.Leaves.of_ledger {c c' : Channel} {reaction : Reaction} (h : c'.Leaves reaction)
    (hc : c'.ledger = c.ledger) : c.Leaves reaction := by
  simp only [ledger, Prod.mk.injEq] at hc
  obtain ⟨hp, hs, hl, hw⟩ := hc
  exact ⟨h.plain, hp ▸ h.pending, hs ▸ h.signaling, hl ▸ hw ▸ h.teardown⟩

theorem Channel.Leaves.andThen {c : Channel} {reaction : Reaction} {f : Channel → Reaction}
    (h : c.Leaves reaction) (hall : ∀ c' : Channel, c'.Leaves (f c')) :
    c.Leaves (reaction.andThen f) := by
  have hf := hall reaction.channel
  refine ⟨?_, hf.pending.trans h.pending, hf.signaling.trans h.signaling, ?_⟩
  · intro effect he
    rcases List.mem_append.mp he with he | he
    · exact h.plain effect he
    · exact hf.plain effect he
  · rcases hf.teardown with ⟨hl, hc⟩ | ⟨⟨effect, he, hr⟩, hl, hc⟩
    · rcases h.teardown with ⟨hl', hc'⟩ | ⟨⟨effect, he, hr⟩, hl', hc'⟩
      · exact Or.inl ⟨hl.trans hl', hc.trans hc'⟩
      · exact Or.inr ⟨⟨effect, List.mem_append_left _ he, hr⟩, hl.trans hl', hc.trans hc'⟩
    · refine Or.inr ⟨⟨effect, List.mem_append_right _ he, hr⟩, hl, hc.trans ?_⟩
      rcases h.teardown with ⟨_, hc'⟩ | ⟨_, _, hc'⟩ <;> simp [hc', CandidateBuffer.clear]

namespace Channel

variable (c : Channel)

theorem dismantle_leaves (event : StreamEvent) (call : Option CallId) :
    c.Leaves (c.dismantle event call) := by
  refine ⟨?_, rfl, rfl, Or.inr ⟨⟨_, List.mem_cons_self, rfl⟩, rfl, rfl⟩⟩
  cases ho : c.isOpen <;> simp [dismantle, ho]

theorem leaves_composes : Composes Leaves where
  tells c _ _ _ h := .of_plain rfl fun effect he => by cases h effect he <;> simp
  dismantle := dismantle_leaves
  andThen := Leaves.andThen

end Channel

end MediaSession
