import MediaSession.Proofs.Settling
import MediaSession.Proofs.TaskFlow

namespace MediaSession

/-- The session whose end the server is told. -/
def Record.ended? : Record → Option String
  | .reportEnd _ session => some session
  | _ => none

/-- Whether the connection of the engine is closed. -/
def Record.closes : Record → Bool
  | .engine .close => true
  | _ => false

@[simp] def Effect.ended? : Effect → Option String
  | .spawn (.reportEnd _ session _) => some session
  | .proceed (.reportEnd _ session _) => some session
  | _ => none

@[simp] def Effect.closes : Effect → Bool
  | .engine .close => true
  | _ => false

/-- An effect that costs neither the session nor the connection. -/
@[simp] def Effect.Free (effect : Effect) : Prop := effect.ended? = none ∧ effect.closes = false

/-- The sessions whose end is reported because of a reaction. -/
def Reaction.ended (reaction : Reaction) : List String := reaction.effects.filterMap Effect.ended?

def Reaction.closings (reaction : Reaction) : Nat := reaction.effects.countP Effect.closes

theorem Reaction.filterMap_ended?_asked (reaction : Reaction) :
    reaction.asked.filterMap Record.ended? = reaction.ended := by
  rw [asked, List.filterMap_filterMap]
  refine List.filterMap_congr fun effect _ => ?_
  rcases effect with _ | _ | task | task | _
  case spawn => cases task <;> rfl
  case proceed => cases task <;> rfl
  all_goals rfl

theorem Reaction.countP_closes_asked (reaction : Reaction) :
    reaction.asked.countP Record.closes = reaction.closings := by
  rw [asked, List.countP_filterMap]
  refine List.countP_congr fun effect _ => ?_
  rcases effect with _ | _ | task | task | call
  case spawn => cases task <;> simp [Effect.record?, Task.record, Record.closes]
  case proceed => cases task <;> simp [Effect.record?, Task.record, Record.closes]
  case engine => cases call <;> simp [Effect.record?, Record.closes]
  all_goals simp [Effect.record?]

/-- The session that an acknowledgement brings. -/
def Stimulus.acknowledged? : Stimulus → Option String
  | .answered _ (.requestPublish _ _) (.ok reply) => some reply.acknowledgement.sessionId
  | .answered _ (.requestSubscribe _ _) (.ok reply) => some reply.acknowledgement.sessionId
  | _ => none

namespace Channel

/-- Whether the channel has the session of this identity. -/
def bears (c : Channel) (id : String) : Nat := if c.session = id then 1 else 0

/-- Whether a new path is noted when a stimulus comes, and not forgotten with a stable state. -/
def noted (c : Channel) : Stimulus → Bool
  | .restartIce => c.restartNoted || !c.signaling.isStable
  | .signalingChanged state => c.restartNoted && !state.isStable
  | _ => c.restartNoted

/-- The channel with what a stimulus itself brings: a session, or a note about a new path. -/
def upon (c : Channel) (stimulus : Stimulus) : Channel :=
  { c with
    session := stimulus.acknowledged?.getD c.session
    restartNoted := c.noted stimulus }

/--
A step that gives up the session with one report of its end and the connection with one closing,
and leaves the note about a new path.
-/
structure Spends (c : Channel) (reaction : Reaction) : Prop where
  session : ∀ id, id ≠ "" → reaction.ended.count id + reaction.channel.bears id ≤ c.bears id
  connection : reaction.closings + reaction.channel.isOpen.toNat = c.isOpen.toNat
  restart : reaction.channel.restartNoted = c.restartNoted

/-- The part of the state that can be spent. -/
def estate (c : Channel) : String × Bool × Bool := (c.session, c.isOpen, c.restartNoted)

theorem Spends.of_free {c c' : Channel} {effects : List Effect} (hc : c'.estate = c.estate)
    (h : ∀ effect ∈ effects, effect.Free) : c.Spends { channel := c', effects } := by
  simp only [estate, Prod.mk.injEq] at hc
  obtain ⟨hs, ho, hr⟩ := hc
  have he : effects.filterMap Effect.ended? = [] :=
    List.filterMap_eq_nil_iff.mpr fun effect hm => (h effect hm).1
  have hn : effects.countP Effect.closes = 0 :=
    List.countP_eq_zero.mpr fun effect hm => by rw [(h effect hm).2]; exact Bool.false_ne_true
  refine ⟨fun id _ => ?_, ?_, hr⟩
  · simp [Reaction.ended, he, bears, hs]
  · simp [Reaction.closings, hn, ho]

theorem Spends.of_estate {c c' : Channel} {reaction : Reaction} (h : c'.Spends reaction)
    (hc : c'.estate = c.estate) : c.Spends reaction := by
  simp only [estate, Prod.mk.injEq] at hc
  obtain ⟨hs, ho, hr⟩ := hc
  refine ⟨fun id hi => ?_, ho ▸ h.connection, hr ▸ h.restart⟩
  simpa [bears, hs] using h.session id hi

theorem Spends.andThen {c : Channel} {reaction : Reaction} {f : Channel → Reaction}
    (h : c.Spends reaction) (hall : ∀ c' : Channel, c'.Spends (f c')) :
    c.Spends (reaction.andThen f) := by
  have hf := hall reaction.channel
  refine ⟨fun id hi => ?_, ?_, hf.restart.trans h.restart⟩
  · have hs := h.session id hi
    have hs' := hf.session id hi
    simp only [Reaction.ended, Reaction.andThen, List.filterMap_append, List.count_append]
      at hs hs' ⊢
    omega
  · have hc := h.connection
    have hc' := hf.connection
    simp only [Reaction.closings, Reaction.andThen, List.countP_append] at hc hc' ⊢
    omega

variable (c : Channel)

/-- A teardown reports the end of the session that it forgets. -/
theorem dismantle_spends (event : StreamEvent) (call : Option CallId) :
    c.Spends (c.dismantle event call) := by
  refine ⟨fun id hi => ?_, ?_, rfl⟩
  · have he : (c.dismantle event call).ended = [c.session] := by
      cases ho : c.isOpen <;> simp [Reaction.ended, dismantle, ho]
    have hb : (c.dismantle event call).channel.bears id = 0 := by
      simp [bears, dismantle, hi.symm]
    rw [he, hb, List.count_singleton]
    simp [bears]
  · cases ho : c.isOpen <;> simp [Reaction.closings, dismantle, ho]

theorem spends_composes : Composes Spends where
  tells c _ _ _ h := .of_free rfl fun effect he => by cases h effect he <;> simp
  dismantle := dismantle_spends
  andThen := Spends.andThen

theorem descriptionFailed_spends (cause : Cause) : c.Spends (c.descriptionFailed cause) :=
  spends_composes.descriptionFailed c (.of_free rfl (by simp))

theorem eq_of_mem_bitrateLimits {c : Channel} {call : EngineCall} (h : call ∈ c.bitrateLimits) :
    ∃ kind bps, call = .setMaxBitrate kind bps := by
  obtain ⟨⟨kind, kbps⟩, _, hc⟩ := List.mem_filterMap.mp h
  dsimp only at hc
  split at hc
  · cases hc
  · exact ⟨kind, _, (Option.some.inj hc).symm⟩

theorem free_of_mem_bitrateLimits : ∀ effect ∈ c.bitrateLimits.map Effect.engine, effect.Free := by
  intro effect he
  obtain ⟨call, hc, rfl⟩ := List.mem_map.mp he
  obtain ⟨kind, bps, rfl⟩ := eq_of_mem_bitrateLimits hc
  simp

variable {c} {stimulus : Stimulus} {reaction : Reaction}

theorem Reacts.spends (h : c.Reacts stimulus reaction) : (c.upon stimulus).Spends reaction := by
  cases h with
  | unpublishes => exact spends_composes.unpublish c _ _
  | unsubscribes => exact spends_composes.unsubscribe c _ _
  | drops => exact spends_composes.endStreams c
  | loses => exact .of_estate (spends_composes.streamFailed _ .connectivityLost) rfl
  | failsLocal => exact c.descriptionFailed_spends _
  | failsRemote => exact c.descriptionFailed_spends _
  | restarts hs | notesRestart hs | suspends hs | releases hs | restartsLate hs =>
    refine .of_free ?_ (by simp)
    simp [estate, upon, noted, Stimulus.acknowledged?, hs]
  | confirmsPublish hc =>
    refine .of_free rfl ?_
    cases ho : c.isOpen <;> simp [hc, ho, senders, or_imp, forall_and]
  | limits => exact .of_free rfl c.free_of_mem_bitrateLimits
  | describes =>
    exact .of_free rfl (List.forall_mem_append.mpr ⟨c.free_of_mem_bitrateLimits, by simp⟩)
  | subscribes => exact .of_free rfl (by simp [or_imp, forall_and])
  | _ => exact .of_free rfl (by simp)

theorem meet_spends (c : Channel) (stimulus : Stimulus) :
    (c.upon stimulus).Spends (c.meet stimulus) :=
  Reacts.spends (c.meet_reacts stimulus)

end Channel

end MediaSession
