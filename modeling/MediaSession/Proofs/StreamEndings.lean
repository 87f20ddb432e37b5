import MediaSession.Proofs.StreamFailure

namespace MediaSession

/-- The notice to an observer that an effect posts. -/
@[simp] def Effect.alarm? : Effect → Option Notice
  | .post (.streamFailed observer stream error) => some (.streamFailed observer stream error)
  | _ => none

/-- What a reaction has the observers told, in order. -/
def Reaction.alarms (reaction : Reaction) : List Notice := reaction.effects.filterMap Effect.alarm?

@[simp] theorem Reaction.alarms_andThen (reaction : Reaction) (f : Channel → Reaction) :
    (reaction.andThen f).alarms = reaction.alarms ++ (f reaction.channel).alarms :=
  List.filterMap_append

/-- Neither an alarm to an observer nor the report that a stream has ended. -/
@[simp] def Effect.Ordinary (effect : Effect) : Prop :=
  effect.alarm? = none ∧ effect.reportsEnd = false

def Reaction.Ordinary (reaction : Reaction) : Prop :=
  ∀ effect ∈ reaction.effects, effect.Ordinary

theorem Reaction.Ordinary.alarms {reaction : Reaction} (h : reaction.Ordinary) :
    reaction.alarms = [] :=
  List.filterMap_eq_nil_iff.mpr fun effect he => (h effect he).1

theorem Reaction.Ordinary.not_dismantles {reaction : Reaction} (h : reaction.Ordinary) :
    ¬ reaction.Dismantles := by
  rintro ⟨effect, he, hr⟩
  exact Bool.false_ne_true ((h effect he).2.symm.trans hr)

theorem ordinary_of_map {α : Type} {c : Channel} {f : α → Effect} (h : ∀ a, (f a).Ordinary)
    (xs : List α) : Reaction.Ordinary { channel := c, effects := xs.map f } := by
  intro effect he
  obtain ⟨a, _, rfl⟩ := List.mem_map.mp he
  exact h a

/-- Why a stream is given up when a task fails. -/
def Task.cause? : Task → Option Cause
  | .setLocal _ => some .localDescription
  | .setRemote _ => some .remoteDescription
  | _ => none

namespace Channel

/-- Why the streams of a channel fail when it meets a stimulus, if they do. -/
def failure? (c : Channel) : Stimulus → Option Cause
  | .connectionChanged .failed => if c.isConnected then some .connectivityLost else none
  | .answered _ task (.error _) => task.cause?
  | _ => none

section Ordinary

variable (c : Channel)

theorem still_ordinary : c.still.Ordinary := by simp [Reaction.Ordinary, still]

theorem refuse_ordinary (call : Option CallId) (cause : Cause) :
    (c.refuse call cause).Ordinary :=
  ordinary_of_map (fun _ => ⟨rfl, rfl⟩) _

theorem failPending_ordinary (error : ChannelError) : (c.failPending error).Ordinary :=
  ordinary_of_map (fun _ => ⟨rfl, rfl⟩) _

end Ordinary

/--
What a step can do to the streams: nothing; it ends one that is named, if no guard stands in the
way; it ends what is active with the channel; or it gives up what is active on account of an error.
-/
inductive Touches (c : Channel) (stimulus : Stimulus) : Prop
  | nothing (hf : c.failure? stimulus = none) (ho : (c.meet stimulus).Ordinary)
  | publication {session call} (hf : c.failure? stimulus = none)
      (hm : c.meet stimulus = c.unpublish session call)
  | subscription {session call} (hf : c.failure? stimulus = none)
      (hm : c.meet stimulus = c.unsubscribe session call)
  | active (hf : c.failure? stimulus = none) (hm : c.meet stimulus = c.endStreams)
  | connectivity (hf : c.failure? stimulus = some .connectivityLost)
      (hs : stimulus = .connectionChanged .failed)
      (hm : c.meet stimulus = streamFailed { c with isConnected := false } .connectivityLost)
  | description {cause} (hf : c.failure? stimulus = some cause)
      (hs : stimulus ≠ .connectionChanged .failed)
      (hm : c.meet stimulus = c.descriptionFailed cause)

theorem touches (c : Channel) (stimulus : Stimulus) : c.Touches stimulus := by
  have h := c.meet_reacts stimulus
  generalize hm : c.meet stimulus = reaction at h
  have nothing {c' : Channel} {effects : List Effect} (hf : c.failure? stimulus = none)
      (hm : c.meet stimulus = { channel := c', effects })
      (he : ∀ effect ∈ effects, effect.Ordinary) : c.Touches stimulus :=
    .nothing hf (hm ▸ he)
  cases h with
  | unpublishes => exact .publication rfl hm
  | unsubscribes => exact .subscription rfl hm
  | drops => exact .active rfl hm
  | loses hc => exact .connectivity (by simp [failure?, hc]) rfl hm
  | failsLocal | failsRemote => exact .description rfl (by simp) hm
  | connects hs => exact nothing (by rcases hs with rfl | rfl <;> rfl) hm (by simp)
  | @wavers state _ hc =>
    have hf : c.failure? (.connectionChanged state) = none := by
      cases state with
      | failed => simp [failure?, hc rfl]
      | _ => rfl
    exact nothing hf hm (by simp)
  | subscribes | confirmsPublish | describes =>
    exact nothing rfl hm (by simp [or_imp, forall_and])
  | _ => exact nothing rfl hm (by simp)

theorem Leaves.waiting_eq_nil {c : Channel} {reaction : Reaction} (h : c.Leaves reaction)
    (hw : c.candidates.waiting = []) : reaction.channel.candidates.waiting = [] := by
  rcases h.teardown with ⟨_, hc⟩ | ⟨_, _, hc⟩
  · rw [hc, hw]
  · rw [hc]
    rfl

end Channel

/-- A teardown leaves no candidate behind. -/
def Reaction.Empties (reaction : Reaction) : Prop :=
  reaction.Dismantles → reaction.channel.candidates.waiting = []

theorem Reaction.Ordinary.empties {reaction : Reaction} (h : reaction.Ordinary) :
    reaction.Empties :=
  fun hd => absurd hd h.not_dismantles

theorem Reaction.Empties.andThen {reaction : Reaction} {f : Channel → Reaction}
    (h : reaction.Empties) (hall : ∀ c : Channel, c.Leaves (f c) ∧ (f c).Empties) :
    (reaction.andThen f).Empties := by
  obtain ⟨hl, hf⟩ := hall reaction.channel
  rintro ⟨effect, he, hr⟩
  rcases List.mem_append.mp he with he | he
  · exact hl.waiting_eq_nil (h ⟨effect, he, hr⟩)
  · exact hf ⟨effect, he, hr⟩

namespace Channel

variable (c : Channel)

theorem empties_composes : Composes fun c reaction => c.Leaves reaction ∧ reaction.Empties where
  tells c _ _ effects h := by
    refine ⟨leaves_composes.tells c _ _ h, ?_⟩
    rintro ⟨effect, he, hr⟩
    cases h effect he <;> cases hr
  dismantle c event call := ⟨c.dismantle_leaves event call, fun _ => rfl⟩
  andThen h hall := ⟨h.1.andThen fun c' => (hall c').1, h.2.andThen hall⟩

theorem meet_empties (stimulus : Stimulus) : (c.meet stimulus).Empties := by
  cases c.touches stimulus with
  | nothing _ ho => exact ho.empties
  | publication _ hm => exact hm ▸ (empties_composes.unpublish c _ _).2
  | subscription _ hm => exact hm ▸ (empties_composes.unsubscribe c _ _).2
  | active _ hm => exact hm ▸ (empties_composes.endStreams c).2
  | connectivity _ _ hm => exact hm ▸ (empties_composes.streamFailed _ _).2
  | description _ _ hm =>
    rw [hm]
    exact (c.failPending_ordinary _).empties.andThen (empties_composes.streamFailed · _)

end Channel

end MediaSession
