import MediaSession.Proofs.Spending

namespace MediaSession

/-- Whether the engine is called for anything but the closing of its connection. -/
@[simp] def EngineCall.uses : EngineCall → Bool
  | .close => false
  | _ => true

@[simp] def Task.uses : Task → Bool
  | .create _ _ => true
  | .setLocal _ => true
  | .setRemote _ => true
  | .statistics _ => true
  | _ => false

@[simp] def Effect.uses : Effect → Bool
  | .spawn task => task.uses
  | .proceed task => task.uses
  | .engine call => call.uses
  | _ => false

/-- A reaction that asks nothing of the engine but the closing of its connection. -/
def Reaction.Calm (reaction : Reaction) : Prop := ∀ effect ∈ reaction.effects, effect.uses = false

theorem Reaction.uses_of_asked {reaction : Reaction} {call : EngineCall}
    (h : .engine call ∈ reaction.asked) (hu : call.uses = true) :
    ∃ effect ∈ reaction.effects, effect.uses = true ∧ effect.record? = some (.engine call) := by
  obtain ⟨effect, he, hr⟩ := List.mem_filterMap.mp h
  refine ⟨effect, he, ?_, hr⟩
  cases effect with
  | spawn task => cases task <;> simp_all [Effect.record?, Task.record]
  | proceed task => cases task <;> simp_all [Effect.record?, Task.record]
  | engine other => simp_all [Effect.record?]
  | _ => cases hr

theorem Reaction.Calm.eq_close {reaction : Reaction} (h : reaction.Calm) {call : EngineCall}
    (hc : .engine call ∈ reaction.asked) : call = .close := by
  by_contra hn
  obtain ⟨effect, he, hu, _⟩ := Reaction.uses_of_asked hc (by cases call <;> simp_all)
  exact Bool.false_ne_true ((h effect he).symm.trans hu)

theorem Reaction.Calm.handed {reaction : Reaction} (h : reaction.Calm) {task : Task}
    (ht : task ∈ reaction.handed) : task.uses = false := by
  obtain ⟨effect, he, hr⟩ := List.mem_filterMap.mp ht
  cases effect <;> cases hr <;> exact h _ he

/-- The further call on the engine that a step makes when it meets the answer to a task. -/
inductive Stimulus.Continues : Stimulus → Task → EngineCall → Prop
  | applies {current creation options reply} (description : SessionDescription) :
      Continues (.answered current (.create creation options) (.ok reply))
        (.create creation options) (.setLocal description)
  | limits {current description reply} (kind : MediaKind) (bps : UInt32) :
      Continues (.answered current (.setLocal description) (.ok reply))
        (.setLocal description) (.setMaxBitrate kind bps)

theorem Stimulus.Continues.task {stimulus : Stimulus} {task : Task} {call : EngineCall}
    (h : stimulus.Continues task call) : stimulus.task? = some task := by
  cases h <;> rfl

theorem Stimulus.Continues.uses {stimulus : Stimulus} {task : Task} {call : EngineCall}
    (h : stimulus.Continues task call) : task.uses = true := by
  cases h <;> rfl

/-- The observers after a stimulus, in the order in which they have come. -/
def Stimulus.enrolled : Stimulus → List ObserverId → List ObserverId
  | .addObserver observer, observers =>
    if observer ∈ observers then observers else observers ++ [observer]
  | .removeObserver observer, observers => observers.filter (· ≠ observer)
  | _, observers => observers

namespace Channel

/-- The channel with the observers that a stimulus leaves. -/
def attended (c : Channel) (stimulus : Stimulus) : Channel :=
  { c with observers := stimulus.enrolled c.observers }

/-- A step that asks nothing of the engine but the closing, and leaves the observers. -/
structure Rests (c : Channel) (reaction : Reaction) : Prop where
  calm : reaction.Calm
  observers : reaction.channel.observers = c.observers

/-- A step that leaves the observers, and asks something of the engine only if its connection
stays open. -/
structure Abides (c : Channel) (reaction : Reaction) : Prop where
  calm : reaction.channel.isOpen = false → reaction.Calm
  observers : reaction.channel.observers = c.observers

theorem Rests.abides {c : Channel} {reaction : Reaction} (h : c.Rests reaction) :
    c.Abides reaction :=
  ⟨fun _ => h.calm, h.observers⟩

theorem Rests.of_observers {c c' : Channel} {reaction : Reaction} (h : c'.Rests reaction)
    (ho : c'.observers = c.observers) : c.Rests reaction :=
  ⟨h.calm, ho ▸ h.observers⟩

theorem Abides.of_calm {c c' : Channel} {effects : List Effect} (ho : c'.observers = c.observers)
    (h : c'.isOpen = false → ∀ effect ∈ effects, effect.uses = false) :
    c.Abides { channel := c', effects } :=
  ⟨h, ho⟩

theorem Rests.andThen {c : Channel} {reaction : Reaction} {f : Channel → Reaction}
    (h : c.Rests reaction) (hall : ∀ c' : Channel, c'.Rests (f c')) :
    c.Rests (reaction.andThen f) := by
  refine ⟨fun effect he => ?_, (hall _).observers.trans h.observers⟩
  rcases List.mem_append.mp he with he | he
  · exact h.calm effect he
  · exact (hall _).calm effect he

variable (c : Channel)

theorem dismantle_rests (event : StreamEvent) (call : Option CallId) :
    c.Rests (c.dismantle event call) := by
  refine ⟨?_, rfl⟩
  cases ho : c.isOpen <;> simp [Reaction.Calm, dismantle, ho]

theorem rests_composes : Composes Rests where
  tells c _ _ _ h := ⟨fun effect he => by cases h effect he <;> simp, rfl⟩
  dismantle := dismantle_rests
  andThen := Rests.andThen

theorem descriptionFailed_rests (cause : Cause) : c.Rests (c.descriptionFailed cause) :=
  rests_composes.descriptionFailed c ⟨by simp [Reaction.Calm, failPending], rfl⟩

theorem Reacts.abides {c : Channel} {stimulus : Stimulus} {reaction : Reaction}
    (h : c.Reacts stimulus reaction) (hn : ∀ task call, ¬ stimulus.Continues task call) :
    (c.attended stimulus).Abides reaction := by
  cases h with
  | unpublishes => exact (rests_composes.unpublish c _ _).abides
  | unsubscribes => exact (rests_composes.unsubscribe c _ _).abides
  | drops => exact (rests_composes.endStreams c).abides
  | loses =>
    have hl := rests_composes.streamFailed { c with isConnected := false } .connectivityLost
    exact Rests.abides (hl.of_observers rfl)
  | failsLocal | failsRemote => exact (c.descriptionFailed_rests _).abides
  | applies => exact absurd (.applies default) (hn _ _)
  | limits | describes => exact absurd (.limits .audio 0) (hn _ _)
  | enrols ho | knows ho =>
    exact .of_calm (by simp [attended, Stimulus.enrolled, ho]) fun _ => by simp
  | measures ho => exact .of_calm rfl fun hc => absurd (ho.symm.trans hc) (by decide)
  | subscribes _ _ hk =>
    exact .of_calm rfl fun (hc : c.isOpen = false) => by simp [hk, hc]
  | confirmsPublish hs =>
    exact .of_calm rfl fun (hc : c.isOpen = false) => by simp [hs, hc]
  | _ => exact .of_calm rfl fun (hc : c.isOpen = false) => by simp [hc]

theorem localApplied_asked (current : Option SessionDescription) :
    (c.localApplied current).asked = c.bitrateLimits.map .engine := by
  have hl : (c.bitrateLimits.map Effect.engine).filterMap Effect.record? =
      c.bitrateLimits.map .engine := by
    simp [Function.comp_def, Effect.record?]
  unfold localApplied
  split
  · exact hl
  · simp [Reaction.asked, hl, Effect.record?, List.filterMap_cons]

theorem localApplied_handed (current : Option SessionDescription) :
    (c.localApplied current).handed = [] := by
  have hl : (c.bitrateLimits.map Effect.engine).filterMap Effect.task? = [] :=
    List.filterMap_eq_nil_iff.mpr (by simp [Effect.task?])
  unfold localApplied
  split
  · exact hl
  · simp [Reaction.handed, hl, Effect.task?, List.filterMap_cons]

theorem localApplied_observers (current : Option SessionDescription) :
    (c.localApplied current).channel.observers = c.observers := by
  unfold localApplied
  split <;> rfl

theorem localApplied_isOpen (current : Option SessionDescription) :
    (c.localApplied current).channel.isOpen = c.isOpen := by
  unfold localApplied
  split <;> rfl

variable {c} {stimulus : Stimulus} {task : Task} {call : EngineCall}

/-- A step that goes on with a call leaves the connection open and calls for nothing else. -/
theorem meet_of_continues (h : stimulus.Continues task call) :
    (c.meet stimulus).channel.observers = c.observers ∧
      (c.meet stimulus).channel.isOpen = c.isOpen ∧ task ∉ (c.meet stimulus).handed ∧
      ∀ other, .engine other ∈ (c.meet stimulus).asked → stimulus.Continues task other := by
  cases h with
  | applies =>
    refine ⟨rfl, rfl, ?_, ?_⟩
    · simp [meet, answered, Reaction.handed, Effect.task?]
    · intro other ho
      obtain rfl : other = .setLocal _ := by
        simpa [meet, answered, Reaction.asked, Effect.record?, Task.record] using ho
      exact .applies _
  | @limits current _ _ _ _ =>
    refine ⟨c.localApplied_observers _, c.localApplied_isOpen _, ?_, ?_⟩
    · exact (c.localApplied_handed current).symm ▸ List.not_mem_nil
    · intro other ho
      have hm : Record.engine other ∈ c.bitrateLimits.map Record.engine :=
        c.localApplied_asked current ▸ ho
      obtain ⟨limit, hl, hr⟩ := List.mem_map.mp hm
      obtain ⟨kind, bps, rfl⟩ := eq_of_mem_bitrateLimits hl
      cases hr
      exact .limits kind bps

theorem meet_observers (stimulus : Stimulus) :
    (c.meet stimulus).channel.observers = stimulus.enrolled c.observers := by
  by_cases h : ∃ task call, stimulus.Continues task call
  · obtain ⟨task, call, hk⟩ := h
    have he : stimulus.enrolled c.observers = c.observers := by cases hk <;> rfl
    exact (meet_of_continues hk).1.trans he.symm
  · exact ((c.meet_reacts stimulus).abides fun task call hk => h ⟨task, call, hk⟩).observers

/-- A step that leaves the connection closed asks the engine for nothing but the closing, or the
connection was closed before and the step only goes on with a task. -/
theorem meet_engine (hc : (c.meet stimulus).channel.isOpen = false) :
    (c.meet stimulus).Calm ∨ c.isOpen = false ∧ ∃ task, task ∉ (c.meet stimulus).handed ∧
      ∀ call, .engine call ∈ (c.meet stimulus).asked → stimulus.Continues task call := by
  by_cases h : ∃ task call, stimulus.Continues task call
  · obtain ⟨task, call, hk⟩ := h
    obtain ⟨_, ho, hn, ha⟩ := meet_of_continues (c := c) hk
    exact Or.inr ⟨ho ▸ hc, task, hn, ha⟩
  · exact Or.inl (((c.meet_reacts stimulus).abides fun task call hk => h ⟨task, call, hk⟩).calm hc)

end Channel

end MediaSession
