import MediaSession.Proofs.Leaving

namespace MediaSession

/-- The two signals that a subscription waits for. -/
inductive Signal where
  | media
  | server
  deriving DecidableEq

def Signal.other : Signal → Signal
  | .media => .server
  | .server => .media

theorem Signal.eq_or_eq_other (signal other : Signal) : other = signal ∨ other = signal.other := by
  cases signal <;> cases other <;> simp [Signal.other]

def Stimulus.signal? : Stimulus → Option Signal
  | .streamAdded _ => some .media
  | .receive (.text status) => if status = "success" then some .server else none
  | _ => none

/-- The candidate that the engine has found. -/
def Stimulus.found? : Stimulus → Option IceCandidate
  | .candidateFound candidate => some candidate
  | _ => none

theorem Stimulus.eq_of_found? {stimulus : Stimulus} {candidate : IceCandidate}
    (h : stimulus.found? = some candidate) : stimulus = .candidateFound candidate := by
  cases stimulus <;> simp_all [found?]

/-- The state of the signaling that the engine reports. -/
def Stimulus.reported? : Stimulus → Option SignalingState
  | .signalingChanged state => some state
  | _ => none

theorem Stimulus.eq_of_reported? {stimulus : Stimulus} {state : SignalingState}
    (h : stimulus.reported? = some state) : stimulus = .signalingChanged state := by
  cases stimulus <;> simp_all [reported?]

def SubscribeLatch.has (latch : SubscribeLatch) : Signal → Bool
  | .media => latch.mediaArrived
  | .server => latch.serverReady

def SubscribeLatch.noted (latch : SubscribeLatch) : Signal → SubscribeLatch
  | .media => { latch with mediaArrived := true }
  | .server => { latch with serverReady := true }

@[simp] theorem SubscribeLatch.has_noted (latch : SubscribeLatch) (signal other : Signal) :
    (latch.noted signal).has other = (decide (other = signal) || latch.has other) := by
  cases signal <;> cases other <;> rfl

theorem SubscribeLatch.fire_noted (latch : SubscribeLatch) (signal : Signal) :
    (latch.noted signal).fire =
      if latch.has signal.other then (true, {}) else (false, latch.noted signal) := by
  rcases latch with ⟨media, server⟩
  cases signal <;> cases media <;> cases server <;> rfl

def Reaction.successes (reaction : Reaction) : List CallId :=
  reaction.effects.filterMap Effect.succeeded?

def Reaction.failures (reaction : Reaction) : List CallId :=
  reaction.effects.filterMap Effect.failed?

/-- Whether the server is asked for a session. -/
def Reaction.Requests (reaction : Reaction) : Prop :=
  ∃ effect ∈ reaction.effects, effect.requests = true

instance (reaction : Reaction) : Decidable reaction.Requests :=
  inferInstanceAs (Decidable (∃ effect ∈ _, _))

/-- A step that concerns no pending call; only a teardown starts the latch anew. -/
structure Channel.Keeps (c : Channel) (reaction : Reaction) : Prop where
  successes : reaction.successes = []
  requests : ¬ reaction.Requests
  pending : reaction.channel.pending = c.pending
  latch : reaction.channel.latch = c.latch ∨ reaction.Dismantles

/-- A step that enqueues no candidate; only a teardown clears the buffer. -/
structure Channel.Passes (c : Channel) (reaction : Reaction) : Prop where
  candidate : ∀ effect ∈ reaction.effects, effect.candidate? = none
  signaling : reaction.channel.signaling = c.signaling
  candidates : reaction.channel.candidates = c.candidates ∨
    reaction.Dismantles ∧ reaction.channel.candidates = c.candidates.clear

theorem Channel.Passes.of_quiet {c c' : Channel} {effects : List Effect}
    (hg : c'.signaling = c.signaling) (hw : c'.candidates = c.candidates)
    (h : ∀ effect ∈ effects, effect.candidate? = none) :
    c.Passes { channel := c', effects } :=
  ⟨h, hg, Or.inl hw⟩

theorem Channel.Leaves.passes {c : Channel} {reaction : Reaction} (h : c.Leaves reaction) :
    c.Passes reaction :=
  ⟨fun effect he => (h.plain effect he).2.1, h.signaling, h.teardown.imp (·.2) fun ht =>
    ⟨ht.1, ht.2.2⟩⟩

theorem Channel.Leaves.keeps {c : Channel} {reaction : Reaction} (h : c.Leaves reaction) :
    c.Keeps reaction := by
  refine ⟨List.filterMap_eq_nil_iff.mpr fun effect he => (h.plain effect he).1, ?_, h.pending,
    h.teardown.imp (·.1) (·.1)⟩
  rintro ⟨effect, he, hr⟩
  exact Bool.false_ne_true ((h.plain effect he).2.2.symm.trans hr)

theorem Channel.Keeps.of_quiet {c c' : Channel} {effects : List Effect}
    (hp : c'.pending = c.pending) (hl : c'.latch = c.latch)
    (h : ∀ effect ∈ effects, effect.succeeded? = none ∧ effect.requests = false) :
    c.Keeps { channel := c', effects } := by
  refine ⟨List.filterMap_eq_nil_iff.mpr fun effect he => (h effect he).1, ?_, hp, Or.inl hl⟩
  rintro ⟨effect, he, hr⟩
  exact Bool.false_ne_true ((h effect he).2.symm.trans hr)

/-- A step that tells the pending failure and forgets all pending calls. -/
structure Channel.Fails (c : Channel) (reaction : Reaction) : Prop where
  leaves : Channel.Leaves { c with pending := .empty } reaction
  tells : ∀ call, c.pending.failure = some call → call ∈ reaction.failures

theorem Channel.Fails.andThen {c : Channel} {reaction : Reaction} {f : Channel → Reaction}
    (h : c.Fails reaction) (hall : ∀ c' : Channel, c'.Leaves (f c')) :
    c.Fails (reaction.andThen f) := by
  refine ⟨h.leaves.andThen hall, fun call hc => ?_⟩
  simp only [Reaction.failures, Reaction.andThen, List.filterMap_append, List.mem_append]
  exact Or.inl (h.tells call hc)

theorem Channel.Fails.passes {c : Channel} {reaction : Reaction} (h : c.Fails reaction) :
    c.Passes reaction :=
  ⟨h.leaves.passes.candidate, h.leaves.passes.signaling, h.leaves.passes.candidates⟩

theorem Channel.failPending_fails (c : Channel) (error : ChannelError) :
    c.Fails (c.failPending error) := by
  refine ⟨.of_plain rfl ?_, fun call hc => ?_⟩
  · cases hf : c.pending.failure <;> simp [PendingCalls.takeFailure, hf]
  · simp [Reaction.failures, failPending, PendingCalls.takeFailure, hc]

theorem Channel.descriptionFailed_fails (c : Channel) (cause : Cause) :
    c.Fails (c.descriptionFailed cause) :=
  (c.failPending_fails cause.error).andThen (leaves_composes.streamFailed · cause)

theorem Channel.handshakeFailed_fails (c : Channel) (error : CallError) :
    c.Fails (c.handshakeFailed error) := by
  have h := Channel.failPending_fails { c with negotiation := c.negotiation.advance .ended }
    error.toChannelError
  exact ⟨h.leaves.of_ledger rfl, h.tells⟩

/-- What a step does to the pending calls, and whose success it posts. -/
inductive Channel.Settles (c : Channel) (stimulus : Stimulus) (reaction : Reaction) : Prop
  | keeps (h : c.Keeps reaction)
      (hs : stimulus.signal? = none ∨ c.pending.subscribe = none)
  | fails (h : c.Fails reaction) (hs : stimulus.signal? = none)
  | publishes {stream call} (hc : stimulus = .publish stream call) (hr : reaction.Requests)
      (hn : reaction.successes = [])
      (hp : reaction.channel.pending = c.pending.awaitPublish call)
  | subscribes {stream options call} (hc : stimulus = .subscribe stream options call)
      (hr : reaction.Requests) (hn : reaction.successes = []) (hb : c.pending.subscribe = none)
      (hp : reaction.channel.pending = c.pending.awaitSubscribe call)
      (hl : reaction.channel.latch = {})
  | completes {call} (hs : stimulus.signal? = some .server) (hb : c.pending.publish = some call)
      (hp : reaction.channel.pending = .empty) (hn : reaction.successes = [call])
      (hr : ¬ reaction.Requests)
  | notes {signal call} (hs : stimulus.signal? = some signal)
      (hb : c.pending.subscribe = some call) (ho : c.latch.has signal.other = false)
      (hp : reaction.channel.pending = c.pending)
      (hl : reaction.channel.latch = c.latch.noted signal) (hn : reaction.successes = [])
      (hr : ¬ reaction.Requests)
  | joins {signal call} (hs : stimulus.signal? = some signal)
      (hb : c.pending.subscribe = some call) (ho : c.latch.has signal.other = true)
      (hp : reaction.channel.pending = .empty) (hn : reaction.successes = [call])
      (hr : ¬ reaction.Requests)

theorem Stimulus.signal?_receive {message : Datum} (h : message ≠ .text "success") :
    (receive message).signal? = none := by
  cases message <;> simp_all [signal?]

namespace Channel

variable {c : Channel} {stimulus : Stimulus} {reaction : Reaction}

theorem Reacts.settles (h : c.Reacts stimulus reaction) : c.Settles stimulus reaction := by
  -- A teardown and a failure of the pending call go through functions of their own.
  cases h with
  | unpublishes => exact .keeps (leaves_composes.unpublish c _ _).keeps (Or.inl rfl)
  | unsubscribes => exact .keeps (leaves_composes.unsubscribe c _ _).keeps (Or.inl rfl)
  | drops => exact .keeps (leaves_composes.endStreams c).keeps (Or.inl rfl)
  | loses =>
    have hl := leaves_composes.streamFailed { c with isConnected := false } .connectivityLost
    exact .keeps (Leaves.keeps (hl.of_ledger rfl)) (Or.inl rfl)
  | misreads => exact .fails (c.failPending_fails _) rfl
  | fails hm => exact .fails (c.failPending_fails _) (Stimulus.signal?_receive hm)
  | deniesPublish | deniesSubscribe => exact .fails (c.handshakeFailed_fails _) rfl
  | failsLocal | failsRemote => exact .fails (c.descriptionFailed_fails _) rfl
  | publishes => exact .publishes rfl ⟨_, List.mem_cons_self, rfl⟩ rfl rfl
  | subscribes _ hb =>
    refine .subscribes rfl ⟨_, List.mem_append_right _ List.mem_cons_self, rfl⟩ ?_ hb rfl rfl
    simp [Reaction.successes]
  | completes hb => exact .completes rfl hb rfl rfl (by simp [Reaction.Requests])
  | notesServer hb ho | notesMedia hb ho =>
    exact .notes rfl hb ho rfl rfl rfl (by simp [Reaction.Requests])
  | joinsServer hb ho | joinsMedia hb ho =>
    exact .joins rfl hb ho rfl rfl (by simp [Reaction.Requests])
  | expectsNothing hb | attaches hb => exact .keeps (.of_quiet rfl rfl (by simp)) (Or.inr hb)
  | setsAnswer hm | ignores hm =>
    exact .keeps (.of_quiet rfl rfl (by simp)) (Or.inl (Stimulus.signal?_receive hm))
  | confirmsPublish | describes =>
    exact .keeps (.of_quiet rfl rfl (by simp [or_imp, forall_and])) (Or.inl rfl)
  | _ => exact .keeps (.of_quiet rfl rfl (by simp)) (Or.inl rfl)

/-- Only a candidate and a change of the signaling concern the buffer without a teardown. -/
theorem Reacts.passes (h : c.Reacts stimulus reaction) (hf : stimulus.found? = none)
    (hr : stimulus.reported? = none) : c.Passes reaction := by
  cases h with
  | unpublishes => exact (leaves_composes.unpublish c _ _).passes
  | unsubscribes => exact (leaves_composes.unsubscribe c _ _).passes
  | drops => exact (leaves_composes.endStreams c).passes
  | loses =>
    have hl := leaves_composes.streamFailed { c with isConnected := false } .connectivityLost
    exact Leaves.passes (hl.of_ledger rfl)
  | failsLocal | failsRemote => exact (c.descriptionFailed_fails _).passes
  | suspends | releases | restartsLate => cases hr
  | finds => cases hf
  | @describes current =>
    refine .of_quiet rfl rfl ?_
    cases current.kind <;> simp [SignalingPayload.description, or_imp, forall_and]
  | subscribes | confirmsPublish => exact .of_quiet rfl rfl (by simp [or_imp, forall_and])
  | _ => exact .of_quiet rfl rfl (by simp)

theorem meet_settles (c : Channel) (stimulus : Stimulus) : c.Settles stimulus (c.meet stimulus) :=
  Reacts.settles (c.meet_reacts stimulus)

end Channel

end MediaSession
