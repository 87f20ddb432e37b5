import MediaSession.Proofs.Acceptance

namespace MediaSession

/-- Both continuations of a call are in their slots. -/
def PendingCalls.Holds (pending : PendingCalls CallId) (kind : CallKind) (call : CallId) : Prop :=
  pending.success kind = some call ∧ pending.failure = some call

instance (pending : PendingCalls CallId) (kind : CallKind) (call : CallId) :
    Decidable (pending.Holds kind call) :=
  inferInstanceAs (Decidable (_ ∧ _))

/-- A step that neither accepts a call nor posts the success of one. -/
structure Turn.Quiet (turn : Turn) : Prop where
  accepts : ∀ kind call, ¬ turn.Accepts kind call
  successes : turn.reaction.successes = []

theorem Turn.quiet_of_not_requests {turn : Turn} (hr : ¬ turn.reaction.Requests)
    (hs : turn.reaction.successes = []) : turn.Quiet :=
  ⟨fun _ _ ha => hr ha.2, hs⟩

theorem Turn.Quiet.pending_eq {turn : Turn} {call : CallId} (h : turn.Quiet)
    (hf : turn.before.pending.failure = some call) (hn : call ∉ turn.reaction.failures) :
    turn.after.pending = turn.before.pending := by
  have hs := h.successes
  cases turn.settles with
  | keeps hk => exact hk.pending
  | fails hk => exact absurd (hk.tells call hf) hn
  | publishes hc hr => exact absurd ⟨congrArg Stimulus.asks? hc, hr⟩ (h.accepts _ _)
  | subscribes hc hr => exact absurd ⟨congrArg Stimulus.asks? hc, hr⟩ (h.accepts _ _)
  | completes _ _ _ hc => simp [hs] at hc
  | notes _ _ _ hp => exact hp
  | joins _ _ _ _ hc => simp [hs] at hc

/-- A step that leaves the failure continuation of an earlier call in its slot is quiet. -/
theorem Turn.quiet_of_failure {turn : Turn} {call : CallId}
    (hn : ∀ kind, turn.stimulus.asks? ≠ some (kind, call))
    (hf : turn.after.pending.failure = some call) :
    turn.Quiet ∧ turn.before.pending.failure = some call := by
  cases turn.settles with
  | keeps hk =>
    refine ⟨quiet_of_not_requests hk.requests hk.successes, ?_⟩
    rw [← hf, Turn.after, hk.pending]
  | fails hk => simp [Turn.after, hk.leaves.pending, PendingCalls.empty] at hf
  | publishes hc _ _ hp =>
    rw [Turn.after, hp] at hf
    exact absurd (by rw [hc, ← Option.some.inj hf]; rfl) (hn .publication)
  | subscribes hc _ _ _ hp =>
    rw [Turn.after, hp] at hf
    exact absurd (by rw [hc, ← Option.some.inj hf]; rfl) (hn .subscription)
  | completes _ _ hp => simp [Turn.after, hp, PendingCalls.empty] at hf
  | notes _ _ _ hp _ hs hr =>
    refine ⟨quiet_of_not_requests hr hs, ?_⟩
    rw [← hf, Turn.after, hp]
  | joins _ _ _ hp => simp [Turn.after, hp, PendingCalls.empty] at hf

namespace Rehearsal

/-- The failure slot tells whether a call that has not been told anything is still registered. -/
theorem Chronicle.registered {config : ChannelConfig} {r : Rehearsal} (h : Chronicle config r)
    {past since rest : List Turn} {asked : Turn} {kind : CallKind} {call : CallId}
    (he : r.history = past ++ asked :: (since ++ rest)) (ha : asked.Accepts kind call)
    (hq : ∀ turn ∈ since, call ∉ turn.reaction.failures) :
    ((∀ turn ∈ since, turn.Quiet) →
        (Channel.now config (past ++ asked :: since)).pending.Holds kind call) ∧
      ((Channel.now config (past ++ asked :: since)).pending.failure = some call →
        ∀ turn ∈ since, turn.Quiet) := by
  refine h.since_induction he ha
    (P := fun since c => ((∀ turn ∈ since, turn.Quiet) → c.pending.Holds kind call) ∧
      (c.pending.failure = some call → ∀ turn ∈ since, turn.Quiet))
    ⟨fun _ => ha.registered, by simp⟩ ?_
  intro earlier turn ht hc ⟨hk, hl⟩
  -- A failure slot that has been lost is not regained, since no later step asks with this call.
  constructor
  · intro hall
    have hh := hk fun t ht => hall t (List.mem_append_left _ ht)
    have hp := (hall turn (by simp)).pending_eq hh.2 (hq turn ht)
    rwa [hp]
  · intro hf t ht
    obtain ⟨hquiet, hf'⟩ := turn.quiet_of_failure hc hf
    rcases List.mem_append.mp ht with ht | ht
    · exact hl hf' t ht
    · rwa [List.mem_singleton.mp ht]

/--
An accepted call that has been told nothing yet is registered with both of its continuations as
long as no other call is accepted and no other success is posted, and no longer.
-/
theorem play_registered_iff (config : ChannelConfig) (usual : Endpoint → Answer)
    (moves : List Move) {past since rest : List Turn} {asked : Turn} {kind : CallKind}
    {call : CallId} (he : (play config usual moves).history = past ++ asked :: (since ++ rest))
    (ha : asked.Accepts kind call)
    (hq : ∀ turn ∈ since, call ∉ turn.reaction.successes ∧ call ∉ turn.reaction.failures) :
    (Channel.now config (past ++ asked :: since)).pending.Holds kind call ↔
      ∀ turn ∈ since, turn.Quiet := by
  obtain ⟨hk, hl⟩ := (play_chronicle config usual moves).registered he ha fun t ht => (hq t ht).2
  exact ⟨fun hh => hl hh.2, hk⟩

/-- The media of a stream with one live track. -/
def oneTrack : MediaStream := { id := "media", audioTracks := [{ id := "track", kind := .audio }] }

/-- A failure of the server that comes after the connection concerns no publication. -/
def lateFailure : List Turn :=
  (play {} (fun _ => .error .closed)
    [.command (.plan .request [.answer (.ok default)]),
      .command (.publish (some { media := some oneTrack }) { name := "first" }),
      .turn,
      .command (.connectionChanged .connected),
      .command (.receive (.text "failure"))]).history

theorem lateFailure_registered : ∃ asked since,
    lateFailure = [] ++ asked :: (since ++ []) ∧ asked.Accepts .publication 0 ∧
      (∀ turn ∈ since, 0 ∉ turn.reaction.successes ∧ 0 ∉ turn.reaction.failures) ∧
      since.length = 3 ∧ (Channel.now {} lateFailure).pending.Holds .publication 0 := by
  have he : lateFailure = [] ++ lateFailure[0] :: (lateFailure.tail ++ []) := rfl
  have ha : (lateFailure[0]).Accepts .publication 0 := by decide
  have hq : ∀ turn ∈ lateFailure.tail,
      0 ∉ turn.reaction.successes ∧ 0 ∉ turn.reaction.failures := by decide
  have hr : ∀ turn ∈ lateFailure.tail,
      ¬ turn.reaction.Requests ∧ turn.reaction.successes = [] := by decide
  refine ⟨_, _, he, ha, hq, rfl, (play_registered_iff {} _ _ he ha hq).mpr ?_⟩
  intro turn ht
  exact Turn.quiet_of_not_requests (hr turn ht).1 (hr turn ht).2

/-- The second call takes over the failure slot, and its own failure empties all slots. -/
def overtaken : List Turn :=
  (play {} (fun _ => .error .closed)
    [.command (.plan .request [.answer (.ok default), .answer (.error .closed)]),
      .command (.publish (some { media := some oneTrack }) { name := "first" }),
      .turn,
      .command (.subscribe (some {}) {} { name := "second" }),
      .turn,
      .turn,
      .command (.receive (.text "success"))]).history

theorem accepted_call_forgotten :
    ¬ ∀ (config : ChannelConfig) (usual : Endpoint → Answer) (moves : List Move)
      (past since rest : List Turn) (asked : Turn) (kind : CallKind) (call : CallId),
      (play config usual moves).history = past ++ asked :: (since ++ rest) →
      asked.Accepts kind call →
      (∀ turn ∈ since, call ∉ turn.reaction.successes ∧ call ∉ turn.reaction.failures) →
      (Channel.now config (past ++ asked :: since)).pending.Holds kind call := by
  intro h
  have hh := h {} _ _ [] overtaken.tail [] overtaken[0] .publication 0
    (rfl : overtaken = _) (by decide) (by decide)
  revert hh
  decide

end Rehearsal

end MediaSession
