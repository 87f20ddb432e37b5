import MediaSession.Proofs.Chronicle
import MediaSession.Proofs.Settling
import Mathlib.Data.List.Induction

namespace MediaSession

inductive CallKind where
  | publication
  | subscription
  deriving DecidableEq

/-- The call that asks for a session, and what for. -/
def Stimulus.asks? : Stimulus → Option (CallKind × CallId)
  | .publish _ call => some (.publication, call)
  | .subscribe _ _ call => some (.subscription, call)
  | _ => none

/-- The success slot of a kind of call. -/
def PendingCalls.success (pending : PendingCalls α) : CallKind → Option α
  | .publication => pending.publish
  | .subscription => pending.subscribe

/-- A call is accepted if the server is asked. -/
def Turn.Accepts (turn : Turn) (kind : CallKind) (call : CallId) : Prop :=
  turn.stimulus.asks? = some (kind, call) ∧ turn.reaction.Requests

instance (turn : Turn) (kind : CallKind) (call : CallId) : Decidable (turn.Accepts kind call) :=
  inferInstanceAs (Decidable (_ ∧ _))

/-- Whether a continuation that is registered for a failure is taken. -/
def Turn.TakesFailure (turn : Turn) : Prop :=
  ∃ call ∈ turn.before.pending.failure, call ∈ turn.reaction.failures

instance (turn : Turn) : Decidable turn.TakesFailure :=
  inferInstanceAs (Decidable (∃ call ∈ _, _))

theorem Turn.settles (turn : Turn) : turn.before.Settles turn.stimulus turn.reaction :=
  turn.before.meet_settles turn.stimulus

theorem Stimulus.call?_of_asks? {stimulus : Stimulus} {kind : CallKind} {call : CallId}
    (h : stimulus.asks? = some (kind, call)) : stimulus.call? = some call := by
  cases stimulus <;> simp_all [asks?, call?]

theorem Turn.Accepts.await {turn : Turn} {kind : CallKind} {call : CallId}
    (h : turn.Accepts kind call) :
    kind = .publication ∧ turn.after.pending = turn.before.pending.awaitPublish call ∨
      kind = .subscription ∧ turn.after.pending = turn.before.pending.awaitSubscribe call ∧
        turn.after.latch = {} := by
  obtain ⟨ha, hr⟩ := h
  cases turn.settles with
  | keeps hk => exact absurd hr hk.requests
  | fails hf => exact absurd hr hf.leaves.keeps.requests
  | publishes hc _ _ hp =>
    rw [hc] at ha
    cases ha
    exact Or.inl ⟨rfl, hp⟩
  | subscribes hc _ _ _ hp hl =>
    rw [hc] at ha
    cases ha
    exact Or.inr ⟨rfl, hp, hl⟩
  | completes _ _ _ _ hn => exact absurd hr hn
  | notes _ _ _ _ _ _ hn => exact absurd hr hn
  | joins _ _ _ _ _ hn => exact absurd hr hn

/-- An accepted call holds the success slot of its kind and the failure slot. -/
theorem Turn.Accepts.registered {turn : Turn} {kind : CallKind} {call : CallId}
    (h : turn.Accepts kind call) :
    turn.after.pending.success kind = some call ∧ turn.after.pending.failure = some call := by
  rcases h.await with ⟨rfl, hp⟩ | ⟨rfl, hp, _⟩ <;> rw [hp] <;> exact ⟨rfl, rfl⟩

namespace Rehearsal

/-- No two steps of a run ask with the same call. -/
theorem Chronicle.asks_fresh {config : ChannelConfig} {r : Rehearsal} (h : Chronicle config r)
    {past rest : List Turn} {asked : Turn} {kind : CallKind} {call : CallId}
    (he : r.history = past ++ asked :: rest) (ha : asked.Accepts kind call) {other : Turn}
    (ho : other ∈ rest) (kind' : CallKind) : other.stimulus.asks? ≠ some (kind', call) := by
  intro hc
  exact h.call_fresh he (Stimulus.call?_of_asks? ha.1) (List.mem_append_right _ ho)
    (Stimulus.call?_of_asks? hc)

/-- What an accepted call establishes holds as long as the later steps keep it. -/
theorem Chronicle.since_induction {config : ChannelConfig} {r : Rehearsal} (h : Chronicle config r)
    {past since rest : List Turn} {asked : Turn} {kind : CallKind} {call : CallId}
    (he : r.history = past ++ asked :: (since ++ rest)) (ha : asked.Accepts kind call)
    {P : List Turn → Channel → Prop} (hstart : P [] asked.after)
    (hstep : ∀ earlier, ∀ turn ∈ since, (∀ kind', turn.stimulus.asks? ≠ some (kind', call)) →
      P earlier turn.before → P (earlier ++ [turn]) turn.after) :
    P since (Channel.now config (past ++ asked :: since)) := by
  induction since using List.reverseRecOn generalizing rest with
  | nil => rwa [Channel.now_snoc]
  | append_singleton since turn ih =>
    have he' : r.history = past ++ asked :: (since ++ turn :: rest) := by simpa using he
    have hb : turn.before = Channel.now config (past ++ asked :: since) :=
      h.course _ _ rest (by simp [he'])
    have hf := h.asks_fresh he' ha (List.mem_append_right since List.mem_cons_self)
    have hp := ih he' fun earlier t ht => hstep earlier t (List.mem_append_left _ ht)
    rw [show past ++ asked :: (since ++ [turn]) = (past ++ asked :: since) ++ [turn] by simp,
      Channel.now_snoc]
    exact hstep since turn (by simp) hf (hb ▸ hp)

end Rehearsal

end MediaSession
