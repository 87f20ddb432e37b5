import MediaSession.Proofs.Acceptance

namespace MediaSession

def Signal.Seen (signal : Signal) (turns : List Turn) : Prop :=
  ∃ turn ∈ turns, turn.stimulus.signal? = some signal

instance (signal : Signal) (turns : List Turn) : Decidable (signal.Seen turns) :=
  inferInstanceAs (Decidable (∃ turn ∈ _, _))

theorem Signal.seen_snoc {signal : Signal} {turns : List Turn} {turn : Turn} :
    signal.Seen (turns ++ [turn]) ↔ signal.Seen turns ∨ turn.stimulus.signal? = some signal := by
  simp [Seen, or_and_right, exists_or]

theorem Signal.seen_snoc_none {signal : Signal} {turns : List Turn} {turn : Turn}
    (h : turn.stimulus.signal? = none) : signal.Seen (turns ++ [turn]) ↔ signal.Seen turns := by
  simp [seen_snoc, h]

/-- The flags of a subscription that waits are the signals since its call, and one is missing. -/
structure Channel.Waits (c : Channel) (call : CallId) (since : List Turn) : Prop where
  slot : c.pending.subscribe = some call
  failure : c.pending.failure = some call
  flags : ∀ signal, c.latch.has signal = true ↔ Signal.Seen signal since
  missing : ∃ signal, ¬ Signal.Seen signal since

theorem Channel.Waits.not_seen {c : Channel} {call : CallId} {since : List Turn}
    (h : c.Waits call since) {signal : Signal} (hs : Signal.Seen signal.other since) :
    ¬ Signal.Seen signal since := by
  obtain ⟨lost, hl⟩ := h.missing
  rcases signal.eq_or_eq_other lost with rfl | rfl
  · exact hl
  · exact absurd hs hl

/-- What holds after an accepted subscription as long as nothing else settles it. -/
inductive Channel.Joining (c : Channel) (call : CallId) (since : List Turn) : Prop
  | waiting (h : c.Waits call since)
  | joined (all : ∀ signal, Signal.Seen signal since) (gone : c.pending.subscribe ≠ some call)

theorem Turn.Accepts.joining {turn : Turn} {call : CallId} (h : turn.Accepts .subscription call) :
    turn.after.Joining call [] := by
  rcases h.await with ⟨hk, _⟩ | ⟨_, _, hl⟩
  · cases hk
  · have hm : ¬ Signal.media.Seen [] := by simp [Signal.Seen]
    refine .waiting ⟨h.registered.1, h.registered.2, fun signal => ?_, .media, hm⟩
    cases signal <;> simp [hl, SubscribeLatch.has, Signal.Seen]

theorem Channel.Waits.snoc {call : CallId} {since : List Turn} {turn : Turn}
    (h : turn.before.Waits call since) (ha : turn.before.pending.publish = none)
    (hp : turn.after.pending.publish = none) (hf : ¬ turn.TakesFailure)
    (hd : ¬ turn.reaction.Dismantles) : turn.after.Joining call (since ++ [turn]) := by
  cases turn.settles with
  | keeps hk hs =>
    have hs : turn.stimulus.signal? = none := by simpa [h.slot] using hs
    have hl : turn.after.latch = turn.before.latch := hk.latch.resolve_right hd
    refine .waiting ⟨?_, ?_, fun signal => ?_, ?_⟩
    · exact (congrArg PendingCalls.subscribe hk.pending).trans h.slot
    · exact (congrArg PendingCalls.failure hk.pending).trans h.failure
    · rw [Signal.seen_snoc_none hs, hl, h.flags]
    · obtain ⟨signal, hm⟩ := h.missing
      exact ⟨signal, by rwa [Signal.seen_snoc_none hs]⟩
  | fails hk => exact absurd ⟨call, h.failure, hk.tells call h.failure⟩ hf
  | publishes _ _ _ hq => simp [Turn.after, hq, PendingCalls.awaitPublish] at hp
  | subscribes _ _ _ hb => simp [h.slot] at hb
  | completes _ hb => simp [ha] at hb
  | @notes signal _ hs _ ho hq hl =>
    refine .waiting ⟨?_, ?_, fun other => ?_, signal.other, ?_⟩
    · exact (congrArg PendingCalls.subscribe hq).trans h.slot
    · exact (congrArg PendingCalls.failure hq).trans h.failure
    · rw [Turn.after, hl, Signal.seen_snoc, ← h.flags, hs]
      simp only [SubscribeLatch.has_noted, Bool.or_eq_true, decide_eq_true_eq, Option.some.injEq]
      exact Or.comm.trans (or_congr_right eq_comm)
    · rw [Signal.seen_snoc, ← h.flags, ho, hs]
      cases signal <;> simp [Signal.other]
  -- All slots are empty from here on, and nobody asks with the same call again.
  | @joins signal _ hs _ ho hq =>
    refine .joined (fun other => ?_) (by simp [Turn.after, hq, PendingCalls.empty])
    rw [Signal.seen_snoc, ← h.flags, hs]
    rcases signal.eq_or_eq_other other with rfl | rfl
    · exact Or.inr rfl
    · exact Or.inl ho

theorem Channel.Joining.snoc {call : CallId} {since : List Turn} {turn : Turn}
    (h : turn.before.Joining call since) (ha : turn.before.pending.publish = none)
    (hp : turn.after.pending.publish = none) (hf : ¬ turn.TakesFailure)
    (hd : ¬ turn.reaction.Dismantles) (hc : turn.stimulus.asks? ≠ some (.subscription, call)) :
    turn.after.Joining call (since ++ [turn]) := by
  cases h with
  | waiting h => exact h.snoc ha hp hf hd
  | joined all gone =>
    refine .joined (fun signal => Signal.seen_snoc.mpr (Or.inl (all signal))) ?_
    cases turn.settles with
    | keeps hk => exact fun hs => gone ((congrArg PendingCalls.subscribe hk.pending).symm.trans hs)
    | fails hk => simp [Turn.after, hk.leaves.pending, PendingCalls.empty]
    | publishes _ _ _ hq => simpa [Turn.after, hq, PendingCalls.awaitPublish] using gone
    | @subscribes _ _ other hs _ _ _ hq =>
      rintro hs'
      have ho : other = call := by
        simpa [Turn.after, hq, PendingCalls.awaitSubscribe] using hs'
      simp [hs, Stimulus.asks?, ho] at hc
    | completes _ _ hq => simp [Turn.after, hq, PendingCalls.empty]
    | notes _ _ _ hq => simpa [Turn.after, hq] using gone
    | joins _ _ _ hq => simp [Turn.after, hq, PendingCalls.empty]

/-- The success is posted by the step that brings the signal that is still missing. -/
theorem Channel.Joining.succeeds_iff {call : CallId} {since : List Turn} {turn : Turn}
    (h : turn.before.Joining call since) (ha : turn.before.pending.publish = none) :
    call ∈ turn.reaction.successes ↔ ∃ signal : Signal, turn.stimulus.signal? = some signal ∧
      ¬ signal.Seen since ∧ signal.other.Seen since := by
  constructor
  · intro hm
    cases turn.settles with
    | keeps hk => simp [hk.successes] at hm
    | fails hk => simp [hk.leaves.keeps.successes] at hm
    | publishes _ _ hn => simp [hn] at hm
    | subscribes _ _ hn => simp [hn] at hm
    | completes _ hb => simp [ha] at hb
    | notes _ _ _ _ _ hn => simp [hn] at hm
    | @joins signal other hs hb ho _ hn =>
      obtain rfl : call = other := by simpa [hn] using hm
      cases h with
      | waiting h =>
        have hr := (h.flags _).mp ho
        exact ⟨signal, hs, h.not_seen hr, hr⟩
      | joined _ gone => exact absurd hb gone
  · rintro ⟨signal, hs, hm, hr⟩
    cases h with
    | joined all => exact absurd (all signal) hm
    | waiting h =>
      cases turn.settles with
      | keeps _ hn => simp [hs, h.slot] at hn
      | fails _ hn => simp [hs] at hn
      | publishes hc => simp [hc, Stimulus.signal?] at hs
      | subscribes hc => simp [hc, Stimulus.signal?] at hs
      | completes _ hb => simp [ha] at hb
      | @notes other _ hs' _ ho =>
        obtain rfl : signal = other := by simpa [hs] using hs'
        simp [(h.flags _).mpr hr] at ho
      | joins _ hb _ _ hn =>
        rw [h.slot] at hb
        simp [hn, Option.some.inj hb]

namespace Rehearsal

theorem Chronicle.joining {config : ChannelConfig} {r : Rehearsal} (h : Chronicle config r)
    {past since rest : List Turn} {asked : Turn} {call : CallId}
    (he : r.history = past ++ asked :: (since ++ rest)) (ha : asked.Accepts .subscription call)
    (hp : ∀ turn ∈ asked :: since, turn.after.pending.publish = none)
    (hq : ∀ turn ∈ since, ¬ turn.TakesFailure ∧ ¬ turn.reaction.Dismantles) :
    (Channel.now config (past ++ asked :: since)).Joining call since ∧
      (Channel.now config (past ++ asked :: since)).pending.publish = none := by
  refine h.since_induction he ha
    (P := fun since c => c.Joining call since ∧ c.pending.publish = none)
    ⟨ha.joining, hp asked List.mem_cons_self⟩ ?_
  intro earlier turn ht hc ⟨hj, hn⟩
  obtain ⟨hf, hd⟩ := hq turn ht
  have hn' := hp turn (List.mem_cons_of_mem _ ht)
  exact ⟨hj.snoc hn hn' hf hd (hc .subscription), hn'⟩

/--
A subscription that nothing else settles succeeds in the step that brings the later one of the two
signals since its call, and in no other step.
-/
theorem play_subscribe_succeeds_iff (config : ChannelConfig) (usual : Endpoint → Answer)
    (moves : List Move) {past since rest : List Turn} {asked turn : Turn} {call : CallId}
    (he : (play config usual moves).history = past ++ asked :: (since ++ turn :: rest))
    (ha : asked.Accepts .subscription call)
    (hp : ∀ t ∈ asked :: since, t.after.pending.publish = none)
    (hq : ∀ t ∈ since, ¬ t.TakesFailure ∧ ¬ t.reaction.Dismantles) :
    call ∈ turn.reaction.successes ↔ ∃ signal : Signal, turn.stimulus.signal? = some signal ∧
      ¬ signal.Seen since ∧ signal.other.Seen since := by
  have h := play_chronicle config usual moves
  have hb : turn.before = Channel.now config (past ++ asked :: since) :=
    h.course _ _ rest (by simp [he])
  obtain ⟨hj, hn⟩ := h.joining he ha hp hq
  rw [← hb] at hj hn
  exact hj.succeeds_iff hn

/-- A subscription fails after its media has arrived; the next one hears the server twice. -/
def resubscription : List Turn :=
  (play {} (fun _ => .error .closed)
    [.command (.subscribe (some {}) {} { name := "first" }),
      .command (.streamAdded { id := "media" }),
      .command (.receive (.text "failure")),
      .command (.subscribe (some {}) {} { name := "second" }),
      .command (.receive (.text "success")),
      .command (.receive (.text "success")),
      .command (.streamAdded { id := "media" })]).history

theorem resubscription_succeeds_with_media : ∃ past since rest asked turn,
    resubscription = past ++ asked :: (since ++ turn :: rest) ∧
      asked.Accepts .subscription 1 ∧
      (∀ t ∈ asked :: since, t.after.pending.publish = none) ∧
      (∀ t ∈ since, ¬ t.TakesFailure ∧ ¬ t.reaction.Dismantles) ∧
      turn.stimulus.signal? = some .media ∧ 1 ∈ turn.reaction.successes := by
  have he : resubscription = resubscription.take 3 ++ resubscription[3] ::
      ([resubscription[4], resubscription[5]] ++ resubscription[6] :: []) := rfl
  have ha : (resubscription[3]).Accepts .subscription 1 := by decide
  have hp : ∀ t ∈ [resubscription[3], resubscription[4], resubscription[5]],
      t.after.pending.publish = none := by decide
  have hq : ∀ t ∈ [resubscription[4], resubscription[5]],
      ¬ t.TakesFailure ∧ ¬ t.reaction.Dismantles := by decide
  refine ⟨_, _, _, _, _, he, ha, hp, hq, rfl, ?_⟩
  rw [play_subscribe_succeeds_iff _ _ _ he ha hp hq]
  exact ⟨.media, rfl, by decide, by decide⟩

end Rehearsal

end MediaSession
