import MediaSession.Proofs.Changes
import MediaSession.Proofs.Reactions

namespace MediaSession

/-- The call whose continuation a notice runs. -/
def Notice.call? : Notice → Option CallId
  | .succeeded call _ => some call
  | .finished call => some call
  | .measured call _ => some call
  | .failed call _ => some call
  | .streamFailed _ _ _ => none

/-- The call whose continuations a task keeps until it is answered. -/
def Task.call? : Task → Option CallId
  | .reportEnd _ _ call => call
  | .control _ _ _ _ call => some call
  | .statistics call => some call
  | _ => none

def Effect.call? : Effect → Option CallId
  | .post notice => notice.call?
  | .spawn task => task.call?
  | .proceed task => task.call?
  | _ => none

/-- The calls whose continuations come to the channel with a stimulus. -/
def Stimulus.brought (stimulus : Stimulus) : List CallId :=
  stimulus.call?.toList ++ (stimulus.task?.bind Task.call?).toList

theorem filterMap_map_none {α β γ : Type} {f : α → β} {g : β → Option γ}
    (h : ∀ a, g (f a) = none) (xs : List α) : (xs.map f).filterMap g = [] := by
  simp [h]

theorem count_filterMap_cons {α : Type} (f : α → Option CallId) (a : α) (xs : List α)
    (call : CallId) :
    ((a :: xs).filterMap f).count call = (f a).toList.count call + (xs.filterMap f).count call := by
  cases h : f a with
  | none => simp [h]
  | some other => simp [h, List.count_cons, Nat.add_comm]

/-- Whether a call waits in any of the slots. -/
def PendingCalls.claims (pending : PendingCalls CallId) (call : CallId) : Nat :=
  if pending.publish = some call ∨ pending.subscribe = some call ∨ pending.failure = some call
  then 1 else 0

/-- How often a call can still be told its outcome because of a reaction. -/
def Reaction.owed (reaction : Reaction) (call : CallId) : Nat :=
  (reaction.effects.filterMap Effect.call?).count call + reaction.channel.pending.claims call

@[simp] theorem PendingCalls.empty_claims (call : CallId) :
    (PendingCalls.empty : PendingCalls CallId).claims call = 0 := rfl

theorem PendingCalls.awaitPublish_claims_le (pending : PendingCalls CallId) (new call : CallId) :
    (pending.awaitPublish new).claims call ≤ pending.claims call + [new].count call := by
  by_cases h : new = call
  · simp only [claims, h, List.count_singleton_self]
    split <;> omega
  · simp only [claims, awaitPublish, Option.some.injEq, h, false_or, or_false]
    split <;> split <;> simp_all

theorem PendingCalls.awaitSubscribe_claims_le (pending : PendingCalls CallId)
    (new call : CallId) :
    (pending.awaitSubscribe new).claims call ≤ pending.claims call + [new].count call := by
  by_cases h : new = call
  · simp only [claims, h, List.count_singleton_self]
    split <;> omega
  · simp only [claims, awaitSubscribe, Option.some.injEq, h, or_false, or_self]
    split <;> split <;> simp_all

theorem PendingCalls.toList_count_le (pending : PendingCalls CallId) (call : CallId) :
    pending.publish.toList.count call ≤ pending.claims call ∧
      pending.subscribe.toList.count call ≤ pending.claims call ∧
      pending.failure.toList.count call ≤ pending.claims call := by
  have slot (slot : Option CallId) (h : slot = some call → pending.claims call = 1) :
      slot.toList.count call ≤ pending.claims call := by
    cases slot with
    | none => simp
    | some other =>
      by_cases he : other = call
      · simp [he, h (by rw [he])]
      · simp [he]
  exact ⟨slot _ fun h => by simp [claims, h], slot _ fun h => by simp [claims, h],
    slot _ fun h => by simp [claims, h]⟩

theorem Reaction.andThen_owed_le {reaction : Reaction} {f : Channel → Reaction} {call : CallId}
    (h : ∀ c, (f c).owed call ≤ c.pending.claims call) :
    (reaction.andThen f).owed call ≤ reaction.owed call := by
  have hf := h reaction.channel
  simp only [owed, andThen, List.filterMap_append, List.count_append] at hf ⊢
  omega

namespace Channel

variable (c : Channel) (x : CallId)

theorem owed_of_silent {c' : Channel} {effects : List Effect} (hp : c'.pending = c.pending)
    (h : ∀ effect ∈ effects, effect.call? = none) :
    Reaction.owed { channel := c', effects } x = c.pending.claims x := by
  simp [Reaction.owed, List.filterMap_eq_nil_iff.mpr h, hp]

theorem owed_of_told {c' : Channel} {effect : Effect} {call : CallId}
    (hp : c'.pending = c.pending) (he : effect.call? = some call) :
    Reaction.owed { channel := c', effects := [effect] } x =
      c.pending.claims x + [call].count x := by
  simp [Reaction.owed, he, hp, Nat.add_comm]

theorem owed_of_answered {f : CallId → Effect} (hf : ∀ call, (f call).call? = some call)
    (call : Option CallId) :
    Reaction.owed { channel := c, effects := call.toList.map f } x =
      c.pending.claims x + call.toList.count x := by
  cases call <;> simp [Reaction.owed, hf, Nat.add_comm]

theorem owed_le_of_settled {c' : Channel} {effect : Effect} {call : CallId} {claims : Nat}
    (hp : c'.pending = .empty) (he : effect.call? = some call) (hc : [call].count x ≤ claims) :
    Reaction.owed { channel := c', effects := [effect] } x ≤ claims := by
  simpa [Reaction.owed, he, hp] using hc

theorem still_owed : c.still.owed x = c.pending.claims x := c.owed_of_silent x rfl (by simp)

theorem refuse_owed (call : Option CallId) (cause : Cause) :
    (c.refuse call cause).owed x = c.pending.claims x + call.toList.count x :=
  c.owed_of_answered x (fun _ => rfl) call

theorem failPending_owed_le (error : ChannelError) :
    (c.failPending error).owed x ≤ c.pending.claims x := by
  have h := (c.pending.toList_count_le x).2.2
  cases hf : c.pending.failure <;>
    simp_all [failPending, PendingCalls.takeFailure, Reaction.owed, Effect.call?, Notice.call?]

theorem dismantle_owed (event : StreamEvent) (call : Option CallId) :
    (c.dismantle event call).owed x = c.pending.claims x + call.toList.count x := by
  cases call <;> cases ho : c.isOpen <;>
    simp [dismantle, Reaction.owed, Effect.call?, Task.call?, ho, List.filterMap_cons,
      Nat.add_comm]

theorem unpublish_owed_le (session : String) (call : Option CallId) :
    (c.unpublish session call).owed x ≤ c.pending.claims x + call.toList.count x := by
  unfold unpublish
  split
  · exact Nat.le_of_eq (c.refuse_owed x call _)
  · rw [← c.dismantle_owed x .unpublish call]
    exact Reaction.andThen_owed_le fun c => by simp [Reaction.owed]

theorem unsubscribe_owed_le (session : String) (call : Option CallId) :
    (c.unsubscribe session call).owed x ≤ c.pending.claims x + call.toList.count x := by
  unfold unsubscribe
  split
  · exact Nat.le_of_eq (c.refuse_owed x call _)
  · split
    · exact Nat.le_of_eq (c.refuse_owed x call _)
    · rw [← c.dismantle_owed x .unsubscribe call]
      exact Reaction.andThen_owed_le fun c => by simp [Reaction.owed]

theorem endStreams_owed_le : c.endStreams.owed x ≤ c.pending.claims x := by
  unfold endStreams
  refine Nat.le_trans (Reaction.andThen_owed_le fun c' => ?_) ?_
  · split
    · simpa using c'.unsubscribe_owed_le x _ none
    · exact Nat.le_of_eq (c'.still_owed x)
  · split
    · simpa using c.unpublish_owed_le x _ none
    · exact Nat.le_of_eq (c.still_owed x)

theorem streamFailed_owed_le (cause : Cause) :
    (c.streamFailed cause).owed x ≤ c.pending.claims x := by
  refine Nat.le_trans (Reaction.andThen_owed_le fun c => c.endStreams_owed_le x) ?_
  rw [Reaction.owed, filterMap_map_none fun _ => rfl]
  simp

theorem descriptionFailed_owed_le (cause : Cause) :
    (c.descriptionFailed cause).owed x ≤ c.pending.claims x :=
  Nat.le_trans (Reaction.andThen_owed_le fun c => c.streamFailed_owed_le x cause)
    (c.failPending_owed_le x cause.error)

theorem handshakeFailed_owed_le (error : CallError) :
    (c.handshakeFailed error).owed x ≤ c.pending.claims x :=
  Channel.failPending_owed_le { c with negotiation := _ } x _

variable {c} {stimulus : Stimulus} {reaction : Reaction}

/-- A step owes a call no more than was owed before and what the step has brought. -/
theorem Reacts.owed_le (h : c.Reacts stimulus reaction) :
    reaction.owed x ≤ c.pending.claims x + stimulus.brought.count x := by
  have bare {reaction : Reaction} (h : reaction.owed x ≤ c.pending.claims x) :
      reaction.owed x ≤ c.pending.claims x + stimulus.brought.count x := by omega
  have slots := c.pending.toList_count_le x
  cases h with
  | publishes =>
    refine Nat.le_trans (Nat.le_of_eq (owed_of_silent _ x rfl ?_))
      (c.pending.awaitPublish_claims_le _ x)
    simp [Effect.call?, Task.call?]
  | subscribes =>
    refine Nat.le_trans (Nat.le_of_eq (owed_of_silent _ x rfl ?_))
      (c.pending.awaitSubscribe_claims_le _ x)
    simp [Effect.call?, Task.call?, or_imp, forall_and]
  | unpublishes =>
    simpa [Stimulus.brought, Stimulus.call?, Stimulus.task?] using c.unpublish_owed_le x _ _
  | unsubscribes =>
    simpa [Stimulus.brought, Stimulus.call?, Stimulus.task?] using c.unsubscribe_owed_le x _ _
  | drops => exact bare (c.endStreams_owed_le x)
  | loses => exact bare (streamFailed_owed_le { c with isConnected := false } x _)
  | misreads | fails => exact bare (c.failPending_owed_le x _)
  | deniesPublish | deniesSubscribe => exact bare (c.handshakeFailed_owed_le x _)
  | failsLocal | failsRemote => exact bare (c.descriptionFailed_owed_le x _)
  | refusesPublish | refusesSubscribe | refusesControl | refusesStatistics =>
    exact Nat.le_of_eq (c.refuse_owed x _ _)
  | completes hb => exact bare (owed_le_of_settled x rfl rfl (by simpa [hb] using slots.1))
  | joinsServer hb | joinsMedia hb =>
    exact bare (owed_le_of_settled x rfl rfl (by simpa [hb] using slots.2.1))
  | reports | reportsFailure => exact Nat.le_of_eq (c.owed_of_answered x (fun _ => rfl) _)
  | controls | finishes | failsControl | measures | measuresNothing | measured | unmeasured =>
    exact Nat.le_of_eq (c.owed_of_told x rfl rfl)
  | confirmsPublish | describes =>
    refine bare (Nat.le_of_eq (c.owed_of_silent x rfl ?_))
    simp [Effect.call?, Task.call?, or_imp, forall_and]
  | _ => exact bare (Nat.le_of_eq (c.owed_of_silent x rfl (by simp [Effect.call?, Task.call?])))

end Channel

end MediaSession
