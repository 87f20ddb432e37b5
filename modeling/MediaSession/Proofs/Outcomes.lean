import MediaSession.Proofs.Chronicle
import MediaSession.Proofs.Owed

namespace MediaSession

/-- The call whose continuation was run, if that is what has been recorded. -/
def Record.told? : Record → Option CallId
  | .notified _ notice => notice.call?
  | _ => none

def Job.call? : Job → Option CallId
  | .start task => task.call?
  | .resume task _ => task.call?
  | _ => none

theorem Task.told?_record (task : Task) : task.record.told? = none := by
  cases task <;> rfl

theorem WorkQueue.post_waiting_count_le (queue : WorkQueue Notice) (notice : Notice)
    (call : CallId) :
    ((queue.post notice).waiting.filterMap Notice.call?).count call ≤
      (queue.waiting.filterMap Notice.call?).count call + notice.call?.toList.count call := by
  unfold post
  split
  · omega
  · cases h : notice.call? <;> simp [h]
  · cases h : notice.call? <;> simp [h]

namespace Rehearsal

/-- How often a call has been told its outcome or will be, the slots of the channel left out. -/
def outside (r : Rehearsal) (call : CallId) : Nat :=
  (r.log.filterMap Record.told?).count call +
    (r.notices.waiting.filterMap Notice.call?).count call +
    (r.runQueue.filterMap Job.call?).count call + (r.held.filterMap Task.call?).count call

/-- How often a call has been told its outcome, will be or may be. -/
def debt (r : Rehearsal) (call : CallId) : Nat :=
  r.outside call + (r.channel.map (·.pending.claims call)).getD 0

theorem perform_outside_le (r : Rehearsal) (effect : Effect) (call : CallId) :
    (r.perform effect).outside call ≤ r.outside call + effect.call?.toList.count call := by
  cases effect with
  | post notice =>
    have h := r.notices.post_waiting_count_le notice call
    simp only [perform, post, outside, Effect.call?] at h ⊢
    split <;> simp [Job.call?, List.filterMap_cons] <;> omega
  | send envelope =>
    simp only [perform, send, outside]
    split <;> simp [Job.call?, List.filterMap_cons]
  | spawn task =>
    simp only [perform, outside, Effect.call?, List.filterMap_append, List.count_append,
      count_filterMap_cons, Job.call?, List.filterMap_nil, List.count_nil]
    omega
  | proceed task =>
    simp only [perform, outside, Effect.call?, count_filterMap_cons, Job.call?]
    omega
  | engine engineCall =>
    simp only [perform, callEngine]
    split <;> simp [takePlan, note, outside, Record.told?, List.filterMap_cons]

theorem meet_outside_le (r : Rehearsal) (turn : Turn) (call : CallId) :
    (r.meet turn).outside call ≤
      r.outside call + (turn.reaction.effects.filterMap Effect.call?).count call := by
  have fold (effects : List Effect) (r : Rehearsal) :
      (effects.foldl perform r).outside call ≤
        r.outside call + (effects.filterMap Effect.call?).count call := by
    induction effects generalizing r with
    | nil => simp
    | cons effect rest ih =>
      have hone := r.perform_outside_le effect call
      have hall := ih (r.perform effect)
      rw [List.foldl_cons, count_filterMap_cons]
      omega
  exact fold turn.reaction.effects _

theorem meet_debt_le (r : Rehearsal) (c : Channel) (stimulus : Stimulus) (call : CallId) :
    (r.meet ⟨c, stimulus⟩).debt call ≤
      r.outside call + c.pending.claims call + stimulus.brought.count call := by
  have hr := r.meet_outside_le ⟨c, stimulus⟩ call
  have hc := (c.meet_reacts stimulus).owed_le call
  simp only [Reaction.owed] at hc
  simp only [debt, meet_channel, Option.map_some, Option.getD_some]
  simp only [Turn.after, Turn.reaction] at hr ⊢
  omega

/-- No call is owed two outcomes, and none is owed to a call that has not been made. -/
def Solvent (r : Rehearsal) : Prop :=
  ∀ call : Nat, r.debt call ≤ if call < r.callers.length then 1 else 0

theorem Solvent.of_debt_le {r r' : Rehearsal} (h : Solvent r) (hc : r'.callers = r.callers)
    (hd : ∀ call, r'.debt call ≤ r.debt call) : Solvent r' := by
  intro call
  rw [hc]
  exact Nat.le_trans (hd call) (h call)

theorem Solvent.call {r : Rehearsal} {c : Channel} {stimulus : Stimulus} (h : Solvent r)
    (caller : Caller Command) (hc : r.channel = some c)
    (hs : stimulus.call? = some r.callers.length) :
    Solvent (meet { r with callers := r.callers ++ [caller] } ⟨c, stimulus⟩) := by
  have ht : stimulus.task? = none := by
    cases stimulus <;> simp_all [Stimulus.call?, Stimulus.task?]
  intro call
  have hm := meet_debt_le { r with callers := r.callers ++ [caller] } c stimulus call
  have hd := h call
  have hb : stimulus.brought.count call = if r.callers.length = call then 1 else 0 := by
    simp [Stimulus.brought, hs, ht, List.count_singleton]
  simp only [debt, hc, Option.map_some, Option.getD_some] at hd
  simp only [meet_callers, List.length_append, List.length_singleton]
  rw [hb] at hm
  simp only [outside] at hd hm
  split at hm <;> split at hd <;> split <;> omega

theorem Solvent.change {r r' : Rehearsal} (h : Solvent r) (hr : Change r r') : Solvent r' := by
  cases hr with
  | call caller hc hs => exact h.call caller hc hs
  | @event c stimulus hc hs ht _ =>
    refine h.of_debt_le (by simp) fun call => ?_
    have hm := r.meet_debt_le c stimulus call
    simpa [debt, hc, Stimulus.brought, hs, ht] using hm
  | @drop c hc =>
    refine h.of_debt_le (by simp) fun call => ?_
    have hm := r.meet_debt_le c .drop call
    change (r.meet ⟨c, .drop⟩).outside call + 0 ≤ r.debt call
    simp only [debt, meet_channel, hc, Option.map_some, Option.getD_some, Stimulus.brought,
      Stimulus.call?, Stimulus.task?, Option.bind_none, Option.toList_none, List.append_nil,
      List.count_nil] at hm ⊢
    omega
  | @resume c task answer rest hq hc =>
    refine h.of_debt_le (by simp) fun call => ?_
    have hm := meet_debt_le { r with runQueue := rest } c (.answered r.currentLocal task answer)
      call
    simp only [debt, hc, Option.map_some, Option.getD_some, outside, hq, count_filterMap_cons,
      Stimulus.brought, Stimulus.call?, Stimulus.task?, Job.call?, Option.bind_some,
      Option.toList_none, List.nil_append] at hm ⊢
    omega
  | arrange _ _ _ _ => exact h
  | @release before task after answer hh =>
    refine h.of_debt_le rfl fun call => ?_
    simp only [debt, outside, hh, List.filterMap_append, List.count_append, count_filterMap_cons,
      Job.call?, List.filterMap_nil, List.count_nil]
    omega
  | unblock _ =>
    refine h.of_debt_le rfl fun call => ?_
    simp [debt, outside, Job.call?, List.filterMap_cons]
  | @hold task rest hq =>
    refine h.of_debt_le rfl fun call => ?_
    simp only [debt, outside, note, hq, List.filterMap_append, List.count_append,
      count_filterMap_cons, task.told?_record, Job.call?, List.filterMap_nil, List.count_nil,
      Option.toList_none]
    omega
  | @start task rest answer hq =>
    refine h.of_debt_le rfl fun call => ?_
    simp [debt, outside, note, hq, Job.call?, task.told?_record, List.filterMap_cons]
  | lapse hq _ =>
    refine h.of_debt_le rfl fun call => ?_
    simp only [debt, outside, hq, count_filterMap_cons]
    omega
  | notify _ hn =>
    refine h.of_debt_le rfl fun call => ?_
    simp only [debt, outside, note, hn, List.filterMap_append, List.count_append,
      count_filterMap_cons, Record.told?, List.filterMap_nil, List.count_nil]
    omega
  | silence hq hn =>
    refine h.of_debt_le rfl fun call => ?_
    simp [debt, outside, hq, hn, Job.call?, List.filterMap_cons]
  | handOver _ _ =>
    refine h.of_debt_le rfl fun call => ?_
    simp [debt, outside, note, Record.told?, List.filterMap_cons]
  | block hq _ =>
    refine h.of_debt_le rfl fun call => ?_
    simp [debt, outside, note, hq, Job.call?, Record.told?, List.filterMap_cons]
  | exhaust hq _ =>
    refine h.of_debt_le rfl fun call => ?_
    simp [debt, outside, hq, Job.call?, List.filterMap_cons]

theorem play_solvent (config : ChannelConfig) (usual : Endpoint → Answer) (moves : List Move) :
    Solvent (play config usual moves) := by
  refine play_induction (fun call => ?_) (fun _ _ => Solvent.change) moves
  simp [debt, outside, opening, PendingCalls.claims]

/-- Whatever happens in a run, no call has two of its continuations run, nor one of them twice. -/
theorem play_told_nodup (config : ChannelConfig) (usual : Endpoint → Answer)
    (moves : List Move) : ((play config usual moves).log.filterMap Record.told?).Nodup := by
  rw [List.nodup_iff_count]
  intro call
  have h := play_solvent config usual moves call
  simp only [debt, outside] at h
  split at h <;> omega

end Rehearsal

end MediaSession
