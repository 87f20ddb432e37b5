import MediaSession.Proofs.Aftermath

namespace MediaSession

/-- The envelope that an effect hands to the queue of outgoing messages. -/
@[simp] def Effect.envelope? : Effect → Option SignalingEnvelope
  | .send envelope => some envelope
  | _ => none

/-- The envelopes that a reaction hands to the queue of outgoing messages, in order. -/
def Reaction.sent (reaction : Reaction) : List SignalingEnvelope :=
  reaction.effects.filterMap Effect.envelope?

theorem Reaction.mem_sent {reaction : Reaction} {envelope : SignalingEnvelope} :
    envelope ∈ reaction.sent ↔ .send envelope ∈ reaction.effects := by
  constructor
  · intro h
    obtain ⟨effect, he, hs⟩ := List.mem_filterMap.mp h
    obtain rfl : effect = .send envelope := by cases effect <;> simp_all
    exact he
  · intro h
    exact List.mem_filterMap.mpr ⟨_, h, rfl⟩

def sent (history : List Turn) : List SignalingEnvelope := history.flatMap (·.reaction.sent)

theorem handedOver_append (log more : List Record) :
    handedOver (log ++ more) = handedOver log ++ handedOver more :=
  List.filterMap_append ..

theorem Channel.localApplied_sent (c : Channel) (current : Option SessionDescription) :
    (c.localApplied current).sent = current.toList.map fun description =>
      ⟨c.session, .description description.kind description.sdp⟩ := by
  have hl : (c.bitrateLimits.map Effect.engine).filterMap Effect.envelope? = [] :=
    List.filterMap_eq_nil_iff.mpr (by simp)
  unfold localApplied
  split
  · exact hl
  · simp [Reaction.sent, hl]

namespace Rehearsal

theorem perform_outgoing (r : Rehearsal) (effect : Effect) (h : r.outgoing.worker ≠ .stopped) :
    (r.perform effect).outgoing.worker ≠ .stopped ∧
      handedOver (r.perform effect).log ++ (r.perform effect).outgoing.waiting =
        handedOver r.log ++ r.outgoing.waiting ++ effect.envelope?.toList := by
  cases effect with
  | send envelope =>
    obtain ⟨hs, hw⟩ := WorkQueue.post_of_served h envelope
    refine ⟨hs, ?_⟩
    simp only [perform, send, hw, List.append_assoc, Effect.envelope?, Option.toList_some]
  | engine call =>
    refine ⟨?_, ?_⟩
    · exact (callEngine_frame (fun r => r.outgoing.worker) (fun _ _ => rfl) (fun _ _ => rfl) r
        call).trans_ne h
    · simp only [perform, callEngine]
      split <;> simp [takePlan, note, handedOver, Record.envelope?]
  | _ => exact ⟨h, by simp [perform, post]⟩

/-- These steps have been made meanwhile, and what they have sent stands in the queue behind what
stood there; what has left the queue has been handed over. -/
structure Forwards (r : Rehearsal) (steps : List Turn) (r' : Rehearsal) : Prop where
  served : r'.outgoing.worker ≠ .stopped
  history : r'.history = r.history ++ steps
  order : handedOver r'.log ++ r'.outgoing.waiting =
    handedOver r.log ++ r.outgoing.waiting ++ sent steps

/-- No step has been made. -/
theorem Forwards.of_quiet {r r' : Rehearsal} (hs : r'.outgoing.worker ≠ .stopped)
    (hh : r'.history = r.history) (ho : handedOver r'.log ++ r'.outgoing.waiting =
      handedOver r.log ++ r.outgoing.waiting) : Forwards r [] r' :=
  ⟨hs, by rw [hh, List.append_nil], ho.trans (List.append_nil _).symm⟩

theorem Forwards.trans {r r' r'' : Rehearsal} {steps more : List Turn} (h : Forwards r steps r')
    (h' : Forwards r' more r'') : Forwards r (steps ++ more) r'' := by
  refine ⟨h'.served, by rw [h'.history, h.history, List.append_assoc], ?_⟩
  rw [h'.order, h.order, sent, sent, sent, List.flatMap_append, List.append_assoc]

theorem meet_forwards {r : Rehearsal} (turn : Turn) (h : r.outgoing.worker ≠ .stopped) :
    Forwards r [turn] (r.meet turn) := by
  obtain ⟨hw, ho⟩ := foldl_perform_trace (·.outgoing.worker ≠ .stopped)
    (fun r => handedOver r.log ++ r.outgoing.waiting) perform_outgoing turn.reaction.effects
    { r with channel := some turn.after, history := r.history ++ [turn] } h
  refine ⟨hw, meet_history r turn, ?_⟩
  rw [sent, List.flatMap_singleton]
  exact ho

theorem Change.forwards {r r' : Rehearsal} (h : Change r r') (hs : r.outgoing.worker ≠ .stopped) :
    ∃ steps, Forwards r steps r' := by
  -- An envelope that is handed over goes from the head of the queue to the end of the log.
  have moved {envelope : SignalingEnvelope} {waiting : List SignalingEnvelope}
      (hw : r.outgoing.waiting = envelope :: waiting) :
      handedOver (r.note (.message envelope)).log ++ waiting =
        handedOver r.log ++ r.outgoing.waiting := by
    simp [hw, note, handedOver, Record.envelope?]
  cases h with
  | @call c stimulus caller _ _ =>
    have hm := meet_forwards (r := { r with callers := r.callers ++ [caller] }) ⟨c, stimulus⟩ hs
    exact ⟨_, hm.served, hm.history, hm.order⟩
  | event _ _ _ _ => exact ⟨_, meet_forwards _ hs⟩
  | @drop c _ =>
    have hm := meet_forwards ⟨c, .drop⟩ hs
    exact ⟨_, hm.served, hm.history, hm.order⟩
  | @resume c task answer rest _ _ =>
    have hm := meet_forwards (r := { r with runQueue := rest })
      ⟨c, .answered r.currentLocal task answer⟩ hs
    exact ⟨_, hm.served, hm.history, hm.order⟩
  | hold _ =>
    refine ⟨[], .of_quiet hs rfl ?_⟩
    simp only [note, handedOver_append, handedOver_record, List.append_nil]
  | start _ _ =>
    refine ⟨[], .of_quiet hs rfl ?_⟩
    simp only [note, handedOver_append, handedOver_record, List.append_nil]
  | notify _ _ =>
    refine ⟨[], .of_quiet hs rfl ?_⟩
    simp [note, handedOver, Record.envelope?, List.filterMap_cons]
  | unblock _ => exact ⟨[], .of_quiet (by simp) rfl rfl⟩
  | handOver _ he => exact ⟨[], .of_quiet (by simp) rfl (moved he)⟩
  | block _ he => exact ⟨[], .of_quiet (by simp) rfl (moved he)⟩
  | exhaust _ he => exact ⟨[], .of_quiet (by simp) rfl (by rw [he])⟩
  | _ => exact ⟨[], .of_quiet hs rfl rfl⟩

theorem Changes.forwards {r r' : Rehearsal} (h : Changes r r')
    (hs : r.outgoing.worker ≠ .stopped) : ∃ steps, Forwards r steps r' := by
  induction h with
  | refl => exact ⟨[], .of_quiet hs rfl rfl⟩
  | tail _ hstep ih =>
    obtain ⟨steps, hf⟩ := ih
    obtain ⟨more, hm⟩ := hstep.forwards hf.served
    exact ⟨steps ++ more, hf.trans hm⟩

/-- The queue of outgoing messages is served, first in, first out, and no envelope is lost. -/
structure Dispatches (r : Rehearsal) : Prop where
  served : r.outgoing.worker ≠ .stopped
  order : handedOver r.log ++ r.outgoing.waiting = sent r.history

theorem Dispatches.change {r r' : Rehearsal} (h : Dispatches r) (hr : Change r r') :
    Dispatches r' := by
  obtain ⟨steps, hf⟩ := hr.forwards h.served
  refine ⟨hf.served, ?_⟩
  rw [hf.order, h.order, hf.history, sent, sent, sent, List.flatMap_append]

/-- The envelopes are handed over in the order in which the steps have sent them. -/
theorem play_dispatches (config : ChannelConfig) (usual : Endpoint → Answer)
    (moves : List Move) : Dispatches (play config usual moves) :=
  play_induction ⟨by simp [opening], rfl⟩ (fun _ _ => Dispatches.change) moves

end Rehearsal

end MediaSession
