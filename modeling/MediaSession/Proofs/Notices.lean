import MediaSession.Proofs.Outcomes

namespace MediaSession

/-- The notice that an effect hands to the event queue. -/
@[simp] def Effect.notice? : Effect → Option Notice
  | .post notice => some notice
  | _ => none

/-- The notice that has been delivered, if that is what has been recorded. -/
@[simp] def Record.notice? : Record → Option Notice
  | .notified _ notice => some notice
  | _ => none

/-- The notices that a reaction hands to the event queue, in order. -/
def Reaction.posted (reaction : Reaction) : List Notice := reaction.effects.filterMap Effect.notice?

def posted (history : List Turn) : List Notice := history.flatMap (·.reaction.posted)

def delivered (log : List Record) : List Notice := log.filterMap Record.notice?

@[simp] theorem delivered_append (log more : List Record) :
    delivered (log ++ more) = delivered log ++ delivered more :=
  List.filterMap_append ..

theorem delivered_record (task : Task) : delivered [task.record] = [] := by
  cases task <;> rfl

theorem filterMap_told?_eq (log : List Record) :
    log.filterMap Record.told? = (delivered log).filterMap Notice.call? := by
  rw [delivered, List.filterMap_filterMap]
  refine List.filterMap_congr fun record _ => ?_
  cases record <;> rfl

theorem WorkQueue.post_of_served {queue : WorkQueue α} (h : queue.worker ≠ .stopped) (item : α) :
    (queue.post item).worker ≠ .stopped ∧
      (queue.post item).waiting = queue.waiting ++ [item] := by
  unfold post
  split
  next hs => exact absurd hs h
  next => exact ⟨by simp, rfl⟩
  next => exact ⟨h, rfl⟩

namespace Rehearsal

/-- The event queue is served, first in, first out, and nothing that was posted is lost. -/
structure Announces (r : Rehearsal) : Prop where
  served : r.notices.worker ≠ .stopped
  order : delivered r.log ++ r.notices.waiting = posted r.history

theorem perform_notices (r : Rehearsal) (effect : Effect) (h : r.notices.worker ≠ .stopped) :
    (r.perform effect).notices.worker ≠ .stopped ∧
      delivered (r.perform effect).log ++ (r.perform effect).notices.waiting =
        delivered r.log ++ r.notices.waiting ++ effect.notice?.toList := by
  cases effect with
  | post notice =>
    obtain ⟨hs, hw⟩ := WorkQueue.post_of_served h notice
    refine ⟨hs, ?_⟩
    simp only [perform, post, hw, List.append_assoc, Effect.notice?, Option.toList_some]
  | engine call =>
    refine ⟨?_, ?_⟩
    · exact (callEngine_frame (fun r => r.notices.worker) (fun _ _ => rfl) (fun _ _ => rfl) r
        call).trans_ne h
    · simp only [perform, callEngine]
      split <;> simp [takePlan, note, delivered]
  | _ => exact ⟨h, by simp [perform, send]⟩

theorem Announces.meet {r : Rehearsal} (h : Announces r) (turn : Turn) :
    Announces (r.meet turn) := by
  obtain ⟨hw, ho⟩ := foldl_perform_trace (·.notices.worker ≠ .stopped)
    (fun r => delivered r.log ++ r.notices.waiting) perform_notices turn.reaction.effects
    { r with channel := some turn.after, history := r.history ++ [turn] } h.served
  refine ⟨hw, ?_⟩
  rw [meet_history]
  simp only [posted, List.flatMap_append, List.flatMap_singleton]
  exact ho.trans (congrArg (· ++ turn.reaction.posted) h.order)

theorem Announces.change {r r' : Rehearsal} (h : Announces r) (hr : Change r r') :
    Announces r' := by
  cases hr with
  | call caller _ _ =>
    exact Announces.meet (r := { r with callers := r.callers ++ [caller] }) ⟨h.served, h.order⟩ _
  | event _ _ _ _ => exact h.meet _
  | drop _ => exact ⟨(h.meet _).served, (h.meet _).order⟩
  | @resume c task answer rest _ _ =>
    exact Announces.meet (r := { r with runQueue := rest }) ⟨h.served, h.order⟩ _
  | @hold task rest _ =>
    refine ⟨h.served, ?_⟩
    simpa only [note, delivered_append, delivered_record, List.append_nil] using h.order
  | @start task rest answer _ =>
    refine ⟨h.served, ?_⟩
    simpa only [note, delivered_append, delivered_record, List.append_nil] using h.order
  -- A notice that is delivered goes from the head of the queue to the end of the log.
  | notify _ hn =>
    have ho := h.order
    rw [hn] at ho
    exact ⟨by simp [note], by simpa [note, delivered] using ho⟩
  | silence _ hn => exact ⟨by simp, by simpa [hn] using h.order⟩
  | handOver _ _ =>
    exact ⟨h.served, by simpa [note, delivered, List.filterMap_cons] using h.order⟩
  | block _ _ => exact ⟨h.served, by simpa [note, delivered, List.filterMap_cons] using h.order⟩
  | _ => exact ⟨h.served, h.order⟩

/-- The worker of the event queue has its turn in the run queue, or nothing waits for it. -/
def Attended (r : Rehearsal) : Prop := .notices ∈ r.runQueue ∨ r.notices = { worker := .idle }

theorem Attended.of_tail {r : Rehearsal} {job : Job} {rest : List Job} (h : Attended r)
    (hq : r.runQueue = job :: rest) (hj : job ≠ .notices) :
    Attended { r with runQueue := rest } := by
  rcases h with hm | hi
  · rw [hq] at hm
    exact Or.inl ((List.mem_cons.mp hm).resolve_left hj.symm)
  · exact Or.inr hi

theorem Attended.perform {r : Rehearsal} (h : Attended r) (effect : Effect) :
    Attended (r.perform effect) := by
  cases effect with
  | post notice =>
    rcases h with hm | hi
    · exact Or.inl (List.mem_append_left _ hm)
    · have hw : r.notices.wakes = true := by
        rw [hi]
        rfl
      have hj : Job.notices ∈ r.runQueue ++ if r.notices.wakes then [.notices] else [] := by
        simp [hw]
      exact Or.inl hj
  | send envelope => exact h.imp_left (List.mem_append_left _)
  | spawn task => exact h.imp_left (List.mem_append_left _)
  | proceed task => exact h.imp_left (List.mem_cons_of_mem _)
  | engine call =>
    have hf := callEngine_frame Attended (fun _ _ => rfl) (fun _ _ => rfl) r call
    exact hf.mpr h

theorem Attended.meet {r : Rehearsal} (h : Attended r) (turn : Turn) : Attended (r.meet turn) :=
  List.foldlRecOn turn.reaction.effects Rehearsal.perform h fun _ hr effect _ => hr.perform effect

theorem Attended.change {r r' : Rehearsal} (h : Attended r) (hr : Change r r') : Attended r' := by
  cases hr with
  | call caller _ _ => exact Attended.meet (r := { r with callers := r.callers ++ [caller] }) h _
  | event _ _ _ _ => exact h.meet _
  | @drop c _ => exact h.meet ⟨c, .drop⟩
  | resume hq _ => exact (h.of_tail hq (by simp)).meet _
  | arrange _ _ _ _ => exact h
  | release _ _ => exact h.imp_left (List.mem_append_left _)
  | unblock _ => exact h.imp_left (List.mem_append_left _)
  | hold hq => exact h.of_tail hq (by simp)
  | start _ hq => exact (h.of_tail hq (by simp)).imp_left (List.mem_cons_of_mem _)
  | lapse hq _ => exact h.of_tail hq (by simp)
  -- The worker keeps its turn until it finds nothing.
  | notify hq _ => exact Or.inl (hq ▸ List.mem_cons_self)
  | silence _ _ => exact Or.inr rfl
  | handOver _ _ => exact h
  | block hq _ => exact h.of_tail hq (by simp)
  | exhaust hq _ => exact h.of_tail hq (by simp)

variable (config : ChannelConfig) (usual : Endpoint → Answer) (moves : List Move)

/-- The notices are delivered in the order in which the steps have posted them, none is left out. -/
theorem play_announces : Announces (play config usual moves) :=
  play_induction ⟨by simp [opening], rfl⟩ (fun _ _ => Announces.change) moves

theorem play_attended : Attended (play config usual moves) :=
  play_induction (Or.inr rfl) (fun _ _ => Attended.change) moves

/-- When nothing is left to do, everything that was posted has been delivered. -/
theorem play_delivered (hq : (play config usual moves).runQueue = []) :
    delivered (play config usual moves).log = posted (play config usual moves).history := by
  have hw : (play config usual moves).notices = { worker := .idle } := by
    rcases play_attended config usual moves with hm | hi
    · simp [hq] at hm
    · exact hi
  rw [← (play_announces config usual moves).order, hw, List.append_nil]

/-- The steps of a run post no more than one outcome of the same call. -/
theorem play_posted_nodup :
    ((posted (play config usual moves).history).filterMap Notice.call?).Nodup := by
  rw [List.nodup_iff_count]
  intro call
  have h := play_solvent config usual moves call
  simp only [debt, outside, filterMap_told?_eq] at h
  rw [← (play_announces config usual moves).order, List.filterMap_append, List.count_append]
  split at h <;> omega

end Rehearsal

/-- A call whose outcome is posted here is told nothing else. -/
theorem filter_call_eq_singleton {notices : List Notice} {notice : Notice} {call : CallId}
    (hn : (notices.filterMap Notice.call?).Nodup) (hm : notice ∈ notices)
    (hc : notice.call? = some call) :
    notices.filter (fun other => other.call? == some call) = [notice] := by
  obtain ⟨before, after, rfl⟩ := List.append_of_mem hm
  rw [List.filterMap_append, List.filterMap_cons, hc] at hn
  have hnot := (List.nodup_middle.mp hn).notMem
  have none_left (others : List Notice) (ho : call ∉ others.filterMap Notice.call?) :
      others.filter (fun other => other.call? == some call) = [] := by
    refine List.filter_eq_nil_iff.mpr fun other hmem he => ho ?_
    exact List.mem_filterMap.mpr ⟨other, hmem, by simpa using he⟩
  simp only [List.mem_append, not_or] at hnot
  rw [List.filter_append, List.filter_cons, none_left before hnot.1, none_left after hnot.2]
  simp [hc]

end MediaSession
