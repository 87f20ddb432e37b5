import MediaSession.Proofs.TaskFlow

namespace MediaSession

/-- The record of a call that the channel makes at once. -/
def Effect.prompt? : Effect → Option Record
  | .engine call => some (.engine call)
  | _ => none

/-- The records of the calls that are made in the step itself. -/
def Reaction.prompt (reaction : Reaction) : List Record := reaction.effects.filterMap Effect.prompt?

/-- The task with whose answer a job goes on. -/
def Job.resumed? : Job → Option Task
  | .resume task _ => some task
  | _ => none

namespace Rehearsal

theorem meet_log (r : Rehearsal) (turn : Turn) :
    (r.meet turn).log = r.log ++ turn.reaction.prompt := by
  refine (foldl_perform_trace (fun _ => True) log (fun r effect _ => ⟨trivial, ?_⟩) _ _ trivial).2
  cases effect with
  | engine call =>
    simp only [perform, callEngine]
    split <;> simp [takePlan, note, Effect.prompt?]
  | _ => simp [perform, post, send, Effect.prompt?]

/-- What is added to the log: the prompt calls of a step, or one record of something that had to
wait for its turn. -/
theorem Change.log {r r' : Rehearsal} (h : Change r r') :
    (∃ turn, r'.history = r.history ++ [turn] ∧ r'.log = r.log ++ turn.reaction.prompt) ∨
      r'.history = r.history ∧ (r'.log = r.log ∨ ∃ record, r'.log = r.log ++ [record] ∧
        ((∃ task, record = Task.record task) ∨ record.isCall = false)) := by
  cases h with
  | call _ _ _ => exact Or.inl ⟨_, meet_history _ _, meet_log _ _⟩
  | event _ _ _ _ => exact Or.inl ⟨_, meet_history _ _, meet_log _ _⟩
  | drop _ => exact Or.inl ⟨_, meet_history _ _, meet_log _ _⟩
  | resume _ _ => exact Or.inl ⟨_, meet_history _ _, meet_log _ _⟩
  | hold _ => exact Or.inr ⟨rfl, Or.inr ⟨_, rfl, Or.inl ⟨_, rfl⟩⟩⟩
  | start _ _ => exact Or.inr ⟨rfl, Or.inr ⟨_, rfl, Or.inl ⟨_, rfl⟩⟩⟩
  | notify _ _ => exact Or.inr ⟨rfl, Or.inr ⟨_, rfl, Or.inr rfl⟩⟩
  | handOver _ _ => exact Or.inr ⟨rfl, Or.inr ⟨_, rfl, Or.inr rfl⟩⟩
  | block _ _ => exact Or.inr ⟨rfl, Or.inr ⟨_, rfl, Or.inr rfl⟩⟩
  | _ => exact Or.inr ⟨rfl, Or.inl rfl⟩

/-- The tasks that are under way: they have been started, and their answers have not been met. -/
def underWay (r : Rehearsal) : List Task := r.runQueue.filterMap Job.resumed? ++ r.held

theorem meet_underWay (r : Rehearsal) (turn : Turn) : (r.meet turn).underWay = r.underWay := by
  refine foldl_perform_frame underWay (fun r effect => ?_) _ _
  cases effect with
  | engine call => exact callEngine_frame underWay (fun _ _ => rfl) (fun _ _ => rfl) r call
  | post notice =>
    simp only [perform, post, underWay]
    split <;> simp [Job.resumed?, List.filterMap_cons]
  | send envelope =>
    simp only [perform, send, underWay]
    split <;> simp [Job.resumed?, List.filterMap_cons]
  | spawn task => simp [perform, underWay, Job.resumed?]
  | proceed task => simp [perform, underWay, Job.resumed?, List.filterMap_cons]

/-- The tasks that have been answered or are under way have been called. -/
def Called (r : Rehearsal) : Prop :=
  ∀ p : Record → Bool, (answered r.history).countP (fun task => p task.record) +
    r.underWay.countP (fun task => p task.record) ≤ r.log.countP p

theorem Called.meet {r₀ r : Rehearsal} {turn : Turn} (h : Called r)
    (hh : r₀.history = r.history) (hl : r₀.log = r.log)
    (hw : ∀ p : Task → Bool, r.underWay.countP p =
      turn.stimulus.task?.toList.countP p + r₀.underWay.countP p) : Called (r₀.meet turn) := by
  intro p
  have hp := h p
  rw [hw] at hp
  simp only [meet_underWay, meet_history, meet_log, MediaSession.answered, List.filterMap_append,
    List.countP_append, countP_filterMap_cons, List.filterMap_nil, List.countP_nil, hh, hl]
    at hp ⊢
  omega

theorem Called.meet_event {r₀ r : Rehearsal} {turn : Turn} (h : Called r)
    (hh : r₀.history = r.history) (hl : r₀.log = r.log) (hw : r₀.underWay = r.underWay)
    (ht : turn.stimulus.task? = none) : Called (r₀.meet turn) :=
  h.meet hh hl fun p => by simp [ht, hw]

theorem Called.change {r r' : Rehearsal} (h : Called r) (hr : Change r r') : Called r' := by
  cases hr with
  | @call c stimulus caller _ hs =>
    have ht : stimulus.task? = none := by
      cases stimulus <;> simp_all [Stimulus.call?, Stimulus.task?]
    exact h.meet_event rfl rfl rfl ht
  | event _ _ ht _ => exact h.meet_event rfl rfl rfl ht
  | @drop c _ =>
    have hm : Called (r.meet ⟨c, .drop⟩) := h.meet_event rfl rfl rfl rfl
    exact hm
  | resume hq _ =>
    refine h.meet rfl rfl fun p => ?_
    simp only [underWay, hq, Job.resumed?, Stimulus.task?, List.countP_append,
      countP_filterMap_cons]
    omega
  | arrange _ _ _ _ => exact h
  | release _ hh =>
    intro p
    have hp := h p
    simp only [underWay, hh, Job.resumed?, List.filterMap_append, List.countP_append,
      countP_filterMap_cons, List.countP_cons, List.filterMap_nil, List.countP_nil,
      Option.toList_some] at hp ⊢
    omega
  | unblock _ => exact fun p => by simpa [underWay, Job.resumed?, List.filterMap_cons] using h p
  -- A call is recorded when its task leaves the head of the queue.
  | hold hq =>
    intro p
    have hp := h p
    simp only [underWay, note, hq, Job.resumed?, List.countP_append, countP_filterMap_cons,
      List.countP_cons, List.countP_nil, Option.toList_none] at hp ⊢
    omega
  | start answer hq =>
    intro p
    have hp := h p
    simp only [underWay, note, hq, Job.resumed?, List.countP_append, countP_filterMap_cons,
      List.countP_cons, List.countP_nil, Option.toList_none, Option.toList_some] at hp ⊢
    omega
  | lapse hq _ =>
    intro p
    have hp := h p
    simp only [underWay, hq, Job.resumed?, List.countP_append, countP_filterMap_cons] at hp ⊢
    omega
  | notify _ _ =>
    intro p
    have hp := h p
    simp only [underWay, note, List.countP_append] at hp ⊢
    omega
  | silence hq _ =>
    exact fun p => by simpa [underWay, hq, Job.resumed?, List.filterMap_cons] using h p
  | handOver _ _ =>
    intro p
    have hp := h p
    simp only [underWay, note, List.countP_append] at hp ⊢
    omega
  | block hq _ =>
    intro p
    have hp := h p
    simp only [underWay, note, hq, Job.resumed?, List.countP_append, countP_filterMap_cons,
      Option.toList_none, List.countP_nil] at hp ⊢
    omega
  | exhaust hq _ =>
    exact fun p => by simpa [underWay, hq, Job.resumed?, List.filterMap_cons] using h p

theorem Called.start (config : ChannelConfig) (usual : Endpoint → Answer) :
    Called (opening config usual) :=
  fun p => by simp [underWay, opening, MediaSession.answered]

theorem Called.mem_log {r : Rehearsal} (h : Called r) {task : Task} (ht : task ∈ r.underWay) :
    task.record ∈ r.log := by
  classical
  have hp := h fun record => decide (record = task.record)
  have hw : 0 < r.underWay.countP fun other => decide (other.record = task.record) :=
    List.countP_pos_iff.mpr ⟨task, ht, by simp⟩
  have hl : 0 < r.log.countP fun record => decide (record = task.record) := by omega
  obtain ⟨record, hm, he⟩ := List.countP_pos_iff.mp hl
  exact of_decide_eq_true he ▸ hm

/-- A task is under way when it is answered. -/
theorem Change.underWay_of_task {r r' : Rehearsal} (h : Change r r') {turn : Turn}
    (hh : r'.history = r.history ++ [turn]) {task : Task}
    (ht : turn.stimulus.task? = some task) : task ∈ r.underWay := by
  cases h with
  | @call c stimulus caller _ hs =>
    obtain rfl : ⟨c, stimulus⟩ = turn := by simpa using hh
    cases stimulus <;> simp_all [Stimulus.call?, Stimulus.task?]
  | @event c stimulus _ _ hn _ =>
    obtain rfl : ⟨c, stimulus⟩ = turn := by simpa using hh
    rw [hn] at ht
    cases ht
  | @drop c _ =>
    obtain rfl : ⟨c, .drop⟩ = turn := by simpa using hh
    cases ht
  | @resume c resumed answer rest hq _ =>
    obtain rfl : ⟨c, .answered r.currentLocal resumed answer⟩ = turn := by simpa using hh
    obtain rfl := Option.some.inj ht
    exact List.mem_append_left _ (by simp [hq, Job.resumed?])
  | _ => simp [note] at hh

/-- The prompt calls of every step stand in the log without a gap, after the call it answers. -/
def Logged (r : Rehearsal) : Prop :=
  ∀ past turn rest, r.history = past ++ turn :: rest →
    ∃ before after, r.log = before ++ (turn.reaction.prompt ++ after) ∧
      ∀ task, turn.stimulus.task? = some task → task.record ∈ before

theorem Logged.change {r r' : Rehearsal} (h : Logged r) (hk : Called r) (hr : Change r r') :
    Logged r' := by
  intro past turn rest he
  -- What is added to the log later comes after it.
  have later {more : List Record} {rest : List Turn} (hl : r'.log = r.log ++ more)
      (he : r.history = past ++ turn :: rest) :
      ∃ before after, r'.log = before ++ (turn.reaction.prompt ++ after) ∧
        ∀ task, turn.stimulus.task? = some task → task.record ∈ before := by
    obtain ⟨before, after, hb, ht⟩ := h past turn rest he
    exact ⟨before, after ++ more, by simp [hl, hb], ht⟩
  rcases hr.log with ⟨last, hh, hl⟩ | ⟨hh, hl | ⟨record, hl, _⟩⟩
  · rcases snoc_eq_append_cons (hh.symm.trans he) with ⟨_, rfl, _⟩ | ⟨between, _, hp⟩
    · exact ⟨r.log, [], by simp [hl], fun task ht => hk.mem_log (hr.underWay_of_task hh ht)⟩
    · exact later hl hp
  · exact later (hl.trans (List.append_nil _).symm) (hh.symm.trans he)
  · exact later hl (hh.symm.trans he)

theorem play_logged (config : ChannelConfig) (usual : Endpoint → Answer) (moves : List Move) :
    Logged (play config usual moves) := by
  refine (play_induction (P := fun r => Called r ∧ Logged r) ⟨.start config usual, ?_⟩ ?_ moves).2
  · intro past turn rest he
    simp [opening] at he
  · intro r r' h hr
    exact ⟨h.1.change hr, h.2.change h.1 hr⟩

end Rehearsal

end MediaSession
