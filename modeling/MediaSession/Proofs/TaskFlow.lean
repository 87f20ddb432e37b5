import MediaSession.Proofs.Chronicle

namespace MediaSession

/-- The call on the server or the engine that a job makes when its turn comes. -/
def Job.record? : Job → Option Record
  | .start task => some task.record
  | _ => none

/-- The task that a job starts or goes on with. -/
def Job.task? : Job → Option Task
  | .start task => some task
  | .resume task _ => some task
  | _ => none

/-- The call on the server or the engine that an effect asks for. -/
def Effect.record? : Effect → Option Record
  | .spawn task => some task.record
  | .proceed task => some task.record
  | .engine call => some (.engine call)
  | _ => none

/-- The task that an effect hands out. -/
def Effect.task? : Effect → Option Task
  | .spawn task => some task
  | .proceed task => some task
  | _ => none

/-- Whether a record is that of a call on the server or the engine, messages left out. -/
def Record.isCall : Record → Bool
  | .message _ => false
  | .notified _ _ => false
  | _ => true

/-- A class of calls on the server and the engine. -/
def CallClass (p : Record → Bool) : Prop := ∀ record, p record = true → record.isCall = true

theorem CallClass.eq_false {p : Record → Bool} (hp : CallClass p) (record : Record)
    (h : record.isCall = false) : p record = false := by
  cases hr : p record with
  | false => rfl
  | true => simp [hp record hr] at h

def Reaction.asked (reaction : Reaction) : List Record := reaction.effects.filterMap Effect.record?

def Reaction.handed (reaction : Reaction) : List Task := reaction.effects.filterMap Effect.task?

/-- The calls on the server and the engine that the steps ask for. -/
def asked (history : List Turn) : List Record := history.flatMap (·.reaction.asked)

/-- The tasks that the steps hand out. -/
def handed (history : List Turn) : List Task := history.flatMap (·.reaction.handed)

/-- The tasks whose answers the steps meet. -/
def answered (history : List Turn) : List Task := history.filterMap (·.stimulus.task?)

theorem countP_filterMap_cons {α β : Type} (f : α → Option β) (a : α) (xs : List α)
    (p : β → Bool) :
    ((a :: xs).filterMap f).countP p = (f a).toList.countP p + (xs.filterMap f).countP p := by
  cases h : f a with
  | none => simp [h]
  | some b => simp [h, List.countP_cons, Nat.add_comm]

namespace Rehearsal

/-- The tasks that have been handed out and whose answers have not been met yet. -/
def inFlight (r : Rehearsal) : List Task := r.runQueue.filterMap Job.task? ++ r.held

/-- How many calls of a class have been made or wait for their turn. -/
def due (r : Rehearsal) (p : Record → Bool) : Nat :=
  r.log.countP p + (r.runQueue.filterMap Job.record?).countP p

theorem foldl_perform_countP {β : Type} (measure : Rehearsal → Nat) {view : Effect → Option β}
    {p : β → Bool}
    (h : ∀ r effect, measure (r.perform effect) = measure r + (view effect).toList.countP p)
    (effects : List Effect) (r : Rehearsal) :
    measure (effects.foldl perform r) = measure r + (effects.filterMap view).countP p := by
  induction effects generalizing r with
  | nil => rfl
  | cons effect rest ih => rw [List.foldl_cons, ih, h, countP_filterMap_cons, Nat.add_assoc]

theorem perform_due (p : Record → Bool) (r : Rehearsal) (effect : Effect) :
    (r.perform effect).due p = r.due p + effect.record?.toList.countP p := by
  cases effect with
  | post notice =>
    simp only [perform, post, due]
    split <;> simp [Job.record?, Effect.record?, List.filterMap_cons]
  | send envelope =>
    simp only [perform, send, due]
    split <;> simp [Job.record?, Effect.record?, List.filterMap_cons]
  | spawn task => simp [perform, due, Job.record?, Effect.record?, Nat.add_assoc]
  | proceed task =>
    simp only [perform, due, countP_filterMap_cons, Job.record?, Effect.record?]
    omega
  | engine call =>
    simp only [perform, callEngine]
    split <;> simp [takePlan, note, due, Effect.record?, Nat.add_right_comm]

theorem meet_due (p : Record → Bool) (r : Rehearsal) (turn : Turn) :
    (r.meet turn).due p = r.due p + turn.reaction.asked.countP p :=
  foldl_perform_countP (·.due p) (perform_due p) _ _

theorem perform_inFlight (p : Task → Bool) (r : Rehearsal) (effect : Effect) :
    (r.perform effect).inFlight.countP p =
      r.inFlight.countP p + effect.task?.toList.countP p := by
  cases effect with
  | post notice =>
    simp only [perform, post, inFlight]
    split <;> simp [Job.task?, Effect.task?, List.filterMap_cons]
  | send envelope =>
    simp only [perform, send, inFlight]
    split <;> simp [Job.task?, Effect.task?, List.filterMap_cons]
  | spawn task =>
    simp only [perform, inFlight, Effect.task?, Job.task?, List.filterMap_append,
      List.countP_append, countP_filterMap_cons, List.filterMap_nil, List.countP_nil]
    omega
  | proceed task =>
    simp only [perform, inFlight, Effect.task?, Job.task?, List.countP_append,
      countP_filterMap_cons]
    omega
  | engine call =>
    simp only [perform, callEngine]
    split <;> simp [takePlan, note, inFlight, Effect.task?]

theorem meet_inFlight (p : Task → Bool) (r : Rehearsal) (turn : Turn) :
    (r.meet turn).inFlight.countP p =
      r.inFlight.countP p + turn.reaction.handed.countP p :=
  foldl_perform_countP (·.inFlight.countP p) (perform_inFlight p) _ _

/-- The calls that have been made or wait for their turn are those that the steps have asked for. -/
def Recorded (r : Rehearsal) : Prop := ∀ p, CallClass p → r.due p = (asked r.history).countP p

theorem Recorded.of_due {r r' : Rehearsal} (h : Recorded r) (hh : r'.history = r.history)
    (hr : ∀ p, CallClass p → r'.due p = r.due p) : Recorded r' := by
  intro p hp
  rw [hr p hp, h p hp, hh]

theorem Recorded.meet {r : Rehearsal} (h : Recorded r) (turn : Turn) : Recorded (r.meet turn) := by
  intro p hp
  rw [meet_due, h p hp, meet_history]
  simp [MediaSession.asked]

theorem Recorded.change {r r' : Rehearsal} (h : Recorded r) (hr : Change r r') : Recorded r' := by
  cases hr with
  | call caller _ _ => exact Recorded.meet (r := { r with callers := r.callers ++ [caller] }) h _
  | event _ _ _ _ => exact h.meet _
  | @drop c _ => exact (h.meet ⟨c, .drop⟩).of_due rfl fun _ _ => rfl
  | @resume c task answer rest hq _ =>
    have hr : Recorded { r with runQueue := rest } :=
      h.of_due rfl fun p _ => by simp [due, hq, Job.record?, List.filterMap_cons]
    exact hr.meet _
  | arrange _ _ _ _ => exact h
  | release _ _ => exact h.of_due rfl fun p _ => by simp [due, Job.record?]
  | unblock _ => exact h.of_due rfl fun p _ => by simp [due, Job.record?]
  -- Held or answered at once, a call goes from the queue to the log as soon as it starts.
  | hold hq =>
    refine h.of_due rfl fun p _ => ?_
    simp only [due, note, hq, Job.record?, List.countP_append, countP_filterMap_cons,
      Option.toList_some]
    omega
  | start answer hq =>
    refine h.of_due rfl fun p _ => ?_
    simp only [due, note, hq, Job.record?, List.countP_append, countP_filterMap_cons,
      Option.toList_some, Option.toList_none, List.countP_nil]
    omega
  | lapse hq _ => exact h.of_due rfl fun p _ => by simp [due, hq, Job.record?, List.filterMap_cons]
  | notify _ _ =>
    exact h.of_due rfl fun p hp => by simp [due, note, hp.eq_false (.notified _ _) rfl]
  | silence hq _ =>
    exact h.of_due rfl fun p _ => by simp [due, hq, Job.record?, List.filterMap_cons]
  | handOver _ _ =>
    exact h.of_due rfl fun p hp => by simp [due, note, hp.eq_false (.message _) rfl]
  | block hq _ =>
    refine h.of_due rfl fun p hp => ?_
    simp [due, note, hq, Job.record?, List.filterMap_cons, hp.eq_false (.message _) rfl]
  | exhaust hq _ =>
    exact h.of_due rfl fun p _ => by simp [due, hq, Job.record?, List.filterMap_cons]

/-- Every call that a step asks for is made once, or still waits for its turn. -/
theorem play_recorded (config : ChannelConfig) (usual : Endpoint → Answer) (moves : List Move) :
    Recorded (play config usual moves) :=
  play_induction (fun _ _ => rfl) (fun _ _ => Recorded.change) moves

/-- The answered tasks and those in flight have been handed out, each of them once. -/
def Tracked (r : Rehearsal) : Prop :=
  ∀ p : Task → Bool,
    (answered r.history).countP p + r.inFlight.countP p ≤ (handed r.history).countP p

/-- Between two moments all tasks but as many as this go on: each that has come in flight has been
handed out, and each that has left it has been answered. -/
def Balances (p : Task → Bool) (lost : Nat) (r r' : Rehearsal) : Prop :=
  (answered r'.history).countP p + r'.inFlight.countP p + lost + (handed r.history).countP p =
    (answered r.history).countP p + r.inFlight.countP p + (handed r'.history).countP p

theorem Balances.of_inFlight {p : Task → Bool} {lost : Nat} {r r' : Rehearsal}
    (hh : r'.history = r.history) (hr : r'.inFlight.countP p + lost = r.inFlight.countP p) :
    Balances p lost r r' := by
  unfold Balances
  rw [hh]
  omega

theorem Balances.meet {p : Task → Bool} {r₀ r : Rehearsal} {turn : Turn}
    (hh : r₀.history = r.history)
    (hr : r.inFlight.countP p = turn.stimulus.task?.toList.countP p + r₀.inFlight.countP p) :
    Balances p 0 r (r₀.meet turn) := by
  simp only [Balances, meet_inFlight, meet_history, MediaSession.answered, MediaSession.handed,
    List.filterMap_append, List.flatMap_append, List.countP_append, countP_filterMap_cons,
    List.flatMap_singleton, List.filterMap_nil, List.countP_nil, hh]
  omega

theorem Balances.meet_event {p : Task → Bool} {r₀ r : Rehearsal} {turn : Turn}
    (hh : r₀.history = r.history) (hr : r₀.inFlight = r.inFlight)
    (ht : turn.stimulus.task? = none) : Balances p 0 r (r₀.meet turn) :=
  .meet hh (by simp [ht, hr])

theorem Change.balances {r r' : Rehearsal} (hr : Change r r') (p : Task → Bool) :
    ∃ lost, (r.channel ≠ none → lost = 0) ∧ Balances p lost r r' := by
  -- Only an answer that finds no channel is lost.
  have kept {r' : Rehearsal} (h : Balances p 0 r r') :
      ∃ lost, (r.channel ≠ none → lost = 0) ∧ Balances p lost r r' := ⟨0, fun _ => rfl, h⟩
  cases hr with
  | @call c stimulus caller _ hs =>
    have ht : stimulus.task? = none := by
      cases stimulus <;> simp_all [Stimulus.call?, Stimulus.task?]
    exact kept (.meet_event rfl rfl ht)
  | event _ _ ht _ => exact kept (.meet_event rfl rfl ht)
  | @drop c _ =>
    have hm : Balances p 0 r (r.meet ⟨c, .drop⟩) := .meet_event rfl rfl rfl
    exact kept hm
  | resume hq _ =>
    refine kept (.meet rfl ?_)
    simp only [inFlight, hq, Job.task?, Stimulus.task?, List.countP_append,
      countP_filterMap_cons]
    omega
  | arrange _ _ _ _ => exact kept (.of_inFlight rfl rfl)
  | release _ hh =>
    refine kept (.of_inFlight rfl ?_)
    simp only [inFlight, hh, Job.task?, List.filterMap_append, List.countP_append,
      countP_filterMap_cons, List.countP_cons, List.filterMap_nil, List.countP_nil,
      Option.toList_some]
    omega
  | unblock _ => exact kept (.of_inFlight rfl (by simp [inFlight, Job.task?, List.filterMap_cons]))
  | hold hq =>
    refine kept (.of_inFlight rfl ?_)
    simp only [inFlight, hq, Job.task?, List.countP_append, countP_filterMap_cons,
      Option.toList_some]
    omega
  | start answer hq => exact kept (.of_inFlight rfl (by simp [inFlight, note, hq, Job.task?]))
  | @lapse task answer rest hq hc =>
    refine ⟨[task].countP p, fun hn => absurd hc hn, .of_inFlight rfl ?_⟩
    simp only [inFlight, hq, Job.task?, List.countP_append, countP_filterMap_cons,
      Option.toList_some]
    omega
  | notify _ _ => exact kept (.of_inFlight rfl rfl)
  | silence hq _ =>
    exact kept (.of_inFlight rfl (by simp [inFlight, hq, Job.task?, List.filterMap_cons]))
  | handOver _ _ => exact kept (.of_inFlight rfl rfl)
  | block hq _ =>
    exact kept (.of_inFlight rfl (by simp [inFlight, note, hq, Job.task?, List.filterMap_cons]))
  | exhaust hq _ =>
    exact kept (.of_inFlight rfl (by simp [inFlight, hq, Job.task?, List.filterMap_cons]))

theorem Tracked.change {r r' : Rehearsal} (h : Tracked r) (hr : Change r r') : Tracked r' := by
  intro p
  obtain ⟨lost, _, hb⟩ := hr.balances p
  have hp := h p
  unfold Balances at hb
  omega

/-- As long as there is a channel, what has been handed out is answered or in flight. -/
def Accounted (r : Rehearsal) : Prop :=
  r.channel ≠ none → ∀ p : Task → Bool,
    (handed r.history).countP p = (answered r.history).countP p + r.inFlight.countP p

theorem Accounted.change {r r' : Rehearsal} (h : Accounted r) (hr : Change r r') :
    Accounted r' := by
  intro hc p
  have hc' : r.channel ≠ none := fun hn => hc (hr.gone hn).1
  obtain ⟨lost, hl, hb⟩ := hr.balances p
  have hp := h hc' p
  have hz := hl hc'
  unfold Balances at hb
  omega

theorem play_accounted (config : ChannelConfig) (usual : Endpoint → Answer) (moves : List Move) :
    Accounted (play config usual moves) :=
  play_induction (fun _ _ => rfl) (fun _ _ => Accounted.change) moves

/-- When nothing is in flight any more, every task that was handed out has been answered. -/
theorem play_task_answered (config : ChannelConfig) (usual : Endpoint → Answer)
    (moves : List Move) (ha : (play config usual moves).channel ≠ none)
    (hf : (play config usual moves).inFlight = []) {turn : Turn}
    (hm : turn ∈ (play config usual moves).history) {task : Task}
    (ht : task ∈ turn.reaction.handed) :
    ∃ answering ∈ (play config usual moves).history, ∃ current given,
      answering.stimulus = .answered current task given := by
  classical
  have hp := play_accounted config usual moves ha fun other => decide (other = task)
  have hh : task ∈ handed (play config usual moves).history :=
    List.mem_flatMap.mpr ⟨turn, hm, ht⟩
  have hpos : 0 < (handed (play config usual moves).history).countP
      fun other => decide (other = task) :=
    List.countP_pos_iff.mpr ⟨task, hh, by simp⟩
  rw [hf, List.countP_nil] at hp
  obtain ⟨other, ho, he⟩ := List.countP_pos_iff.mp (Nat.lt_of_lt_of_eq hpos hp)
  obtain rfl : other = task := of_decide_eq_true he
  obtain ⟨answering, ham, hs⟩ := List.mem_filterMap.mp ho
  refine ⟨answering, ham, ?_⟩
  cases hst : answering.stimulus with
  | answered current task given =>
    rw [hst] at hs
    obtain rfl := Option.some.inj hs
    exact ⟨current, given, rfl⟩
  | _ =>
    rw [hst] at hs
    cases hs

/-- At every moment of a run the answered tasks have been handed out before, each of them once. -/
theorem play_answered_le (config : ChannelConfig) (usual : Endpoint → Answer) (moves : List Move)
    {past rest : List Turn} (he : (play config usual moves).history = past ++ rest)
    (p : Task → Bool) : (answered past).countP p ≤ (handed past).countP p := by
  refine play_past (P := Tracked)
    (H := fun past => (answered past).countP p ≤ (handed past).countP p)
    (fun _ => by simp [inFlight, opening, MediaSession.answered]) (fun _ _ => Tracked.change)
    (fun r h => Nat.le_trans (Nat.le_add_right _ _) (h p)) moves he

end Rehearsal

end MediaSession
