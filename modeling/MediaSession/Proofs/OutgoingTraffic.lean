import MediaSession.Proofs.Dispatch

namespace MediaSession

/-- The turn of the worker that hands outgoing messages over. -/
def Job.isOutgoing : Job → Bool
  | .outgoing => true
  | _ => false

/-- What may happen while the run queue is served: somebody else submits an envelope, or the
rehearsal makes a move. -/
inductive Traffic where
  | send (envelope : SignalingEnvelope)
  | move (move : Move)

namespace Rehearsal

def pass (r : Rehearsal) : Traffic → Rehearsal
  | .send envelope => r.send envelope
  | .move move => r.move move

def carry (r : Rehearsal) (traffic : List Traffic) : Rehearsal := traffic.foldl pass r

/-- The envelopes that are enqueued next, by others or by the steps of the channel. -/
def submits (r : Rehearsal) : Traffic → List SignalingEnvelope
  | .send envelope => [envelope]
  | .move move => sent ((r.move move).history.drop r.history.length)

def submitted (r : Rehearsal) : List Traffic → List SignalingEnvelope
  | [] => []
  | next :: rest => r.submits next ++ (r.pass next).submitted rest

/-- The endpoints at which held calls are answered next, by a command or by what a continuation
does once it has been told. -/
def releases (r : Rehearsal) : Traffic → List Endpoint
  | .move (.command command) => command.releases
  | .move .turn =>
    match r.runQueue, r.notices.waiting with
    | .notices :: _, notice :: _ => releasesAll (r.followUps notice).2
    | _, _ => []
  | _ => []

/-- No message is answered meanwhile. -/
def Unanswered (r : Rehearsal) : List Traffic → Prop
  | [] => True
  | next :: rest => .message ∉ r.releases next ∧ (r.pass next).Unanswered rest

/-- The worker has its turn in the run queue exactly when it is due, and no envelope waits for an
idle worker. -/
structure Tended (r : Rehearsal) : Prop where
  served : r.outgoing.worker ≠ .stopped
  turns : r.runQueue.countP Job.isOutgoing = if r.outgoing.worker = .due then 1 else 0
  idle : r.outgoing.worker = .idle → r.outgoing.waiting = []

section Tended

variable {r r' : Rehearsal}

theorem Tended.of_eq (h : Tended r) (ho : r'.outgoing = r.outgoing)
    (hq : r'.runQueue.countP Job.isOutgoing = r.runQueue.countP Job.isOutgoing) : Tended r' :=
  ⟨ho ▸ h.served, by rw [hq, ho, h.turns], ho ▸ h.idle⟩

theorem Tended.due {rest : List Job} (h : Tended r) (hq : r.runQueue = .outgoing :: rest) :
    r.outgoing.worker = .due ∧ rest.countP Job.isOutgoing = 0 := by
  have ht := h.turns
  rw [hq, List.countP_cons_of_pos rfl] at ht
  split at ht
  next hd => exact ⟨hd, by omega⟩
  next => omega

theorem Tended.send (h : Tended r) (envelope : SignalingEnvelope) : Tended (r.send envelope) := by
  have ht := h.turns
  obtain ⟨hs, _⟩ := WorkQueue.post_of_served h.served envelope
  refine ⟨hs, ?_, ?_⟩
  · -- The worker gets a turn when it is woken, and has kept it otherwise.
    cases hw : r.outgoing.worker <;>
      simp_all [Rehearsal.send, WorkQueue.post, WorkQueue.wakes, Job.isOutgoing]
  · intro hi
    cases hw : r.outgoing.worker <;>
      simp_all [Rehearsal.send, WorkQueue.post]

theorem Tended.perform (h : Tended r) (effect : Effect) : Tended (r.perform effect) := by
  cases effect with
  | send envelope => exact h.send envelope
  | post notice =>
    refine h.of_eq rfl ?_
    simp only [Rehearsal.perform, post]
    split <;> simp [Job.isOutgoing]
  | spawn task => exact h.of_eq rfl (by simp [Rehearsal.perform, Job.isOutgoing])
  | proceed task => exact h.of_eq rfl (by simp [Rehearsal.perform, Job.isOutgoing])
  | engine call =>
    refine h.of_eq (callEngine_frame outgoing (fun _ _ => rfl) (fun _ _ => rfl) r call) ?_
    exact congrArg _ (callEngine_frame runQueue (fun _ _ => rfl) (fun _ _ => rfl) r call)

theorem Tended.meet (h : Tended r) (turn : Turn) : Tended (r.meet turn) :=
  List.foldlRecOn turn.reaction.effects Rehearsal.perform (h.of_eq rfl rfl)
    fun _ hr effect _ => hr.perform effect

theorem Tended.of_tail {job : Job} {rest : List Job} (h : Tended r)
    (hq : r.runQueue = job :: rest) (hj : job.isOutgoing = false) :
    Tended { r with runQueue := rest } :=
  h.of_eq rfl (by simp [hq, hj])

theorem Tended.change (h : Tended r) (hr : Change r r') : Tended r' := by
  cases hr with
  | call caller _ _ =>
    exact Tended.meet (r := { r with callers := r.callers ++ [caller] }) (h.of_eq rfl rfl) _
  | event _ _ _ _ => exact h.meet _
  | @drop c _ => exact (h.meet ⟨c, .drop⟩).of_eq rfl rfl
  | resume hq _ => exact (h.of_tail hq rfl).meet _
  | arrange _ _ _ _ => exact h.of_eq rfl rfl
  | release _ _ => exact h.of_eq rfl (by simp [Job.isOutgoing])
  | hold hq => exact (h.of_tail hq rfl).of_eq rfl rfl
  | start _ hq => exact (h.of_tail hq rfl).of_eq rfl (by simp [Job.isOutgoing])
  | lapse hq _ => exact h.of_tail hq rfl
  | notify _ _ => exact h.of_eq rfl rfl
  | silence hq _ => exact (h.of_tail hq rfl).of_eq rfl rfl
  | unblock hb =>
    have ht := h.turns
    refine ⟨by simp, ?_, by simp⟩
    simp only [List.countP_append, ht, hb]
    rfl
  -- The worker keeps its turn as long as it gets its answers at once.
  | handOver hq _ =>
    refine ⟨by simp, ?_, by simp⟩
    have ht := h.turns
    rw [(h.due hq).1] at ht
    exact ht
  | block hq _ => exact ⟨by simp, (h.due hq).2, by simp⟩
  | exhaust hq _ => exact ⟨by simp, (h.due hq).2, fun _ => rfl⟩

theorem Tended.changes (h : Tended r) (hr : Changes r r') : Tended r' := by
  induction hr with
  | refl => exact h
  | tail _ hstep ih => exact ih.change hstep

theorem Tended.pass (h : Tended r) (next : Traffic) : Tended (r.pass next) := by
  cases next with
  | send envelope => exact h.send envelope
  | move move => exact h.changes (r.move_changes move)

theorem Tended.carry (h : Tended r) (traffic : List Traffic) : Tended (r.carry traffic) :=
  List.foldlRecOn traffic Rehearsal.pass h fun _ hr next _ => hr.pass next

end Tended

/-- Nothing has been handed over meanwhile, and unless messages have been answered, a worker that
waited for an answer still waits for it. -/
structure Withheld (answered : Endpoint → Prop) (r r' : Rehearsal) : Prop where
  handed : handedOver r'.log = handedOver r.log
  blocked : ¬ answered .message → r.outgoing.worker = .blocked → r'.outgoing.worker = .blocked

section Withheld

variable {answered : Endpoint → Prop} {r r' r'' : Rehearsal}

theorem Withheld.refl (r : Rehearsal) : Withheld answered r r := ⟨rfl, fun _ hb => hb⟩

theorem Withheld.trans (h : Withheld answered r r') (h' : Withheld answered r' r'') :
    Withheld answered r r'' :=
  ⟨h'.handed.trans h.handed, fun ha hb => h'.blocked ha (h.blocked ha hb)⟩

theorem Withheld.of_eq (hl : handedOver r'.log = handedOver r.log)
    (ho : r'.outgoing = r.outgoing) : Withheld answered r r' :=
  ⟨hl, fun _ hb => ho ▸ hb⟩

theorem send_withheld (r : Rehearsal) (envelope : SignalingEnvelope) :
    Withheld answered r (r.send envelope) := by
  refine ⟨rfl, fun _ hb => ?_⟩
  simp [send, WorkQueue.post, hb]

theorem perform_withheld (r : Rehearsal) (effect : Effect) :
    Withheld answered r (r.perform effect) := by
  cases effect with
  | send envelope => exact r.send_withheld envelope
  | engine call =>
    refine .of_eq ?_ (callEngine_frame outgoing (fun _ _ => rfl) (fun _ _ => rfl) r call)
    simp only [perform, callEngine]
    split <;> simp [takePlan, note, handedOver, Record.envelope?]
  | _ => exact .of_eq rfl rfl

theorem meet_withheld (r : Rehearsal) (turn : Turn) : Withheld answered r (r.meet turn) :=
  List.foldlRecOn turn.reaction.effects perform (.of_eq rfl rfl)
    fun _ hr effect _ => hr.trans (perform_withheld _ effect)

theorem Act.withheld (h : Act answered r r') : Withheld answered r r' := by
  cases h with
  | @call c stimulus caller _ _ =>
    have hm : Withheld answered _ _ :=
      meet_withheld { r with callers := r.callers ++ [caller] } ⟨c, stimulus⟩
    exact ⟨hm.handed, hm.blocked⟩
  | event _ _ _ _ => exact r.meet_withheld _
  | @drop c _ =>
    have hm : Withheld answered _ _ := r.meet_withheld ⟨c, .drop⟩
    exact ⟨hm.handed, hm.blocked⟩
  | arrange _ _ _ => exact .of_eq rfl rfl
  | release endpoint answer ha =>
    unfold Rehearsal.release
    split
    next he =>
      -- Only the answer to a message wakes a worker that waits for it.
      subst he
      split
      next => exact ⟨rfl, fun hn => absurd ha hn⟩
      next => exact .refl r
    next => split <;> exact .of_eq rfl rfl

theorem Acts.withheld (h : Acts answered r r') : Withheld answered r r' := by
  induction h with
  | refl => exact .refl r
  | tail _ hact ih => exact ih.trans hact.withheld

theorem answer_withheld (r : Rehearsal) (task : Task) (given : Answer) :
    Withheld answered r (r.answer task given) := by
  obtain ⟨localDescription, hk⟩ := r.keepLocal_eq task given
  unfold answer
  simp only [hk]
  split
  next c _ =>
    have hk : Withheld answered r { r with localDescription } := .of_eq rfl rfl
    exact hk.trans (meet_withheld _ _)
  next => exact .of_eq rfl rfl

theorem tick_withheld (ht : r.tick = some r') (hq : ∀ rest, r.runQueue ≠ .outgoing :: rest)
    (ha : ∀ endpoint ∈ r.releases (.move .turn), answered endpoint) : Withheld answered r r' := by
  unfold tick at ht
  split at ht
  next => simp at ht
  next task rest _ =>
    obtain rfl := Option.some.inj ht
    have hn : Withheld answered r
        ((note { r with runQueue := rest } task.record).takePlan task.endpoint).2 := by
      refine .of_eq ?_ rfl
      simp only [takePlan, note, handedOver_append, handedOver_record, List.append_nil]
    unfold follow
    split
    next => exact ⟨hn.handed, hn.blocked⟩
    next given _ => exact hn.trans (answer_withheld _ task given)
  next task given rest _ =>
    obtain rfl := Option.some.inj ht
    have hr : Withheld answered r { r with runQueue := rest } := .of_eq rfl rfl
    exact hr.trans (answer_withheld _ task given)
  next rest hn =>
    split at ht
    next =>
      obtain rfl := Option.some.inj ht
      exact .of_eq rfl rfl
    next notice waiting hw =>
      obtain rfl := Option.some.inj ht
      simp only [releases, hn, hw] at ha
      have hd : Withheld answered r (note { r with notices := { waiting, worker := .due } }
          (.notified (r.followUps notice).1 notice)) := by
        refine .of_eq ?_ rfl
        simp [note, handedOver, Record.envelope?]
      exact hd.trans (follow_acts _ _ ha).withheld
  next rest hn => exact absurd hn (hq rest)

theorem pass_withheld (next : Traffic)
    (hq : next = .move .turn → ∀ rest, r.runQueue ≠ .outgoing :: rest) :
    Withheld (· ∈ r.releases next) r (r.pass next) := by
  cases next with
  | send envelope => exact r.send_withheld envelope
  | move move =>
    simp only [pass, Rehearsal.move]
    cases move with
    | command command => exact (command.execute_acts r fun _ he => he).withheld
    | turn =>
      cases ht : r.tick with
      | none => exact .refl r
      | some r' => exact tick_withheld ht (hq rfl) fun _ he => he
    | answer position given =>
      simp only
      split
      next => exact .of_eq rfl rfl
      next => exact .refl r

end Withheld

/-- The envelope that has waited longest is handed over. The worker waits for the answer if that is
held back, and goes on otherwise, whatever the answer is. -/
structure HandsOver (r r' : Rehearsal) (envelope : SignalingEnvelope) : Prop where
  due : r.outgoing.worker = .due
  waiting : r.outgoing.waiting = envelope :: r'.outgoing.waiting
  handed : handedOver r'.log = handedOver r.log ++ [envelope]
  held : (r.takePlan .message).1 = .hold → r'.outgoing.worker = .blocked
  answered : ∀ answer, (r.takePlan .message).1 = .answer answer → r'.outgoing.worker = .due

theorem handOver_hands {r : Rehearsal} {rest : List Job} {envelope : SignalingEnvelope}
    {waiting : List SignalingEnvelope} (hd : r.outgoing.worker = .due)
    (hw : r.outgoing.waiting = envelope :: waiting) :
    HandsOver r (r.handOver rest) envelope := by
  have hr : handedOver (r.log ++ [.message envelope]) = handedOver r.log ++ [envelope] :=
    handedOver_append ..
  unfold handOver
  simp only [hw]
  split
  next heq =>
    obtain ⟨hp, rfl⟩ := Prod.mk.inj heq
    have hp : (r.takePlan .message).1 = .hold := hp
    exact ⟨hd, hw, hr, fun _ => rfl, fun _ ha => absurd (hp.symm.trans ha) (by simp)⟩
  next heq =>
    obtain ⟨hp, rfl⟩ := Prod.mk.inj heq
    have hp : (r.takePlan .message).1 = .answer _ := hp
    exact ⟨hd, hw, hr, fun hh => absurd (hp.symm.trans hh) (by simp), fun _ _ => rfl⟩

theorem release_resumes {r : Rehearsal} (hb : r.outgoing.worker = .blocked) (answer : Answer) :
    (r.pass (.move (.command (.release .message answer)))).outgoing =
      { r.outgoing with worker := .due } := by
  simp only [Rehearsal.pass, Rehearsal.move, Command.execute, Rehearsal.release, hb, ↓reduceIte]

namespace Tended

variable {r : Rehearsal}

theorem step (h : Tended r) (next : Traffic) :
    handedOver (r.pass next).log = handedOver r.log ∨
      next = .move .turn ∧ ∃ envelope, HandsOver r (r.pass next) envelope := by
  by_cases hn : next = .move .turn ∧ ∃ rest, r.runQueue = .outgoing :: rest
  · obtain ⟨rfl, rest, hq⟩ := hn
    have ht : r.pass (.move .turn) = r.handOver rest := by
      simp only [Rehearsal.pass, Rehearsal.move, tick, hq, Option.getD_some]
    rw [ht]
    cases hw : r.outgoing.waiting with
    | nil =>
      left
      simp only [handOver, hw]
    | cons envelope waiting => exact Or.inr ⟨rfl, envelope, handOver_hands (h.due hq).1 hw⟩
  · have hq : next = .move .turn → ∀ rest, r.runQueue ≠ .outgoing :: rest :=
      fun he rest hq => hn ⟨he, rest, hq⟩
    exact Or.inl (pass_withheld next hq).handed

theorem held (h : Tended r) (hb : r.outgoing.worker = .blocked) {later : List Traffic}
    (hu : r.Unanswered later) :
    handedOver (r.carry later).log = handedOver r.log ∧
      (r.carry later).outgoing.worker = .blocked := by
  induction later generalizing r with
  | nil => exact ⟨rfl, hb⟩
  | cons next rest ih =>
    -- A worker that waits for an answer has no turn to hand anything over.
    have hq : ∀ rest, r.runQueue ≠ .outgoing :: rest := by
      intro rest hq
      rw [(h.due hq).1] at hb
      cases hb
    have hw := pass_withheld next fun _ => hq
    obtain ⟨hl, hk⟩ := ih (h.pass next) (hw.blocked hu.1 hb) hu.2
    exact ⟨hl.trans hw.handed, hk⟩

theorem order_pass (h : Tended r) (next : Traffic) :
    handedOver (r.pass next).log ++ (r.pass next).outgoing.waiting =
      handedOver r.log ++ r.outgoing.waiting ++ r.submits next := by
  cases next with
  | send envelope =>
    obtain ⟨_, hw⟩ := WorkQueue.post_of_served h.served envelope
    simp only [Rehearsal.pass, Rehearsal.send, hw, submits, List.append_assoc]
  | move move =>
    obtain ⟨steps, hf⟩ := (r.move_changes move).forwards h.served
    rw [submits, hf.history, List.drop_left]
    exact hf.order

theorem order_carry (h : Tended r) (traffic : List Traffic) :
    handedOver (r.carry traffic).log ++ (r.carry traffic).outgoing.waiting =
      handedOver r.log ++ r.outgoing.waiting ++ r.submitted traffic := by
  induction traffic generalizing r with
  | nil => exact (List.append_nil _).symm
  | cons next rest ih =>
    have ho := ih (h.pass next)
    rw [h.order_pass next, List.append_assoc] at ho
    exact ho

theorem complete (h : Tended r) (hq : r.runQueue = []) (hb : r.outgoing.worker ≠ .blocked) :
    r.outgoing.waiting = [] := by
  have ht := h.turns
  rw [hq] at ht
  cases hw : r.outgoing.worker with
  | idle => exact h.idle hw
  | due => simp [hw] at ht
  | blocked => exact absurd hw hb
  | stopped => exact absurd hw h.served

end Tended

/-- How the envelopes of this list, in the order in which they were enqueued, leave the queue. -/
structure Conveys (submitted : List SignalingEnvelope) (r : Rehearsal) : Prop where
  order : handedOver r.log ++ r.outgoing.waiting = submitted
  step : ∀ next, handedOver (r.pass next).log = handedOver r.log ∨
    next = .move .turn ∧ ∃ envelope, HandsOver r (r.pass next) envelope
  held : ∀ later, r.outgoing.worker = .blocked → r.Unanswered later →
    handedOver (r.carry later).log = handedOver r.log ∧
      (r.carry later).outgoing.worker = .blocked
  resumed : ∀ answer, r.outgoing.worker = .blocked →
    (r.pass (.move (.command (.release .message answer)))).outgoing =
      { r.outgoing with worker := .due }
  complete : r.runQueue = [] → r.outgoing.worker ≠ .blocked → handedOver r.log = submitted

/--
Whoever enqueues envelopes, and however the messages are answered: those handed over are always the
first of those enqueued, in that order, each once. One at a time is handed over, and none as long
as the answer to the last one is held back. Whether an answer is an error or not makes no
difference: when nothing is left to do and no answer is held back, all have been handed over.
-/
theorem carry_conveys (channel : Option Channel) (usual : Endpoint → Answer)
    (traffic : List Traffic) :
    Conveys (submitted { channel, usual } traffic) (carry { channel, usual } traffic) := by
  have hstart : Tended { channel, usual } := ⟨by simp, rfl, fun _ => rfl⟩
  have h := hstart.carry traffic
  have ho := hstart.order_carry traffic
  refine ⟨ho, h.step, fun _ hb hu => h.held hb hu,
    fun answer hb => release_resumes hb answer, fun hq hb => ?_⟩
  rw [h.complete hq hb, List.append_nil] at ho
  exact ho

/-- The message that a candidate is no longer of use. -/
def removal (candidate : String) : SignalingEnvelope := .ofRemoved "session" [candidate]

/-- The answer to the first message is held back while two more are enqueued. -/
def stalledTraffic : List Traffic :=
  [.move (.command (.plan .message [.hold, .answer (.error .closed)])),
    .send (removal "first"), .send (removal "second"), .move .turn, .send (removal "third")]

/-- The first message fails in the end, and so does the second one. -/
def failingTraffic : List Traffic :=
  [.move (.command (.release .message (.error .closed))), .move .turn, .move .turn, .move .turn]

theorem stalledTraffic_conveyed :
    handedOver (carry { channel := none, usual := fun _ => acknowledgement "session" }
        (stalledTraffic ++ [.send (removal "fourth"), .move .turn])).log = [removal "first"] ∧
      handedOver (carry { channel := none, usual := fun _ => acknowledgement "session" }
        (stalledTraffic ++ failingTraffic)).log =
          [removal "first", removal "second", removal "third"] := by
  have hs := carry_conveys none (fun _ => acknowledgement "session") stalledTraffic
  have hf := carry_conveys none (fun _ => acknowledgement "session")
    (stalledTraffic ++ failingTraffic)
  refine ⟨?_, hf.complete rfl (by decide)⟩
  have hu : (carry { channel := none, usual := fun _ => acknowledgement "session" }
      stalledTraffic).Unanswered [.send (removal "fourth"), .move .turn] :=
    ⟨List.not_mem_nil, List.not_mem_nil, trivial⟩
  exact (hs.held _ rfl hu).1

end Rehearsal

end MediaSession
