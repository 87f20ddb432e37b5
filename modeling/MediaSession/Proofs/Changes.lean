import MediaSession.Rehearsal.Play
import Mathlib.Logic.Relation

namespace MediaSession

/-- The call that a stimulus makes, with continuations of its own. -/
def Stimulus.call? : Stimulus → Option CallId
  | .publish _ call => some call
  | .subscribe _ _ call => some call
  | .unpublish _ call => call
  | .unsubscribe _ call => call
  | .control _ _ call => some call
  | .statistics call => some call
  | _ => none

/-- The task that a stimulus answers. -/
def Stimulus.task? : Stimulus → Option Task
  | .answered _ task _ => some task
  | _ => none

namespace Rehearsal

/--
The indivisible changes of a rehearsal. A task that is answered at once counts as resumed at the
head of the run queue.
-/
inductive Change : Rehearsal → Rehearsal → Prop
  | call {r c stimulus} (caller : Caller Command) (hc : r.channel = some c)
      (hs : stimulus.call? = some r.callers.length) :
      Change r (meet { r with callers := r.callers ++ [caller] } ⟨c, stimulus⟩)
  | event {r c stimulus} (hc : r.channel = some c) (hs : stimulus.call? = none)
      (ht : stimulus.task? = none) (hd : stimulus ≠ .drop) : Change r (r.meet ⟨c, stimulus⟩)
  | drop {r c} (hc : r.channel = some c) : Change r { r.meet ⟨c, .drop⟩ with channel := none }
  | arrange {r} (script : Script) (observers : List (ObserverId × List Command))
      (localDescription : Option SessionDescription) (localHidden : Bool) :
      Change r { r with script, observers, localDescription, localHidden }
  | release {r before task after} (answer : Answer) (h : r.held = before ++ task :: after) :
      Change r { r with held := before ++ after, runQueue := r.runQueue ++ [.resume task answer] }
  | unblock {r} (h : r.outgoing.worker = .blocked) :
      Change r
        { r with
          outgoing := { r.outgoing with worker := .due }
          runQueue := r.runQueue ++ [.outgoing] }
  | hold {r task rest} (h : r.runQueue = .start task :: rest) :
      Change r { r.note task.record with runQueue := rest, held := r.held ++ [task] }
  | start {r task rest} (answer : Answer) (h : r.runQueue = .start task :: rest) :
      Change r { r.note task.record with runQueue := .resume task answer :: rest }
  | resume {r c task answer rest} (h : r.runQueue = .resume task answer :: rest)
      (hc : r.channel = some c) :
      Change r (meet { r with runQueue := rest } ⟨c, .answered r.currentLocal task answer⟩)
  | lapse {r task answer rest} (h : r.runQueue = .resume task answer :: rest)
      (hc : r.channel = none) : Change r { r with runQueue := rest }
  | notify {r rest notice waiting} (h : r.runQueue = .notices :: rest)
      (hn : r.notices.waiting = notice :: waiting) :
      Change r
        (note { r with notices := { waiting, worker := .due } }
          (.notified (r.followUps notice).1 notice))
  | silence {r rest} (h : r.runQueue = .notices :: rest) (hn : r.notices.waiting = []) :
      Change r { r with notices := { worker := .idle }, runQueue := rest }
  | handOver {r rest envelope waiting} (h : r.runQueue = .outgoing :: rest)
      (he : r.outgoing.waiting = envelope :: waiting) :
      Change r { r.note (.message envelope) with outgoing := { waiting, worker := .due } }
  | block {r rest envelope waiting} (h : r.runQueue = .outgoing :: rest)
      (he : r.outgoing.waiting = envelope :: waiting) :
      Change r
        { r.note (.message envelope) with
          outgoing := { waiting, worker := .blocked }
          runQueue := rest }
  | exhaust {r rest} (h : r.runQueue = .outgoing :: rest) (he : r.outgoing.waiting = []) :
      Change r { r with outgoing := { worker := .idle }, runQueue := rest }

abbrev Changes : Rehearsal → Rehearsal → Prop := Relation.ReflTransGen Change

/-- What commands do at once, none of them with a turn; held calls are answered only at the
endpoints given. -/
inductive Act (answered : Endpoint → Prop) : Rehearsal → Rehearsal → Prop
  | call {r c stimulus} (caller : Caller Command) (hc : r.channel = some c)
      (hs : stimulus.call? = some r.callers.length) :
      Act answered r (meet { r with callers := r.callers ++ [caller] } ⟨c, stimulus⟩)
  | event {r c stimulus} (hc : r.channel = some c) (hs : stimulus.call? = none)
      (ht : stimulus.task? = none) (hd : stimulus ≠ .drop) :
      Act answered r (r.meet ⟨c, stimulus⟩)
  | drop {r c} (hc : r.channel = some c) :
      Act answered r { r.meet ⟨c, .drop⟩ with channel := none }
  | arrange {r} (script : Script) (observers : List (ObserverId × List Command))
      (localHidden : Bool) : Act answered r { r with script, observers, localHidden }
  | release {r} (endpoint : Endpoint) (answer : Answer) (he : answered endpoint) :
      Act answered r (r.release endpoint answer).1

abbrev Acts (answered : Endpoint → Prop) : Rehearsal → Rehearsal → Prop :=
  Relation.ReflTransGen (Act answered)

theorem takeHeld_split {endpoint : Endpoint} {tasks others : List Task} {task : Task}
    (h : takeHeld endpoint tasks = (some task, others)) :
    ∃ before after, tasks = before ++ task :: after ∧ others = before ++ after := by
  induction tasks generalizing others with
  | nil => simp [takeHeld] at h
  | cons first rest ih =>
    by_cases he : first.endpoint = endpoint
    · simp only [takeHeld, he, ↓reduceIte, Prod.mk.injEq, Option.some.injEq] at h
      obtain ⟨rfl, rfl⟩ := h
      exact ⟨[], rest, rfl, rfl⟩
    · simp only [takeHeld, he, ↓reduceIte, Prod.mk.injEq] at h
      obtain ⟨hf, ho⟩ := h
      obtain ⟨before, after, hb, ha⟩ := ih (Prod.ext hf rfl)
      exact ⟨first :: before, after, by simp [hb], by simp [← ho, ha]⟩

theorem release_changes (r : Rehearsal) (endpoint : Endpoint) (answer : Answer) :
    Changes r (r.release endpoint answer).1 := by
  unfold release
  split
  · split
    next h => exact .single (.unblock h)
    next => exact .refl
  · split
    next task held h =>
      obtain ⟨before, after, hb, rfl⟩ := takeHeld_split h
      exact .single (.release answer hb)
    next => exact .refl

theorem Act.changes {answered : Endpoint → Prop} {r r' : Rehearsal} (h : Act answered r r') :
    Changes r r' := by
  cases h with
  | call caller hc hs => exact .single (.call caller hc hs)
  | event hc hs ht hd => exact .single (.event hc hs ht hd)
  | drop hc => exact .single (.drop hc)
  | arrange script observers localHidden =>
    exact .single (.arrange script observers r.localDescription localHidden)
  | release endpoint answer _ => exact r.release_changes endpoint answer

theorem Acts.changes {answered : Endpoint → Prop} {r r' : Rehearsal} (h : Acts answered r r') :
    Changes r r' := by
  induction h with
  | refl => exact .refl
  | tail _ hact ih => exact ih.trans hact.changes

section Acts

variable {answered : Endpoint → Prop} (r : Rehearsal)

theorem withChannel_acts {stimulus : Stimulus} (hs : stimulus.call? = none)
    (ht : stimulus.task? = none) (hd : stimulus ≠ .drop) :
    Acts answered r (r.withChannel stimulus).1 := by
  unfold withChannel
  split
  next c hc => exact .single (.event hc hs ht hd)
  next => exact .refl

theorem callFor_acts (caller : Caller Command) {stimulus : CallId → Stimulus}
    (hs : ∀ call, (stimulus call).call? = some call) :
    Acts answered r (r.callFor caller stimulus).1 := by
  unfold callFor
  split
  next c hc => exact .single (.call caller hc (hs _))
  next => exact .refl

theorem callMaybeFor_acts (caller : Option (Caller Command))
    {stimulus : Option CallId → Stimulus} (hs : ∀ call, (stimulus call).call? = call)
    (ht : (stimulus none).task? = none) (hd : stimulus none ≠ .drop) :
    Acts answered r (r.callMaybeFor caller stimulus).1 := by
  unfold callMaybeFor
  split
  next caller => exact r.callFor_acts caller fun call => hs (some call)
  next => exact r.withChannel_acts (hs none) ht hd

theorem enlist_act (observer : ObserverId) (onFailure : List Command) :
    Act answered r (r.enlist observer onFailure) := by
  unfold enlist
  split
  · exact .arrange r.script r.observers r.localHidden
  · exact .arrange r.script _ r.localHidden

end Acts

end Rehearsal

mutual

/-- The endpoints at which a command gives answers, with those of its batch. -/
def Command.releases : Command → List Endpoint
  | .release endpoint _ => [endpoint]
  | .batch commands => releasesAll commands
  | _ => []

def releasesAll : List Command → List Endpoint
  | [] => []
  | command :: rest => command.releases ++ releasesAll rest

end

mutual

theorem Command.execute_acts {answered : Endpoint → Prop} (r : Rehearsal) :
    (command : Command) → (∀ endpoint ∈ command.releases, answered endpoint) →
      Rehearsal.Acts answered r (command.execute r).1
  | .publish stream caller, _ => by
    simpa only [Command.execute] using r.callFor_acts caller fun _ => rfl
  | .subscribe stream options caller, _ => by
    simpa only [Command.execute] using r.callFor_acts caller fun _ => rfl
  | .unpublish session caller, _ => by
    simpa only [Command.execute] using r.callMaybeFor_acts caller (fun _ => rfl) rfl (by simp)
  | .unsubscribe session caller, _ => by
    simpa only [Command.execute] using r.callMaybeFor_acts caller (fun _ => rfl) rfl (by simp)
  | .control target operation caller, _ => by
    simpa only [Command.execute] using r.callFor_acts caller fun _ => rfl
  | .statistics caller, _ => by
    simpa only [Command.execute] using r.callFor_acts caller fun _ => rfl
  | .create creation, _ => by
    simpa only [Command.execute] using r.withChannel_acts rfl rfl (by simp)
  | .restartIce, _ => by
    simpa only [Command.execute] using r.withChannel_acts rfl rfl (by simp)
  | .applyRemote sdp, _ => by
    simpa only [Command.execute] using r.withChannel_acts rfl rfl (by simp)
  | .receive message, _ => by
    simpa only [Command.execute] using r.withChannel_acts rfl rfl (by simp)
  | .addObserver observer onFailure, _ => by
    simp only [Command.execute]
    split
    next =>
      exact .head (r.enlist_act observer onFailure)
        ((r.enlist observer onFailure).withChannel_acts rfl rfl (by simp))
    next => exact .refl
  | .removeObserver observer, _ => by
    simp only [Command.execute]
    split
    next =>
      split
      next => exact r.withChannel_acts rfl rfl (by simp)
      next => exact .refl
    next => exact .refl
  | .signalingChanged state, _ => by
    simpa only [Command.execute] using r.withChannel_acts rfl rfl (by simp)
  | .connectionChanged state, _ => by
    simpa only [Command.execute] using r.withChannel_acts rfl rfl (by simp)
  | .gatheringChanged state, _ => by
    simpa only [Command.execute] using r.withChannel_acts rfl rfl (by simp)
  | .candidateFound candidate, _ => by
    simpa only [Command.execute] using r.withChannel_acts rfl rfl (by simp)
  | .candidatesRemoved removed, _ => by
    simpa only [Command.execute] using r.withChannel_acts rfl rfl (by simp)
  | .streamAdded media, _ => by
    simpa only [Command.execute] using r.withChannel_acts rfl rfl (by simp)
  | .drop, _ => by
    simp only [Command.execute]
    split
    next c hc => exact .single (.drop hc)
    next => exact .refl
  | .batch commands, he => by
    have hall := executeAll_acts r commands (by simpa only [Command.releases] using he)
    simp only [Command.execute]
    split
    next r' outcomes h => rwa [h] at hall
    next r' defect h => rwa [h] at hall
  | .plan endpoint plans, _ => by
    simp only [Command.execute]
    exact .single (.arrange _ r.observers r.localHidden)
  | .release endpoint answer, he => by
    simp only [Command.execute]
    exact .single (.release endpoint answer (he endpoint (by simp [Command.releases])))
  | .hideLocalDescription hidden, _ => by
    simp only [Command.execute]
    exact .single (.arrange r.script r.observers hidden)
  | .defective needsChannel defect, _ => by simpa only [Command.execute] using .refl

theorem executeAll_acts {answered : Endpoint → Prop} (r : Rehearsal) :
    (commands : List Command) → (∀ endpoint ∈ releasesAll commands, answered endpoint) →
      Rehearsal.Acts answered r (executeAll r commands).1
  | [], _ => by simpa only [executeAll] using .refl
  | command :: rest, he => by
    simp only [releasesAll, List.forall_mem_append] at he
    have hone := Command.execute_acts r command he.1
    simp only [executeAll]
    split
    next r' defect h => rwa [h] at hone
    next r' outcome _ h =>
      rw [h] at hone
      have hall := executeAll_acts r' rest he.2
      split
      next r'' outcomes h' => rw [h'] at hall; exact hone.trans hall
      next r'' defect h' => rw [h'] at hall; exact hone.trans hall

end

theorem Command.execute_changes (command : Command) (r : Rehearsal) :
    Rehearsal.Changes r (command.execute r).1 := by
  have ha : Rehearsal.Acts (fun _ => True) r (command.execute r).1 :=
    command.execute_acts r fun _ _ => trivial
  exact ha.changes

namespace Rehearsal

theorem follow_acts {answered : Endpoint → Prop} (commands : List Command) (r : Rehearsal)
    (he : ∀ endpoint ∈ releasesAll commands, answered endpoint) :
    Acts answered r (commands.foldl (fun r command => (command.execute r).1) r) := by
  induction commands generalizing r with
  | nil => exact .refl
  | cons command rest ih =>
    simp only [releasesAll, List.forall_mem_append] at he
    exact (command.execute_acts r he.1).trans (ih _ he.2)

theorem follow_changes (commands : List Command) (r : Rehearsal) :
    Changes r (commands.foldl (fun r command => (command.execute r).1) r) := by
  have ha : Acts (fun _ => True) r (commands.foldl (fun r command => (command.execute r).1) r) :=
    follow_acts commands r fun _ _ => trivial
  exact ha.changes

theorem keepLocal_eq (r : Rehearsal) (task : Task) (answer : Answer) :
    ∃ localDescription, r.keepLocal task answer = { r with localDescription } := by
  unfold keepLocal
  split
  next description _ => exact ⟨some description, rfl⟩
  next => exact ⟨r.localDescription, rfl⟩

theorem answer_changes {r : Rehearsal} {task : Task} {given : Answer} {rest : List Job}
    (h : r.runQueue = .resume task given :: rest) :
    Changes r (answer { r with runQueue := rest } task given) := by
  obtain ⟨localDescription, hk⟩ := keepLocal_eq { r with runQueue := rest } task given
  refine .head (.arrange r.script r.observers localDescription r.localHidden) ?_
  unfold answer
  simp only [hk]
  split
  next c hc => exact .single (.resume h hc)
  next hc => exact .single (.lapse h hc)

theorem handOver_changes {r : Rehearsal} {rest : List Job} (h : r.runQueue = .outgoing :: rest) :
    Changes r (r.handOver rest) := by
  unfold handOver
  split
  next he => exact .single (.exhaust h he)
  next envelope waiting he =>
    refine .head (.arrange (r.script.take .message).2 r.observers r.localDescription
      r.localHidden) ?_
    simp only [takePlan, note]
    split
    next heq =>
      obtain ⟨-, rfl⟩ := Prod.mk.inj heq
      exact .single (.block h he)
    next heq =>
      obtain ⟨-, rfl⟩ := Prod.mk.inj heq
      exact .single (.handOver h he)

theorem tick_changes {r r' : Rehearsal} (h : r.tick = some r') : Changes r r' := by
  unfold tick at h
  split at h
  next => simp at h
  next task rest hq =>
    obtain rfl := Option.some.inj h
    refine .head (.arrange (r.script.take task.endpoint).2 r.observers r.localDescription
      r.localHidden) ?_
    simp only [note, follow]
    split
    next => exact .single (.hold hq)
    next given _ => exact .head (.start given hq) (answer_changes rfl)
  next task given rest hq =>
    obtain rfl := Option.some.inj h
    exact answer_changes hq
  next rest hq =>
    split at h
    next hn =>
      obtain rfl := Option.some.inj h
      exact .single (.silence hq hn)
    next notice waiting hn =>
      obtain rfl := Option.some.inj h
      exact .head (.notify hq hn) (follow_changes _ _)
  next rest hq =>
    obtain rfl := Option.some.inj h
    exact handOver_changes hq

theorem move_changes (r : Rehearsal) (move : Move) : Changes r (r.move move) := by
  cases move with
  | command command => exact command.execute_changes r
  | turn =>
    simp only [Rehearsal.move]
    cases h : r.tick with
    | none => exact .refl
    | some r' => exact tick_changes h
  | answer position answer =>
    simp only [Rehearsal.move]
    split
    next task h =>
      obtain ⟨hp, rfl⟩ := List.getElem?_eq_some_iff.mp h
      rw [List.eraseIdx_eq_take_drop_succ]
      refine .single (.release answer ?_)
      rw [← List.drop_eq_getElem_cons hp, List.take_append_drop]
    next => exact .refl

theorem foldl_move_changes (moves : List Move) (r : Rehearsal) :
    Changes r (moves.foldl move r) := by
  induction moves generalizing r with
  | nil => exact .refl
  | cons move rest ih => exact (r.move_changes move).trans (ih (r.move move))

theorem play_append_changes (config : ChannelConfig) (usual : Endpoint → Answer)
    (moves later : List Move) :
    Changes (play config usual moves) (play config usual (moves ++ later)) := by
  unfold play
  rw [List.foldl_append]
  exact foldl_move_changes later _

/-- What holds at first and survives every indivisible change holds throughout every run. -/
theorem play_induction {P : Rehearsal → Prop} {config : ChannelConfig}
    {usual : Endpoint → Answer} (start : P (opening config usual))
    (step : ∀ r r', P r → Change r r' → P r') (moves : List Move) :
    P (play config usual moves) := by
  have keep {r' : Rehearsal} (h : Changes (opening config usual) r') : P r' := by
    induction h with
    | refl => exact start
    | tail _ hstep ih => exact step _ _ ih hstep
  exact keep (foldl_move_changes moves _)

end Rehearsal

end MediaSession
