import MediaSession.Proofs.Rejection
import MediaSession.Proofs.SessionEnds

namespace MediaSession

/-- Whether a stimulus is a call that is answered on its own, without waiting for the session. -/
def Stimulus.isDirect : Stimulus → Bool
  | .unpublish _ _ => true
  | .unsubscribe _ _ => true
  | .control _ _ _ => true
  | .statistics _ => true
  | _ => false

/-- Whether a notice is one of success. -/
def Notice.succeeds : Notice → Bool
  | .succeeded _ _ => true
  | .finished _ => true
  | .measured _ _ => true
  | _ => false

theorem Stimulus.isRequest_of_isDirect {stimulus : Stimulus} (h : stimulus.isDirect = true) :
    stimulus.isRequest = true := by
  cases stimulus <;> first | rfl | cases h

/-- A call is turned down, or one task is to bring its outcome. -/
def Reaction.Hands (reaction : Reaction) (call : Option CallId) : Prop :=
  reaction.asked = [] ∨ ∃ task, reaction.handed = [task] ∧ task.call? = call

namespace Channel

variable {c : Channel}

theorem refuse_hands (call : Option CallId) (cause : Cause) :
    (c.refuse call cause).Hands call :=
  Or.inl (filterMap_map_none (fun _ => rfl) _)

theorem dismantle_hands (event : StreamEvent) (call : Option CallId) (forget : Channel → Channel) :
    ((c.dismantle event call).andThen fun c => { channel := forget c }).Hands call := by
  refine Or.inr ⟨.reportEnd event c.session call, ?_, rfl⟩
  rw [Reaction.handed, Reaction.andThen, List.append_nil]
  cases ho : c.isOpen <;> simp [dismantle, ho, Effect.task?]

theorem unpublish_hands (session : String) (call : Option CallId) :
    (c.unpublish session call).Hands call := by
  unfold unpublish
  split
  next => exact refuse_hands call _
  next => exact dismantle_hands .unpublish call _

theorem unsubscribe_hands (session : String) (call : Option CallId) :
    (c.unsubscribe session call).Hands call := by
  unfold unsubscribe
  split
  next => exact refuse_hands call _
  next =>
    split
    next => exact refuse_hands call _
    next => exact dismantle_hands .unsubscribe call _

theorem Reacts.hands {stimulus : Stimulus} {reaction : Reaction} (h : c.Reacts stimulus reaction)
    (hd : stimulus.isDirect = true) : reaction.Hands stimulus.call? := by
  cases h with
  | unpublishes => exact unpublish_hands _ _
  | unsubscribes => exact unsubscribe_hands _ _
  | refusesControl | refusesStatistics => exact refuse_hands _ _
  | controls | measures => exact Or.inr ⟨_, rfl, rfl⟩
  | measuresNothing => exact Or.inl rfl
  | _ => cases hd

/-- The answer to the task of a call is told to it at once, and nothing else is told. -/
theorem answered_posted {task : Task} {call : CallId} (ht : task.call? = some call)
    (current : Option SessionDescription) (given : Answer) :
    ∃ notice, (c.answered current task given).posted = [notice] ∧ notice.call? = some call ∧
      (notice.succeeds = true ↔ ∃ reply, given = .ok reply) := by
  cases task with
  | reportEnd event session caller =>
    obtain rfl : caller = some call := ht
    cases given with
    | ok reply => exact ⟨.finished call, rfl, rfl, by simp [Notice.succeeds]⟩
    | error e => exact ⟨.failed call e.toChannelError, rfl, rfl, by simp [Notice.succeeds]⟩
  | control ofPublication session target operation caller =>
    obtain rfl := Option.some.inj ht
    cases given with
    | ok reply => exact ⟨.finished caller, rfl, rfl, by simp [Notice.succeeds]⟩
    | error e => exact ⟨.failed caller e.toChannelError, rfl, rfl, by simp [Notice.succeeds]⟩
  | statistics caller =>
    obtain rfl := Option.some.inj ht
    cases given with
    | ok reply => exact ⟨.measured caller reply.statistics, rfl, rfl, by simp [Notice.succeeds]⟩
    | error e => exact ⟨.failed caller e.toChannelError, rfl, rfl, by simp [Notice.succeeds]⟩
  | _ => cases ht

end Channel

namespace Rehearsal

theorem followUps_of_call {r : Rehearsal} {notice : Notice} {call : CallId}
    {caller : Caller Command} (hn : notice.call? = some call)
    (hc : r.callers[call]? = some caller) :
    r.followUps notice =
      (caller.name, if notice.succeeds then caller.onSuccess else caller.onFailure) := by
  cases notice with
  | streamFailed _ _ _ => cases hn
  | _ =>
    obtain rfl := Option.some.inj hn
    simp [followUps, hc, Notice.succeeds]

variable (config : ChannelConfig) (usual : Endpoint → Answer) (moves : List Move)
variable {past rest : List Turn} {turn : Turn} {call : CallId}

/-- The outcome that a step posts to a call is all that the call is ever told. -/
theorem play_posted_told (hq : (play config usual moves).runQueue = [])
    (hm : turn ∈ (play config usual moves).history) {notice : Notice}
    (hp : notice ∈ turn.reaction.posted) (hn : notice.call? = some call) :
    (delivered (play config usual moves).log).filter
      (fun other => other.call? == some call) = [notice] := by
  have hmem : notice ∈ posted (play config usual moves).history :=
    List.mem_flatMap.mpr ⟨turn, hm, hp⟩
  rw [play_delivered config usual moves hq]
  exact filter_call_eq_singleton (play_posted_nodup config usual moves) hmem hn

theorem play_answer_told (hq : (play config usual moves).runQueue = [])
    (hm : turn ∈ (play config usual moves).history) {current : Option SessionDescription}
    {task : Task} {given : Answer} (hs : turn.stimulus = .answered current task given)
    (ht : task.call? = some call) :
    ∃ notice, (delivered (play config usual moves).log).filter
        (fun other => other.call? == some call) = [notice] ∧ notice.call? = some call ∧
      (notice.succeeds = true ↔ ∃ reply, given = .ok reply) := by
  obtain ⟨notice, hp, hn, hi⟩ := turn.before.answered_posted ht current given
  have hr : turn.reaction = turn.before.answered current task given := Turn.reaction_eq hs
  have hmem : notice ∈ turn.reaction.posted := by
    rw [hr, hp]
    exact List.mem_singleton_self notice
  exact ⟨notice, play_posted_told config usual moves hq hm hmem hn, hn, hi⟩

theorem play_caller (hm : turn ∈ (play config usual moves).history)
    (hc : turn.stimulus.call? = some call) :
    ∃ caller, (play config usual moves).callers[call]? = some caller := by
  have hr : call ∈ List.range (play config usual moves).callers.length := by
    rw [← (play_chronicle config usual moves).calls]
    exact List.mem_filterMap.mpr ⟨turn, hm, hc⟩
  exact ⟨_, List.getElem?_eq_getElem (List.mem_range.mp hr)⟩

/--
When nothing is in flight any more and nothing is left to do, a direct call has been told one
outcome, once, and one of its continuations has been run: that of success if and only if the call
was not turned down on the spot and the task that it handed out was answered with success. Nothing
is assumed of what happened to the session and to other calls in the meantime.
-/
theorem play_direct_call_told
    (he : (play config usual moves).history = past ++ turn :: rest)
    (hd : turn.stimulus.isDirect = true) (hc : turn.stimulus.call? = some call)
    (ha : (play config usual moves).channel ≠ none)
    (hq : (play config usual moves).runQueue = []) (hh : (play config usual moves).held = []) :
    ∃ caller notice, (play config usual moves).callers[call]? = some caller ∧
      (delivered (play config usual moves).log).filter
        (fun other => other.call? == some call) = [notice] ∧
      (play config usual moves).followUps notice =
        (caller.name, if notice.succeeds then caller.onSuccess else caller.onFailure) ∧
      (notice.succeeds = true ↔
        (¬ ∃ error, turn.before.Rejects turn.stimulus error) ∧
          ∃ task ∈ turn.reaction.handed, ∃ answering ∈ (play config usual moves).history,
            ∃ current reply, answering.stimulus = .answered current task (.ok reply)) := by
  have hm : turn ∈ (play config usual moves).history := by simp [he]
  obtain ⟨caller, hcaller⟩ := play_caller config usual moves hm hc
  by_cases hr : ∃ error, turn.before.Rejects turn.stimulus error
  · obtain ⟨error, hrej⟩ := hr
    have hmeet : turn.reaction = _ := hrej.meet_eq
    have hp : .failed call error ∈ turn.reaction.posted := by
      simp [Reaction.posted, hmeet, hc]
    have hf := play_posted_told config usual moves hq hm hp rfl
    refine ⟨caller, .failed call error, hcaller, hf, followUps_of_call rfl hcaller, ?_⟩
    exact ⟨fun hs => absurd hs Bool.false_ne_true, fun hs => absurd ⟨error, hrej⟩ hs.1⟩
  · have hn : turn.reaction.asked ≠ [] := fun hn =>
      hr ((Channel.exists_rejects_iff (Stimulus.isRequest_of_isDirect hd)).mpr hn)
    obtain ⟨task, hands, htc⟩ := ((Channel.meet_reacts _ _).hands hd).resolve_left hn
    rw [hc] at htc
    have hf : (play config usual moves).inFlight = [] := by simp [inFlight, hq, hh]
    have htask : task ∈ turn.reaction.handed := by
      rw [Turn.reaction, hands]
      exact List.mem_singleton_self task
    obtain ⟨answering, ham, current, given, hs⟩ :=
      play_task_answered config usual moves ha hf hm htask
    obtain ⟨notice, hone, hcall, hi⟩ := play_answer_told config usual moves hq ham hs htc
    refine ⟨caller, notice, hcaller, hone, followUps_of_call hcall hcaller, ?_⟩
    constructor
    · intro hsucc
      obtain ⟨reply, rfl⟩ := hi.mp hsucc
      exact ⟨hr, task, htask, answering, ham, current, reply, hs⟩
    · rintro ⟨_, other, hother, answering', ham', current', reply, hs'⟩
      rw [Turn.reaction, hands] at hother
      obtain rfl := List.mem_singleton.mp hother
      -- No other answer tells the call anything, so this is the one that it was told.
      obtain ⟨notice', hone', _, hi'⟩ := play_answer_told config usual moves hq ham' hs' htc
      obtain rfl := List.singleton_inj.mp (hone.symm.trans hone')
      exact hi'.mpr ⟨reply, rfl⟩

/-- A measurement that outlives its session, a pause that is denied, and a session anew. -/
def measuredLate : Rehearsal :=
  play {} (fun _ => acknowledgement "session")
    [.command (.plan .statistics [.hold]),
      .command (.plan .control [.answer (.error .closed)]),
      .command (.publish (some microphone) { name := "first" }),
      .turn,
      .command (.statistics { name := "measurement" }),
      .command (.control .both .pause { name := "pause" }),
      .command (.unpublish none (some { name := "end" })),
      .command (.publish (some microphone) { name := "second" }),
      .turn, .turn, .turn, .turn, .turn, .turn, .turn, .turn, .turn, .turn, .turn,
      .answer 0 (acknowledgement ""),
      .turn, .turn, .turn]

theorem measuredLate_told : ∃ past turn rest, ∃ caller : Caller Command, ∃ notice,
    measuredLate.history = past ++ turn :: rest ∧ turn.stimulus = .statistics 1 ∧
      turn.before.session = "session" ∧ caller.name = "measurement" ∧
      (delivered measuredLate.log).filter (fun other => other.call? == some 1) = [notice] ∧
      measuredLate.followUps notice = (caller.name, caller.onSuccess) := by
  have he : measuredLate.history = measuredLate.history.take 2 ++ measuredLate.history[2] ::
      measuredLate.history.drop 3 := rfl
  obtain ⟨caller, notice, hcaller, hf, hu, hi⟩ := play_direct_call_told {} _ _ he rfl rfl
    (Option.some_ne_none _) rfl rfl
  have hn : ¬ ∃ error, (measuredLate.history[2]).before.Rejects
      (measuredLate.history[2]).stimulus error := by
    intro hr
    have ha := (Channel.exists_rejects_iff rfl).mp hr
    exact absurd ha (List.cons_ne_nil _ _)
  have hs : notice.succeeds = true :=
    hi.mpr ⟨hn, .statistics 1, List.mem_singleton_self _, measuredLate.history[11],
      List.getElem_mem _, _, _, rfl⟩
  have hname : caller.name = "measurement" := by
    obtain rfl := Option.some.inj hcaller
    rfl
  rw [if_pos hs] at hu
  exact ⟨_, _, _, caller, notice, he, rfl, rfl, hname, hf, hu⟩

end Rehearsal

end MediaSession
