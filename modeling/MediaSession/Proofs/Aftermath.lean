import MediaSession.Proofs.Notices
import MediaSession.Proofs.SessionEnds

namespace MediaSession

/-- The envelope that has been handed over, if that is what has been recorded. -/
def Record.envelope? : Record → Option SignalingEnvelope
  | .message envelope => some envelope
  | _ => none

/-- The calls on the server and the engine among these records, messages left out. -/
def calls (log : List Record) : List Record := log.filter Record.isCall

/-- The envelopes among these records that have been handed over. -/
def handedOver (log : List Record) : List SignalingEnvelope := log.filterMap Record.envelope?

theorem calls_record (task : Task) : calls [task.record] = [task.record] := by
  cases task <;> rfl

theorem handedOver_record (task : Task) : handedOver [task.record] = [] := by
  cases task <;> rfl

namespace Rehearsal

/--
Without a channel things have gone on like this: the records that were added are the calls that
waited in the run queue, the envelopes that waited to be handed over and the notices that waited to
be delivered, those of each kind in their order; the rest of each kind still waits. No step was
made.
-/
structure Outlasts (r : Rehearsal) (since : List Record) (r' : Rehearsal) : Prop where
  gone : r'.channel = none
  history : r'.history = r.history
  log : r'.log = r.log ++ since
  calls : r.runQueue.filterMap Job.record? =
    calls since ++ r'.runQueue.filterMap Job.record?
  outgoing : r.outgoing.waiting = handedOver since ++ r'.outgoing.waiting
  notices : r.notices.waiting = delivered since ++ r'.notices.waiting

theorem Outlasts.refl {r : Rehearsal} (h : r.channel = none) : Outlasts r [] r :=
  ⟨h, rfl, by simp, rfl, rfl, rfl⟩

theorem Outlasts.trans {r r' r'' : Rehearsal} {since more : List Record}
    (h : Outlasts r since r') (h' : Outlasts r' more r'') : Outlasts r (since ++ more) r'' := by
  refine ⟨h'.gone, h'.history.trans h.history, ?_, ?_, ?_, ?_⟩
  · rw [h'.log, h.log, List.append_assoc]
  · rw [h.calls, h'.calls, MediaSession.calls, MediaSession.calls, MediaSession.calls,
      List.filter_append, List.append_assoc]
  · rw [h.outgoing, h'.outgoing, handedOver, handedOver, handedOver, List.filterMap_append,
      List.append_assoc]
  · rw [h.notices, h'.notices, delivered_append, List.append_assoc]

/-- Some things were put aside or taken up again, but nothing came of it. -/
theorem Outlasts.of_quiet {r r' : Rehearsal} (hc : r'.channel = none)
    (hh : r'.history = r.history) (hl : r'.log = r.log)
    (hq : r'.runQueue.filterMap Job.record? = r.runQueue.filterMap Job.record?)
    (ho : r'.outgoing.waiting = r.outgoing.waiting)
    (hn : r'.notices.waiting = r.notices.waiting) : Outlasts r [] r' := by
  refine ⟨hc, hh, ?_, hq.symm, ho.symm, hn.symm⟩
  rw [hl, List.append_nil]

/-- A call that had to wait for its turn was made. -/
theorem Outlasts.of_start {r r' : Rehearsal} {task : Task} (hc : r'.channel = none)
    (hh : r'.history = r.history) (hl : r'.log = r.log ++ [task.record])
    (hq : r.runQueue.filterMap Job.record? =
      task.record :: r'.runQueue.filterMap Job.record?)
    (ho : r'.outgoing = r.outgoing) (hn : r'.notices = r.notices) :
    Outlasts r [task.record] r' := by
  refine ⟨hc, hh, hl, ?_, ?_, ?_⟩
  · rw [hq, calls_record, List.singleton_append]
  · rw [ho, handedOver_record, List.nil_append]
  · rw [hn, delivered_record, List.nil_append]

theorem Change.outlasts {r r' : Rehearsal} (h : Change r r') (hc : r.channel = none) :
    ∃ since, Outlasts r since r' := by
  obtain ⟨hg, hh⟩ := h.gone hc
  cases h with
  | call _ hs _ => exact absurd (hs.symm.trans hc) (Option.some_ne_none _)
  | event hs _ _ _ => exact absurd (hs.symm.trans hc) (Option.some_ne_none _)
  | drop hs => exact absurd (hs.symm.trans hc) (Option.some_ne_none _)
  | resume _ hs => exact absurd (hs.symm.trans hc) (Option.some_ne_none _)
  | arrange _ _ _ _ => exact ⟨[], .of_quiet hg hh rfl rfl rfl rfl⟩
  | release _ _ => exact ⟨[], .of_quiet hg hh rfl (by simp [Job.record?]) rfl rfl⟩
  | unblock _ => exact ⟨[], .of_quiet hg hh rfl (by simp [Job.record?]) rfl rfl⟩
  | lapse hq _ => exact ⟨[], .of_quiet hg hh rfl (by rw [hq]; rfl) rfl rfl⟩
  | silence hq hn => exact ⟨[], .of_quiet hg hh rfl (by rw [hq]; rfl) rfl hn.symm⟩
  | exhaust hq he => exact ⟨[], .of_quiet hg hh rfl (by rw [hq]; rfl) he.symm rfl⟩
  -- Held or answered at once, a call only leaves its record.
  | @hold task rest hq => exact ⟨_, .of_start hg hh rfl (by rw [hq]; rfl) rfl rfl⟩
  | @start task rest answer hq => exact ⟨_, .of_start hg hh rfl (by rw [hq]; rfl) rfl rfl⟩
  | notify _ hn => exact ⟨_, hg, hh, rfl, rfl, rfl, hn⟩
  | handOver _ he => exact ⟨_, hg, hh, rfl, rfl, he, rfl⟩
  | block hq he =>
    refine ⟨_, hg, hh, rfl, ?_, he, rfl⟩
    rw [hq]
    rfl

theorem Changes.outlasts {r r' : Rehearsal} (h : Changes r r') (hc : r.channel = none) :
    ∃ since, Outlasts r since r' := by
  induction h with
  | refl => exact ⟨[], .refl hc⟩
  | tail _ hstep ih =>
    obtain ⟨since, ho⟩ := ih
    obtain ⟨more, hm⟩ := hstep.outlasts ho.gone
    exact ⟨since ++ more, ho.trans hm⟩

/-- Without a channel the answer to a call leaves no more than the engine's own description. -/
theorem answer_of_gone {r : Rehearsal} (hc : r.channel = none) (task : Task) (given : Answer) :
    ∃ localDescription, r.answer task given = { r with localDescription } := by
  obtain ⟨localDescription, hk⟩ := keepLocal_eq r task given
  have hk' : (r.keepLocal task given).channel = none := by rw [hk, hc]
  refine ⟨localDescription, ?_⟩
  rw [← hk]
  simp only [answer, hk']

theorem move_turn_of_gone {r : Rehearsal} {task : Task} {given : Answer} {rest : List Job}
    (hc : r.channel = none) (hq : r.runQueue = .resume task given :: rest) :
    ∃ localDescription, r.move .turn = { r with runQueue := rest, localDescription } := by
  obtain ⟨localDescription, ha⟩ :=
    answer_of_gone (r := { r with runQueue := rest }) hc task given
  refine ⟨localDescription, ?_⟩
  simp only [move, tick, hq, ha, Option.getD_some]

/-- No step follows the one that drops the channel. -/
def DropsLast (r : Rehearsal) : Prop :=
  ∀ past turn rest, r.history = past ++ turn :: rest → turn.stimulus = .drop →
    rest = [] ∧ r.channel = none

theorem Change.channel_of_drop {r r' : Rehearsal} (h : Change r r') {turn : Turn}
    (hh : r'.history = r.history ++ [turn]) (hd : turn.stimulus = .drop) : r'.channel = none := by
  have last {past : List Turn} {other : Turn} (he : past ++ [other] = past ++ [turn]) :
      other.stimulus = .drop := by
    obtain rfl := List.singleton_inj.mp (List.append_cancel_left he)
    exact hd
  cases h with
  | @call c stimulus caller _ hs =>
    rw [meet_history] at hh
    have hn : stimulus = .drop := last hh
    rw [hn] at hs
    cases hs
  | event _ _ _ hn =>
    rw [meet_history] at hh
    exact absurd (last hh) hn
  | drop _ => rfl
  | resume _ _ =>
    rw [meet_history] at hh
    cases last hh
  | _ => simp [note] at hh

theorem DropsLast.change {r r' : Rehearsal} (h : DropsLast r) (hr : Change r r') :
    DropsLast r' := by
  intro past turn rest he hd
  by_cases hc : r.channel = none
  · obtain ⟨hg, hh⟩ := hr.gone hc
    exact ⟨(h past turn rest (hh ▸ he) hd).1, hg⟩
  · rcases hr.history with hh | ⟨other, hh⟩
    · exact absurd (h past turn rest (hh ▸ he) hd).2 hc
    · rcases snoc_eq_append_cons (hh.symm.trans he) with ⟨_, rfl, rfl⟩ | ⟨between, _, hp⟩
      · exact ⟨rfl, hr.channel_of_drop hh hd⟩
      · exact absurd (h past turn between hp hd).2 hc

variable (config : ChannelConfig) (usual : Endpoint → Answer) (moves : List Move)

theorem play_dropsLast : DropsLast (play config usual moves) := by
  refine play_induction ?_ (fun _ _ => DropsLast.change) moves
  intro past turn rest he
  simp [opening] at he

/--
Once the channel has been dropped, whatever is answered and in whatever order, no step is made any
more and only what already waited is still called, handed over and delivered. The turn in which an
answer arrives changes nothing but the description that the engine itself keeps.
-/
theorem play_after_drop (hg : (play config usual moves).channel = none) (later : List Move) :
    (∃ since, Outlasts (play config usual moves) since (play config usual (moves ++ later))) ∧
      ∀ task given rest,
        (play config usual (moves ++ later)).runQueue = .resume task given :: rest →
        ∃ localDescription, play config usual (moves ++ later ++ [.turn]) =
          { play config usual (moves ++ later) with runQueue := rest, localDescription } := by
  obtain ⟨since, ho⟩ := (play_append_changes config usual moves later).outlasts hg
  refine ⟨⟨since, ho⟩, fun task given rest hq => ?_⟩
  obtain ⟨localDescription, hm⟩ := move_turn_of_gone ho.gone hq
  refine ⟨localDescription, ?_⟩
  rw [← hm, play, List.foldl_append]
  rfl

/-- A publication is dropped while its offer, a measurement and a pause are under way. -/
def droppedMidway : List Move :=
  [.command (.plan .createOffer [.hold]),
    .command (.plan .statistics [.hold]),
    .command (.publish (some microphone) { name := "publication" }),
    .turn,
    .command (.statistics { name := "measurement" }),
    .turn, .turn,
    .command (.control .both .pause { name := "pause" }),
    .command .drop]

/-- The offer comes after all, the measurement fails, and both have still to wait. -/
def answeredLate : List Move :=
  [.answer 0 (acknowledgement ""), .answer 0 (.error .closed), .turn, .turn, .turn]

theorem droppedMidway_inert :
    Outlasts (play {} (fun _ => acknowledgement "session") droppedMidway)
        [.control true "session" .both .pause, .reportEnd .unpublish "session"]
        (play {} (fun _ => acknowledgement "session") (droppedMidway ++ answeredLate)) ∧
      ∃ localDescription,
        play {} (fun _ => acknowledgement "session") (droppedMidway ++ answeredLate ++ [.turn]) =
          { play {} (fun _ => acknowledgement "session") (droppedMidway ++ answeredLate) with
            runQueue := [], localDescription } := by
  obtain ⟨⟨since, ho⟩, hr⟩ :=
    play_after_drop {} (fun _ => acknowledgement "session") droppedMidway rfl answeredLate
  have hs : since = [.control true "session" .both .pause, .reportEnd .unpublish "session"] :=
    List.append_cancel_left (ho.log.symm.trans rfl)
  exact ⟨hs ▸ ho, hr (.statistics 1) (.error .closed) [] rfl⟩

end Rehearsal

end MediaSession
