import MediaSession.Proofs.Acceptance
import MediaSession.Proofs.SessionCourse

namespace MediaSession

/-- A step that meets the acknowledgement of a request which the other step has handed out. -/
def Turn.Acknowledges (own asked : Turn) (id : String) : Prop :=
  own.stimulus.acknowledged? = some id ∧
    ∃ task ∈ asked.reaction.handed, own.stimulus.task? = some task

/-- Every call that waits for its success has been accepted. -/
def Channel.Awaits (c : Channel) (past : List Turn) : Prop :=
  ∀ kind call, c.pending.success kind = some call → ∃ asked ∈ past, asked.Accepts kind call

theorem Channel.Awaits.later {c c' : Channel} {past : List Turn} {turn : Turn} (h : c.Awaits past)
    (hp : c'.pending = c.pending ∨ c'.pending = .empty) : c'.Awaits (past ++ [turn]) := by
  intro kind call hc
  rcases hp with hp | hp
  · obtain ⟨asked, hm, ha⟩ := h kind call (hp ▸ hc)
    exact ⟨asked, List.mem_append_left _ hm, ha⟩
  · rw [hp] at hc
    cases kind <;> cases hc

theorem Channel.Awaits.snoc {past : List Turn} {turn : Turn} (h : turn.before.Awaits past) :
    turn.after.Awaits (past ++ [turn]) := by
  cases turn.settles with
  | keeps hk => exact h.later (Or.inl hk.pending)
  | fails hk => exact h.later (Or.inr hk.leaves.pending)
  | publishes hc hr _ hp =>
    intro kind call hs
    rw [Turn.after, hp] at hs
    cases kind with
    | publication =>
      obtain rfl := Option.some.inj hs
      exact ⟨turn, by simp, congrArg Stimulus.asks? hc, hr⟩
    | subscription =>
      obtain ⟨asked, hm, ha⟩ := h .subscription call hs
      exact ⟨asked, List.mem_append_left _ hm, ha⟩
  | subscribes hc hr _ _ hp _ =>
    intro kind call hs
    rw [Turn.after, hp] at hs
    cases kind with
    | publication =>
      obtain ⟨asked, hm, ha⟩ := h .publication call hs
      exact ⟨asked, List.mem_append_left _ hm, ha⟩
    | subscription =>
      obtain rfl := Option.some.inj hs
      exact ⟨turn, by simp, congrArg Stimulus.asks? hc, hr⟩
  | completes _ _ hp => exact h.later (Or.inr hp)
  | notes _ _ _ hp => exact h.later (Or.inl hp)
  | joins _ _ _ hp => exact h.later (Or.inr hp)

theorem Course.awaits {config : ChannelConfig} {past : List Turn} (h : Course config past) :
    (Channel.now config past).Awaits past := by
  refine h.induction (P := fun past c => c.Awaits past) ?_ fun _ _ ho => ho.snoc
  intro kind call hc
  cases kind <;> cases hc

/-- Only a call that waits for its success is told it. -/
theorem Turn.success_waits {turn : Turn} {call : CallId} (h : call ∈ turn.reaction.successes) :
    ∃ kind, turn.before.pending.success kind = some call := by
  cases turn.settles with
  | keeps hk => simp [hk.successes] at h
  | fails hk => simp [hk.leaves.keeps.successes] at h
  | publishes _ _ hn => simp [hn] at h
  | subscribes _ _ hn => simp [hn] at h
  | completes _ hb _ hn =>
    rw [hn] at h
    exact ⟨.publication, List.mem_singleton.mp h ▸ hb⟩
  | notes _ _ _ _ _ hn => simp [hn] at h
  | joins _ hb _ _ hn =>
    rw [hn] at h
    exact ⟨.subscription, List.mem_singleton.mp h ▸ hb⟩

namespace Rehearsal

variable (config : ChannelConfig) (usual : Endpoint → Answer) (moves : List Move)
variable {name : String} {call : CallId} {session : String}

/--
Whoever is told a success has made a call that was accepted. It is told the session of the last
acknowledgement that was met before the success was posted, whatever request this answers, and an
empty one if there was none or a teardown came after it. So it is told the session of its own
acknowledgement if that was met and neither another one nor a teardown came after it.
-/
theorem play_success_session
    (hm : .notified name (.succeeded call session) ∈ (play config usual moves).log) :
    ∃ past asked since turn rest kind,
      (play config usual moves).history = past ++ asked :: (since ++ turn :: rest) ∧
      asked.Accepts kind call ∧ .post (.succeeded call session) ∈ turn.reaction.effects ∧
      session = (established (past ++ asked :: since)).getD "" ∧
      ∀ before own after id, since = before ++ own :: after → own.Acknowledges asked id →
        (∀ later ∈ after,
          later.stimulus.acknowledged? = none ∧ ¬ later.reaction.Dismantles) →
        session = id := by
  have hd : .succeeded call session ∈ posted (play config usual moves).history := by
    rw [← (play_announces config usual moves).order]
    exact List.mem_append_left _ (List.mem_filterMap.mpr ⟨_, hm, rfl⟩)
  obtain ⟨turn, ht, hp⟩ := List.mem_flatMap.mp hd
  obtain ⟨effect, he, hn⟩ := List.mem_filterMap.mp hp
  obtain rfl : effect = .post (.succeeded call session) := by cases effect <;> simp_all
  obtain ⟨earlier, rest, hh⟩ := List.append_of_mem ht
  have hc := (play_chronicle config usual moves).course
  rw [hh] at hc
  -- The call waits in a slot of the channel, so an earlier step has accepted it.
  obtain ⟨kind, hw⟩ := Turn.success_waits (List.mem_filterMap.mpr ⟨_, he, rfl⟩)
  rw [hc.before] at hw
  obtain ⟨asked, ha, hk⟩ := hc.left.awaits kind call hw
  obtain ⟨past, since, rfl⟩ := List.append_of_mem ha
  have hs : session = (established (past ++ asked :: since)).getD "" := by
    rw [← hc.left.session_eq, ← hc.before]
    exact (hc.fares.names he rfl).resolve_right (by simp)
  refine ⟨past, asked, since, turn, rest, kind, by simp [hh], hk, he, hs, ?_⟩
  rintro before own after id rfl ⟨hi, _⟩ hq
  have hlast : established (past ++ asked :: (before ++ own :: after)) = some id :=
    established_eq_some_iff.mpr ⟨past ++ asked :: before, own, after, by simp, hi, hq⟩
  rw [hs, hlast]
  rfl

/-- A publication that the server takes before anything else happens. -/
def promptPublication : Rehearsal :=
  play {} (fun _ => acknowledgement "session")
    [.command (.plan .createOffer [.hold]),
      .command (.publish (some microphone) { name := "first" }),
      .turn, .turn,
      .command (.receive (.text "success")),
      .turn]

theorem promptPublication_session :
    ∃ past asked since turn rest kind,
      promptPublication.history = past ++ asked :: (since ++ turn :: rest) ∧
        asked.Accepts kind 0 ∧ .post (.succeeded 0 "session") ∈ turn.reaction.effects ∧
        established (past ++ asked :: since) = some "session" := by
  have hm : .notified "first" (.succeeded 0 "session") ∈ promptPublication.log :=
    List.mem_of_getElem? (i := 3) rfl
  obtain ⟨past, asked, since, turn, rest, kind, he, ha, hp, hs, _⟩ :=
    play_success_session {} _ _ hm
  refine ⟨past, asked, since, turn, rest, kind, he, ha, hp, ?_⟩
  cases hk : established (past ++ asked :: since) with
  | none =>
    rw [hk] at hs
    exact absurd hs (by decide)
  | some id =>
    rw [hk] at hs
    exact congrArg some hs.symm

/-- A publication whose success comes when the subscription after it has been acknowledged. -/
def overtakenPublication : Rehearsal :=
  play {} (fun _ => .error .closed)
    [.command (.plan .request
        [.answer (acknowledgement "first"), .answer (acknowledgement "second")]),
      .command (.plan .createOffer [.hold, .hold]),
      .command (.publish (some microphone) { name := "first" }),
      .turn, .turn,
      .command (.subscribe (some {}) {} { name := "second" }),
      .turn, .turn,
      .command (.receive (.text "success")),
      .turn]

theorem success_names_other_session :
    ¬ ∀ (config : ChannelConfig) (usual : Endpoint → Answer) (moves : List Move) (name : String)
        (call : CallId) (session : String) (past rest : List Turn) (asked : Turn)
        (kind : CallKind),
      .notified name (.succeeded call session) ∈ (play config usual moves).log →
      (play config usual moves).history = past ++ asked :: rest → asked.Accepts kind call →
      ∃ own ∈ rest, own.Acknowledges asked session := by
  intro h
  have hm : .notified "first" (.succeeded 0 "second") ∈ overtakenPublication.log :=
    List.mem_of_getElem? (i := 5) rfl
  have he : overtakenPublication.history = [] ++ overtakenPublication.history[0] ::
      [overtakenPublication.history[1], overtakenPublication.history[2],
        overtakenPublication.history[3], overtakenPublication.history[4]] := rfl
  obtain ⟨own, ho, hk, task, ht, hs⟩ := h _ _ _ _ _ _ _ _ _ .publication hm he (by decide)
  -- Only the answer to the subscription brings this session, and it answers no publication.
  simp only [List.mem_cons, List.not_mem_nil, or_false] at ho
  rcases ho with rfl | rfl | rfl | rfl
  · exact absurd hk (by decide)
  · exact absurd hk (by decide)
  · obtain rfl := List.mem_singleton.mp ht
    cases hs
  · exact absurd hk (by decide)

end Rehearsal

end MediaSession
