import MediaSession.Proofs.SessionEnds

namespace MediaSession

/-- Whether the server is asked for a session. -/
def Task.requests : Task → Bool
  | .requestPublish _ _ => true
  | .requestSubscribe _ _ => true
  | _ => false

/-- Whether a record is that of a request for a session. -/
def Record.requests : Record → Bool
  | .request _ _ _ => true
  | _ => false

/-- Whether a stimulus asks for a teardown. -/
def Stimulus.ends : Stimulus → Bool
  | .unpublish _ _ => true
  | .unsubscribe _ _ => true
  | _ => false

/-- A teardown that is asked for and not refused. -/
def Turn.Ends (turn : Turn) : Prop := turn.stimulus.ends = true ∧ turn.reaction.Dismantles

instance (turn : Turn) : Decidable turn.Ends := inferInstanceAs (Decidable (_ ∧ _))

theorem Stimulus.task?_of_acknowledged? {stimulus : Stimulus} {session : String}
    (h : stimulus.acknowledged? = some session) :
    ∃ task, stimulus.task? = some task ∧ task.requests = true := by
  unfold acknowledged? at h
  split at h
  · exact ⟨_, rfl, rfl⟩
  · exact ⟨_, rfl, rfl⟩
  · cases h

/-- What a teardown leaves behind: no session, no connection, and no request for another one. -/
structure Reaction.Clears (reaction : Reaction) : Prop where
  session : reaction.channel.session = ""
  closed : reaction.channel.isOpen = false
  handed : ∀ task ∈ reaction.handed, task.requests = false

namespace Channel

variable {c : Channel}

theorem not_dismantles_refuse (call : Option CallId) (cause : Cause) :
    ¬ (c.refuse call cause).Dismantles := by
  rintro ⟨effect, he, hr⟩
  obtain ⟨_, _, rfl⟩ := List.mem_map.mp he
  cases hr

theorem dismantle_clears (event : StreamEvent) (call : Option CallId) {f : Channel → Channel}
    (hs : ∀ c, (f c).session = c.session) (ho : ∀ c, (f c).isOpen = c.isOpen) :
    ((c.dismantle event call).andThen fun c => { channel := f c }).Clears := by
  refine ⟨hs _, ho _, fun task ht => ?_⟩
  have ht' : task ∈ [Task.reportEnd event c.session call] := by
    cases hc : c.isOpen <;>
      simpa [Reaction.handed, Reaction.andThen, dismantle, hc, Effect.task?] using ht
  rw [List.mem_singleton.mp ht']
  rfl

theorem unpublish_clears {session : String} {call : Option CallId}
    (h : (c.unpublish session call).Dismantles) : (c.unpublish session call).Clears := by
  unfold unpublish at h ⊢
  split at h
  · exact absurd h (not_dismantles_refuse _ _)
  next hs =>
    rw [if_neg hs]
    exact dismantle_clears _ call (fun _ => rfl) fun _ => rfl

theorem unsubscribe_clears {session : String} {call : Option CallId}
    (h : (c.unsubscribe session call).Dismantles) : (c.unsubscribe session call).Clears := by
  unfold unsubscribe at h ⊢
  split at h
  · exact absurd h (not_dismantles_refuse _ _)
  next hs =>
    split at h
    · exact absurd h (not_dismantles_refuse _ _)
    next hp =>
      rw [if_neg hs, if_neg hp]
      exact dismantle_clears _ call (fun _ => rfl) fun _ => rfl

/-- An acknowledgement is of no consequence for the engine once the connection is closed. -/
theorem acknowledged_idle {stimulus : Stimulus} (hc : c.isOpen = false)
    (hs : stimulus.acknowledged? ≠ none) : (c.meet stimulus).effects = [] := by
  unfold Stimulus.acknowledged? at hs
  split at hs
  · simp [meet, answered, publishConfirmed, confirmHandshake, still, hc]
  · simp [meet, answered, subscribeConfirmed, confirmHandshake, create, still, hc]
  · exact absurd rfl hs

theorem isOpen_meet_of_closed {stimulus : Stimulus} (hc : c.isOpen = false) :
    (c.meet stimulus).channel.isOpen = false := by
  have h := (c.meet_spends stimulus).connection
  have hc' : (c.upon stimulus).isOpen = false := hc
  rw [hc'] at h
  cases ho : (c.meet stimulus).channel.isOpen with
  | false => rfl
  | true => simp [ho] at h

/-- A session is the one that was there before or that is acknowledged. -/
theorem session_meet {stimulus : Stimulus} (hs : (c.meet stimulus).channel.session ≠ "") :
    (c.meet stimulus).channel.session = stimulus.acknowledged?.getD c.session := by
  have h := (c.meet_spends stimulus).session _ hs
  by_contra hn
  have hb : (c.upon stimulus).bears (c.meet stimulus).channel.session = 0 := if_neg (Ne.symm hn)
  rw [hb, bears, if_pos rfl] at h
  omega

end Channel

theorem Turn.Ends.clears {turn : Turn} (h : turn.Ends) : turn.reaction.Clears := by
  obtain ⟨c, stimulus⟩ := turn
  obtain ⟨hs, hd⟩ := h
  cases stimulus with
  | unpublish session call => exact Channel.unpublish_clears hd
  | unsubscribe session call => exact Channel.unsubscribe_clears hd
  | _ => cases hs

/-- The state some steps after a teardown: only an acknowledgement brings a session again. -/
structure Torn (since : List Turn) (c : Channel) : Prop where
  closed : c.isOpen = false
  idle : ∀ turn ∈ since, turn.stimulus.acknowledged? ≠ none → turn.reaction.effects = []
  session : c.session ≠ "" → ∃ before ack after, since = before ++ ack :: after ∧
    ack.stimulus.acknowledged? = some c.session

theorem Torn.start {turn : Turn} (h : turn.Ends) : Torn [] turn.after :=
  ⟨h.clears.closed, by simp, fun hs => absurd h.clears.session hs⟩

theorem Torn.snoc {since : List Turn} {turn : Turn} (h : Torn since turn.before) :
    Torn (since ++ [turn]) turn.after := by
  refine ⟨Channel.isOpen_meet_of_closed h.closed, fun t ht hs => ?_, fun hs => ?_⟩
  · rcases List.mem_append.mp ht with ht | ht
    · exact h.idle t ht hs
    · rw [List.mem_singleton.mp ht] at hs ⊢
      exact Channel.acknowledged_idle h.closed hs
  · have hm : turn.after.session = turn.stimulus.acknowledged?.getD turn.before.session :=
      Channel.session_meet hs
    cases ha : turn.stimulus.acknowledged? with
    | some session => exact ⟨since, turn, [], rfl, by rw [hm, ha]; rfl⟩
    | none =>
      have hb : turn.after.session = turn.before.session := by rw [hm, ha]; rfl
      obtain ⟨before, ack, after, rfl, hk⟩ := h.session (hb ▸ hs)
      exact ⟨before, ack, after ++ [turn], by simp, hb ▸ hk⟩

theorem Course.torn {config : ChannelConfig} {past since : List Turn} {ending : Turn}
    (h : Course config (past ++ ending :: since)) (hq : ending.Ends) :
    Torn since (Channel.now config (past ++ ending :: since)) := by
  induction since using List.reverseRecOn with
  | nil => simpa using Torn.start hq
  | append_singleton since turn ih =>
    have hl : past ++ ending :: (since ++ [turn]) = (past ++ ending :: since) ++ [turn] := by simp
    rw [hl] at h ⊢
    rw [Channel.now_snoc]
    exact Torn.snoc (h.before ▸ ih h.left)

open Classical in
/-- A task that has been handed out more often than it has been answered. -/
def Unanswered (past : List Turn) (task : Task) : Prop :=
  (answered past).count task < (handed past).count task

namespace Rehearsal

variable (config : ChannelConfig) (usual : Endpoint → Answer) (moves : List Move)
variable {past since rest : List Turn} {ending ack : Turn} {task : Task}

/-- An answer is to a task of before, unless the task has been handed out in between. -/
theorem play_unanswered_since
    (he : (play config usual moves).history = past ++ (since ++ ack :: rest))
    (ht : ack.stimulus.task? = some task) (hs : ∀ asked ∈ since, task ∉ asked.reaction.handed)
    (ha : task ∉ ack.reaction.handed) : Unanswered past task := by
  -- Tasks equal to this one are counted; none of the steps in between adds one.
  classical
  have he' : (play config usual moves).history = (past ++ (since ++ [ack])) ++ rest := by simp [he]
  have hc : (answered (past ++ (since ++ [ack]))).count task ≤
      (handed (past ++ (since ++ [ack]))).count task :=
    play_answered_le config usual moves he' (· == task)
  have hb : (answered past).count task + 1 ≤
      (answered (past ++ (since ++ [ack]))).count task := by
    have hk : answered [ack] = [task] := by simp [answered, ht]
    have hl : answered (past ++ (since ++ [ack])) =
        answered past ++ (answered since ++ answered [ack]) := by
      simp only [answered, List.filterMap_append]
    rw [hl, hk, List.count_append, List.count_append, List.count_singleton_self]
    omega
  have hh : (handed (past ++ (since ++ [ack]))).count task = (handed past).count task := by
    have hn : task ∉ handed (since ++ [ack]) := by
      intro hm
      obtain ⟨asked, hm, hk⟩ := List.mem_flatMap.mp hm
      rcases List.mem_append.mp hm with hm | hm
      · exact hs asked hm hk
      · exact ha (List.mem_singleton.mp hm ▸ hk)
    have hl : handed (past ++ (since ++ [ack])) = handed past ++ handed (since ++ [ack]) := by
      simp [handed]
    rw [hl, List.count_append, List.count_eq_zero.mpr hn, Nat.add_zero]
  unfold Unanswered
  convert Nat.lt_of_lt_of_le hb (hh ▸ hc)

/-- An answer after a teardown is to a request of before, or to one that was made in between. -/
theorem play_unanswered
    (he : (play config usual moves).history = past ++ ending :: (since ++ ack :: rest))
    (hq : ending.Ends) (ht : ack.stimulus.task? = some task) (hr : task.requests = true)
    (ha : ack.reaction.effects = []) :
    Unanswered past task ∨ ∃ asked ∈ since, task ∈ asked.reaction.handed := by
  by_cases hs : ∃ asked ∈ since, task ∈ asked.reaction.handed
  · exact Or.inr hs
  · have hn : ∀ asked ∈ ending :: since, task ∉ asked.reaction.handed := by
      intro asked hm hk
      rcases List.mem_cons.mp hm with rfl | hm
      · simp [hq.clears.handed task hk] at hr
      · exact hs ⟨asked, hm, hk⟩
    have ha' : task ∉ ack.reaction.handed := by simp [Reaction.handed, ha]
    have he' : (play config usual moves).history =
        past ++ ((ending :: since) ++ ack :: rest) := he
    exact Or.inl (play_unanswered_since config usual moves he' ht hn ha')

/--
After a teardown that was asked for and not refused the connection stays closed, and no
acknowledgement asks anything of the server or the engine. There is no session until a request is
acknowledged that the server had not answered at the teardown, or that was made after it.
-/
theorem play_session_after_teardown
    (he : (play config usual moves).history = past ++ ending :: (since ++ rest))
    (hq : ending.Ends) :
    (Channel.now config (past ++ ending :: since)).isOpen = false ∧
      (∀ turn ∈ since, turn.stimulus.acknowledged? ≠ none → turn.reaction.effects = []) ∧
      ((Channel.now config (past ++ ending :: since)).session ≠ "" →
        ∃ before ack after task, since = before ++ ack :: after ∧
          ack.stimulus.acknowledged? =
            some (Channel.now config (past ++ ending :: since)).session ∧
          ack.stimulus.task? = some task ∧ task.requests = true ∧
          (Unanswered past task ∨ ∃ asked ∈ before, task ∈ asked.reaction.handed)) := by
  have hc : Course config ((past ++ ending :: since) ++ rest) := by
    have hc := (play_chronicle config usual moves).course
    rw [he] at hc
    simpa using hc
  have ht := hc.left.torn hq
  refine ⟨ht.closed, ht.idle, fun hs => ?_⟩
  obtain ⟨before, ack, after, rfl, hk⟩ := ht.session hs
  obtain ⟨task, hm, hr⟩ := Stimulus.task?_of_acknowledged? hk
  have hi : ack.reaction.effects = [] := ht.idle ack (by simp) (by simp [hk])
  have he' : (play config usual moves).history =
      past ++ ending :: (before ++ ack :: (after ++ rest)) := by simp [he]
  exact ⟨before, ack, after, task, rfl, hk, hm, hr,
    play_unanswered config usual moves he' hq hm hr hi⟩

/-- A publication that ends, and a second one after it. -/
def publishedTwice : List Turn :=
  (play {} (fun _ => .error .closed)
    [.command (.plan .request
        [.answer (acknowledgement "first"), .answer (acknowledgement "second")]),
      .command (.publish (some microphone) { name := "first" }),
      .turn, .turn,
      .command (.unpublish none none),
      .command (.publish (some microphone) { name := "second" }),
      .turn, .turn]).history

theorem publishedTwice_session_requested : ∃ past ending since,
    publishedTwice = past ++ ending :: since ∧ ending.Ends ∧
      (Channel.now {} (past ++ ending :: since)).session = "second" ∧
      ∃ asked ∈ since, ∃ task ∈ asked.reaction.handed, task.requests = true := by
  have he : publishedTwice =
      publishedTwice.take 3 ++ publishedTwice[3] :: (publishedTwice.drop 4 ++ []) := rfl
  have hq : (publishedTwice[3]).Ends := by decide
  obtain ⟨_, _, hs⟩ := play_session_after_teardown {} _ _ he hq
  obtain ⟨before, ack, after, task, hl, _, _, hr, hu | ⟨asked, ha, hm⟩⟩ := hs (by decide)
  · have hn : answered (publishedTwice.take 3) = handed (publishedTwice.take 3) := rfl
    rw [Unanswered, hn] at hu
    exact absurd hu (Nat.lt_irrefl _)
  · exact ⟨_, _, _, he.trans (by rw [List.append_nil]), hq, rfl, asked, by simp [hl, ha], task, hm,
      hr⟩

/-- The server takes its time with a request; meanwhile the publication is ended. -/
theorem late_acknowledgement_brings_session :
    ¬ ∀ (config : ChannelConfig) (usual : Endpoint → Answer) (moves later : List Move)
        (ending : Turn) (since : List Turn),
      (play config usual (moves ++ later)).history =
        (play config usual moves).history ++ ending :: since →
      ending.Ends →
      (play config usual (moves ++ later)).log.countP Record.requests =
        (play config usual moves).log.countP Record.requests →
      ∀ c, (play config usual (moves ++ later)).channel = some c → c.session = "" := by
  intro h
  have hs := h {} (fun _ => .error .closed)
    [.command (.plan .request [.hold]), .command (.publish (some microphone) { name := "first" }),
      .turn]
    [.command (.unpublish none none), .answer 0 (acknowledgement "late"), .turn, .turn]
    _ _ rfl (by decide) rfl _ rfl
  exact absurd hs (by decide)

end Rehearsal

end MediaSession
