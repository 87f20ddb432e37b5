import MediaSession.Proofs.FailureNotices
import MediaSession.Proofs.Standing

namespace MediaSession

/-- Whether the engine reports that the connection has failed. -/
def Stimulus.fails : Stimulus → Bool
  | .connectionChanged .failed => true
  | _ => false

/-- A step that severs the connection: its failure is reported, or the session is torn down. -/
def Turn.Severs (turn : Turn) : Prop :=
  turn.stimulus.fails = true ∨ turn.reaction.Dismantles

instance (turn : Turn) : Decidable turn.Severs := inferInstanceAs (Decidable (_ ∨ _))

theorem Channel.meet_connects {c : Channel} {stimulus : Stimulus}
    (h : stimulus.connects = true) : stimulus.fails = false ∧
      (c.meet stimulus).effects = [] ∧ (c.meet stimulus).channel.isConnected = true := by
  cases stimulus with
  | connectionChanged state =>
    cases state with
    | connected => exact ⟨rfl, rfl, rfl⟩
    | completed => exact ⟨rfl, rfl, rfl⟩
    | _ => cases h
  | _ => cases h

theorem Turn.Severs.connects_eq_false {turn : Turn} (h : turn.Severs) :
    turn.stimulus.connects = false := by
  refine Bool.eq_false_iff.mpr fun hc => ?_
  obtain ⟨hn, he, _⟩ := Channel.meet_connects (c := turn.before) hc
  rcases h with hf | ⟨effect, hm, _⟩
  · exact Bool.false_ne_true (hn.symm.trans hf)
  · rw [Turn.reaction, he] at hm
    cases hm

/-- A connection has been reported that no later step has severed. -/
def Linked (past : List Turn) : Prop :=
  ∃ before report after, past = before ++ report :: after ∧ report.stimulus.connects = true ∧
    ∀ turn ∈ after, ¬ turn.Severs

theorem linked_snoc {past : List Turn} {turn : Turn} :
    Linked (past ++ [turn]) ↔
      turn.stimulus.connects = true ∨ Linked past ∧ ¬ turn.Severs :=
  exists_since_snoc (fun _ (report : Turn) => report.stimulus.connects = true)
    (fun later => ¬ later.Severs) past turn

/-- After the last step that has severed the connection a new one would have to be reported. -/
theorem not_linked_of_severed {before after : List Turn} {cut : Turn} (hc : cut.Severs)
    (ha : ∀ turn ∈ after, turn.stimulus.connects = false) :
    ¬ Linked (before ++ cut :: after) := by
  induction after using List.reverseRecOn with
  | nil =>
    rw [linked_snoc, hc.connects_eq_false]
    rintro (hf | ⟨_, hk⟩)
    · cases hf
    · exact hk hc
  | append_singleton after turn ih =>
    have hl : before ++ cut :: (after ++ [turn]) = (before ++ cut :: after) ++ [turn] := by simp
    rw [hl, linked_snoc, ha turn (by simp)]
    rintro (hf | ⟨hp, _⟩)
    · cases hf
    · exact ih (fun t ht => ha t (List.mem_append_left _ ht)) hp

theorem Reaction.dismantles_andThen {reaction : Reaction} {f : Channel → Reaction} :
    (reaction.andThen f).Dismantles ↔ reaction.Dismantles ∨ (f reaction.channel).Dismantles := by
  simp only [Dismantles, andThen, List.mem_append, or_and_right, exists_or]

theorem Reaction.posted_andThen (reaction : Reaction) (f : Channel → Reaction) :
    (reaction.andThen f).posted = reaction.posted ++ (f reaction.channel).posted :=
  List.filterMap_append

namespace Channel

/-- A step without a report on the connection: what is connected stays so until a teardown. -/
def Retains (c : Channel) (reaction : Reaction) : Prop :=
  reaction.channel.isConnected = true ↔ c.isConnected = true ∧ ¬ reaction.Dismantles

theorem Retains.of_spared {c c' : Channel} {effects : List Effect}
    (hc : c'.isConnected = c.isConnected) (h : ∀ effect ∈ effects, effect.reportsEnd = false) :
    c.Retains { channel := c', effects } := by
  simp only [Retains, hc, not_dismantles h, not_false_eq_true, and_true]

theorem Retains.andThen {c : Channel} {reaction : Reaction} {f : Channel → Reaction}
    (h : c.Retains reaction) (hall : ∀ c' : Channel, c'.Retains (f c')) :
    c.Retains (reaction.andThen f) := by
  unfold Retains at *
  rw [Reaction.dismantles_andThen, not_or, ← and_assoc, ← h, ← hall]
  rfl

variable (c : Channel)

theorem dismantle_retains (event : StreamEvent) (call : Option CallId) :
    c.Retains (c.dismantle event call) := by
  have hd : (c.dismantle event call).Dismantles := ⟨_, List.mem_cons_self, rfl⟩
  have hc : (c.dismantle event call).channel.isConnected = false := rfl
  simp [Retains, hc, hd]

theorem retains_composes : Composes Retains where
  tells c _ _ _ h := .of_spared rfl fun effect he => by cases h effect he <;> rfl
  dismantle := dismantle_retains
  andThen := Retains.andThen

theorem descriptionFailed_retains (cause : Cause) : c.Retains (c.descriptionFailed cause) :=
  retains_composes.descriptionFailed c (.of_spared rfl (by simp))

theorem Reacts.retains {c : Channel} {stimulus : Stimulus} {reaction : Reaction}
    (h : c.Reacts stimulus reaction) (hc : stimulus.connects = false)
    (hf : stimulus.fails = false) : c.Retains reaction := by
  cases h with
  | unpublishes => exact retains_composes.unpublish c _ _
  | unsubscribes => exact retains_composes.unsubscribe c _ _
  | drops => exact retains_composes.endStreams c
  | failsLocal | failsRemote => exact c.descriptionFailed_retains _
  | connects hs => rcases hs with rfl | rfl <;> cases hc
  | loses => cases hf
  | subscribes | confirmsPublish | describes =>
    exact .of_spared rfl (by simp [or_imp, forall_and])
  | _ => exact .of_spared rfl (by simp)

@[simp] theorem still_posted : c.still.posted = [] := rfl

@[simp] theorem unpublish_posted (session : String) : (c.unpublish session none).posted = [] := by
  unfold unpublish
  split
  · rfl
  · rw [Reaction.posted_andThen, dismantle_posted]
    rfl

@[simp] theorem unsubscribe_posted (session : String) :
    (c.unsubscribe session none).posted = [] := by
  unfold unsubscribe
  split
  · rfl
  · split
    · rfl
    · rw [Reaction.posted_andThen, dismantle_posted]
      rfl

/-- The end of the streams on account of an error concerns no call, so nobody is told of it. -/
@[simp] theorem endStreams_posted : c.endStreams.posted = [] := by
  unfold endStreams
  rw [Reaction.posted_andThen]
  split <;> split <;> simp

theorem streamFailed_posted (cause : Cause) : (c.streamFailed cause).posted =
    c.observers.map (.streamFailed · c.activeStream cause.error) := by
  rw [streamFailed, Reaction.posted_andThen, endStreams_posted, List.append_nil, Reaction.posted,
    List.filterMap_map]
  exact congrFun List.filterMap_eq_map c.observers

variable {c}

theorem connectionChanged_connected (h : c.isConnected = true) :
    c.connectionChanged .failed =
      streamFailed { c with isConnected := false } .connectivityLost := by
  rw [connectionChanged, if_pos h]

theorem connectionChanged_unconnected (h : c.isConnected ≠ true) :
    c.connectionChanged .failed = c.still := by
  rw [connectionChanged, if_neg h]

theorem connectionChanged_failed_isConnected :
    (c.connectionChanged .failed).channel.isConnected = false := by
  by_cases h : c.isConnected = true
  · rw [connectionChanged_connected h]
    have hr := retains_composes.streamFailed { c with isConnected := false } .connectivityLost
    exact Bool.eq_false_iff.mpr fun hk => Bool.false_ne_true (hr.mp hk).1
  · rw [connectionChanged_unconnected h]
    exact Bool.eq_false_iff.mpr h

theorem meet_fails {stimulus : Stimulus} (h : stimulus.fails = true) :
    (c.meet stimulus).channel.isConnected = false := by
  cases stimulus with
  | connectionChanged state =>
    cases state with
    | failed => exact connectionChanged_failed_isConnected
    | _ => cases h
  | _ => cases h

end Channel

/-- A report connects the channel, and whatever severs the connection leaves it unconnected. -/
theorem Turn.isConnected_iff (turn : Turn) : turn.after.isConnected = true ↔
    turn.stimulus.connects = true ∨ turn.before.isConnected = true ∧ ¬ turn.Severs := by
  by_cases hc : turn.stimulus.connects = true
  · exact iff_of_true (Channel.meet_connects hc).2.2 (Or.inl hc)
  · by_cases hf : turn.stimulus.fails = true
    · have ha : turn.after.isConnected = false := Channel.meet_fails hf
      simp [ha, hc, Turn.Severs, hf]
    · have hr : turn.before.Retains turn.reaction :=
        (turn.before.meet_reacts _).retains (Bool.eq_false_iff.mpr hc) (Bool.eq_false_iff.mpr hf)
      simp only [Turn.Severs, hc, hf, Bool.false_eq_true, false_or]
      exact hr

/-- The channel counts as connected exactly as long as a report stands that nothing has severed. -/
theorem Course.isConnected_iff {config : ChannelConfig} {past : List Turn}
    (h : Course config past) : (Channel.now config past).isConnected = true ↔ Linked past := by
  refine h.induction (P := fun past c => c.isConnected = true ↔ Linked past) ?_
    fun past turn hk => ?_
  · simp [Linked]
  · rw [turn.isConnected_iff, linked_snoc, hk]

namespace Rehearsal

variable (config : ChannelConfig) (usual : Endpoint → Answer) (moves : List Move)
variable {past rest : List Turn} {turn : Turn}

/--
A failure of the connection is an error of the streams if and only if a connection has been
reported after the last failure and the last teardown. Each observer is then told of it, once and
in the order of registration; otherwise nothing happens at all. A failure uses the report up. All
reports that are neither of a failure nor of a connection do nothing, now or to a later failure.
-/
theorem play_connectivity_edges
    (he : (play config usual moves).history = past ++ turn :: rest)
    {state : IceConnectionState} (hs : turn.stimulus = .connectionChanged state) :
    delivered (play config usual moves).log ++ (play config usual moves).notices.waiting =
        posted past ++ turn.reaction.posted ++ posted rest ∧
      match state with
      | .failed =>
        (Linked past →
            turn.reaction =
                Channel.streamFailed { turn.before with isConnected := false } .connectivityLost ∧
              turn.reaction.posted = (enrolled past).map
                (.streamFailed · turn.before.activeStream Cause.connectivityLost.error)) ∧
          (¬ Linked past → turn.reaction = turn.before.still) ∧
          ((∀ report ∈ past, report.stimulus.connects = false) →
            turn.reaction = turn.before.still) ∧
          (∀ before cut after, past = before ++ cut :: after → cut.Severs →
            (∀ later ∈ after, later.stimulus.connects = false) →
            turn.reaction = turn.before.still) ∧
          ¬ Linked (past ++ [turn])
      | .connected | .completed => turn.reaction.effects = [] ∧ Linked (past ++ [turn])
      | .new | .checking | .disconnected | .closed =>
        turn.reaction = turn.before.still ∧ (Linked (past ++ [turn]) ↔ Linked past) := by
  have hcourse := (play_chronicle config usual moves).course
  rw [he] at hcourse
  have hr := Turn.reaction_eq hs
  refine ⟨?_, ?_⟩
  · rw [(play_announces config usual moves).order, he]
    simp [posted]
  have hk : turn.before.isConnected = true ↔ Linked past :=
    hcourse.before ▸ hcourse.left.isConnected_iff
  -- Without a connection a failure is of no consequence.
  have unlinked (hf : state = .failed) (hn : ¬ Linked past) :
      turn.reaction = turn.before.still := by
    rw [hr, hf]
    exact Channel.connectionChanged_unconnected (mt hk.mp hn)
  cases state with
  | failed =>
    refine ⟨fun hl => ?_, unlinked rfl, fun hn => ?_, fun before cut after hp hc hn => ?_, ?_⟩
    · have hf := Channel.connectionChanged_connected (hk.mpr hl)
      have ho : turn.before.observers = enrolled past := hcourse.before ▸ hcourse.left.observers
      refine ⟨hr.trans hf, ?_⟩
      rw [hr, Channel.meet, hf, Channel.streamFailed_posted, ← ho]
      rfl
    · refine unlinked rfl ?_
      rintro ⟨before, report, after, rfl, hc, _⟩
      exact Bool.false_ne_true ((hn report (by simp)).symm.trans hc)
    · exact unlinked rfl (hp ▸ not_linked_of_severed hc hn)
    · exact not_linked_of_severed (Or.inl (by rw [hs]; rfl)) (by simp)
  | connected => exact ⟨by rw [hr]; rfl, linked_snoc.mpr (Or.inl (by rw [hs]; rfl))⟩
  | completed => exact ⟨by rw [hr]; rfl, linked_snoc.mpr (Or.inl (by rw [hs]; rfl))⟩
  | _ =>
    refine ⟨hr, ?_⟩
    rw [linked_snoc]
    simp [Turn.Severs, hr, hs, Stimulus.connects, Stimulus.fails, Reaction.Dismantles,
      Channel.meet, Channel.connectionChanged, Channel.still]

/-- A connection that fails twice, and is interrupted before it fails for the second time. -/
def flappingConnection : Rehearsal :=
  play {} (fun _ => acknowledgement "session")
    [.command (.addObserver "watcher" []),
      .command (.publish (some microphone) { name := "first" }),
      .turn,
      .command (.connectionChanged .connected),
      .command (.connectionChanged .failed),
      .command (.connectionChanged .completed),
      .command (.connectionChanged .disconnected),
      .command (.connectionChanged .failed),
      .command (.connectionChanged .failed)]

theorem flappingConnection_fails_again :
    ∃ past turn next, flappingConnection.history = past ++ turn :: [next] ∧
      turn.stimulus = .connectionChanged .failed ∧ next.stimulus = .connectionChanged .failed ∧
      turn.reaction.posted =
        [.streamFailed "watcher" none Cause.connectivityLost.error] ∧
      next.reaction = next.before.still := by
  have he : flappingConnection.history = flappingConnection.history.take 7 ++
      flappingConnection.history[7] :: [flappingConnection.history[8]] := rfl
  have hn : flappingConnection.history =
      flappingConnection.history.take 8 ++ flappingConnection.history[8] :: [] := rfl
  have hl : Linked (flappingConnection.history.take 7) :=
    ⟨flappingConnection.history.take 5, flappingConnection.history[5],
      [flappingConnection.history[6]], rfl, rfl, by decide⟩
  have hturn : (flappingConnection.history[7]).stimulus = .connectionChanged .failed := rfl
  have hnext : (flappingConnection.history[8]).stimulus = .connectionChanged .failed := rfl
  obtain ⟨_, hfails, _⟩ := play_connectivity_edges {} _ _ he hturn
  obtain ⟨_, _, _, _, hrests, _⟩ := play_connectivity_edges {} _ _ hn hnext
  refine ⟨_, _, _, he, hturn, hnext, (hfails hl).2, ?_⟩
  exact hrests (flappingConnection.history.take 7) flappingConnection.history[7] [] rfl (by decide)
    (by simp)

end Rehearsal

end MediaSession
