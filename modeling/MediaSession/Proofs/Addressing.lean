import MediaSession.Proofs.SessionCourse

namespace MediaSession

/-- The session that a message to the server names. -/
def Record.session? : Record → Option String
  | .message envelope => some envelope.id
  | .reportEnd _ session => some session
  | .control _ session _ _ => some session
  | _ => none

theorem Effect.session?_of_record? {effect : Effect} {record : Record}
    (h : effect.record? = some record) : effect.session? = record.session? := by
  cases effect with
  | spawn task =>
    obtain rfl := Option.some.inj h
    cases task <;> rfl
  | proceed task =>
    obtain rfl := Option.some.inj h
    cases task <;> rfl
  | engine call =>
    obtain rfl := Option.some.inj h
    rfl
  | _ => cases h

theorem Effect.candidate?_of_record? {effect : Effect} {record : Record}
    (h : effect.record? = some record) : effect.candidate? = none := by
  cases effect with
  | send envelope => cases h
  | _ => rfl

/-- Whether an envelope reports a candidate. -/
def SignalingEnvelope.isCandidate (envelope : SignalingEnvelope) : Bool :=
  (Effect.send envelope).candidate?.isSome

/-- The messages to the server that a step issues. A candidate is issued when the engine has found
it, even if it is held back then. -/
def Turn.issued (turn : Turn) : List Record :=
  turn.reaction.asked ++
    (turn.discovered ++ turn.reaction.sent.filter (!·.isCandidate)).map .message

theorem Turn.mem_enqueued {turn : Turn} {envelope : SignalingEnvelope}
    (h : envelope ∈ turn.reaction.sent) (hc : envelope.isCandidate = true) :
    envelope ∈ turn.enqueued := by
  refine List.mem_filterMap.mpr ⟨_, Reaction.mem_sent.mp h, ?_⟩
  obtain ⟨id, signaling⟩ := envelope
  cases signaling <;> simp_all [SignalingEnvelope.isCandidate]

theorem Turn.message_mem_issued {turn : Turn} {envelope : SignalingEnvelope}
    (h : .message envelope ∈ turn.issued) :
    envelope ∈ turn.discovered ∨
      envelope ∈ turn.reaction.sent ∧ envelope.isCandidate = false := by
  rcases List.mem_append.mp h with hm | hm
  · obtain ⟨effect, _, hr⟩ := List.mem_filterMap.mp hm
    cases effect with
    | spawn task => cases task <;> cases hr
    | proceed task => cases task <;> cases hr
    | _ => cases hr
  · obtain ⟨other, ho, heq⟩ := List.mem_map.mp hm
    obtain rfl := Record.message.inj heq
    exact (List.mem_append.mp ho).imp_right fun hs => by simpa using List.mem_filter.mp hs

namespace Channel

variable {c : Channel} {stimulus : Stimulus} {reaction : Reaction}

/-- Only the report that candidates are gone makes the channel tell the server so. -/
theorem Fares.removed (h : c.Fares stimulus reaction) {id : String} {removed : List String}
    (he : .send ⟨id, .removedCandidates removed⟩ ∈ reaction.effects) :
    ∃ candidates, stimulus = .candidatesRemoved candidates := by
  have not_stands {c' : Channel} (hs : c'.Stands reaction) : False :=
    Option.some_ne_none _ (hs.plain _ he).2
  cases h with
  | stands _ hs => exact (not_stands hs).elim
  | invites _ _ hs => exact (not_stands hs).elim
  | confirms _ hs => exact (not_stands hs).elim
  | denies _ hs => exact (not_stands hs).elim
  | connects _ _ hs => exact (not_stands hs).elim
  | routes _ hr _ hc =>
    rw [hr] at he
    obtain ⟨envelope, hm, heq⟩ := List.mem_map.mp he
    have hn := hc envelope hm
    rw [heq] at hn
    cases hn
  | withdraws hs _ => exact ⟨_, hs⟩
  | applies _ hr =>
    rw [hr] at he
    cases List.mem_singleton.mp he
  | describes _ hr =>
    have hs := Reaction.mem_sent.mpr he
    rw [hr, localApplied_sent] at hs
    obtain ⟨description, _, heq⟩ := List.mem_map.mp hs
    cases hk : description.kind <;> simp [hk, SignalingPayload.description] at heq

end Channel

/-- Whatever a step issues it issues under the session that the channel has then. -/
theorem Turn.session_of_issued {turn : Turn}
    (h : turn.before.Fares turn.stimulus turn.reaction) {record : Record} {id : String}
    (hm : record ∈ turn.issued) (hr : record.session? = some id) : id = turn.before.session := by
  cases record with
  | message envelope =>
    obtain rfl := Option.some.inj hr
    rcases Turn.message_mem_issued hm with hd | ⟨hs, hc⟩
    · obtain ⟨candidate, _, rfl⟩ := List.mem_map.mp hd
      rfl
    · rcases h.names (Reaction.mem_sent.mp hs) rfl with hi | hn
      · exact hi
      · exact absurd (Option.isSome_iff_ne_none.mpr hn) (Bool.eq_false_iff.mp hc)
  | _ =>
    rcases List.mem_append.mp hm with hm | hm
    · obtain ⟨effect, he, hk⟩ := List.mem_filterMap.mp hm
      rcases h.names he ((Effect.session?_of_record? hk).trans hr) with hi | hn
      · exact hi
      · exact absurd (Effect.candidate?_of_record? hk) hn
    · obtain ⟨_, _, heq⟩ := List.mem_map.mp hm
      cases heq

namespace Rehearsal

variable (config : ChannelConfig) (usual : Endpoint → Answer) (moves : List Move)

/-- Every message that the server has got was issued by a step of the channel. -/
theorem play_issued {record : Record} (hm : record ∈ (play config usual moves).log)
    (hr : record.session? ≠ none) :
    ∃ turn ∈ (play config usual moves).history, record ∈ turn.issued := by
  have of_asked (hc : record.isCall = true) :
      ∃ turn ∈ (play config usual moves).history, record ∈ turn.issued := by
    classical
    have hp : CallClass fun other => decide (other = record) := by
      intro other ho
      exact of_decide_eq_true ho ▸ hc
    have hl := play_log_le config usual moves hp
    have hpos : 0 < (play config usual moves).log.countP fun other => decide (other = record) :=
      List.countP_pos_iff.mpr ⟨record, hm, by simp⟩
    obtain ⟨other, ho, he⟩ := List.countP_pos_iff.mp (Nat.lt_of_lt_of_le hpos hl)
    obtain rfl : other = record := of_decide_eq_true he
    obtain ⟨turn, ht, ha⟩ := List.mem_flatMap.mp ho
    exact ⟨turn, ht, List.mem_append_left _ ha⟩
  cases record with
  | message envelope =>
    have hs : envelope ∈ sent (play config usual moves).history := by
      rw [← (play_dispatches config usual moves).order]
      exact List.mem_append_left _ (List.mem_filterMap.mpr ⟨_, hm, rfl⟩)
    obtain ⟨turn, ht, hs⟩ := List.mem_flatMap.mp hs
    cases hc : envelope.isCandidate with
    | false =>
      have hu : envelope ∈ turn.reaction.sent.filter (!·.isCandidate) :=
        List.mem_filter.mpr ⟨hs, by simp [hc]⟩
      exact ⟨turn, ht, List.mem_append_right _
        (List.mem_map_of_mem (List.mem_append_right _ hu))⟩
    | true =>
      -- What leaves the buffer has been discovered before.
      have hq : envelope ∈ enqueued (play config usual moves).history :=
        List.mem_flatMap.mpr ⟨turn, ht, Turn.mem_enqueued hs hc⟩
      obtain ⟨settled, hd, hp⟩ :=
        (play_flows config usual moves (List.append_nil _).symm).parted
      have hf : envelope ∈ discovered (play config usual moves).history :=
        hd ▸ List.mem_append_left _ (hp.sublist.subset hq)
      obtain ⟨finder, hm, hf⟩ := List.mem_flatMap.mp hf
      exact ⟨finder, hm, List.mem_append_right _
        (List.mem_map_of_mem (List.mem_append_left _ hf))⟩
  | reportEnd _ _ => exact of_asked rfl
  | control _ _ _ _ => exact of_asked rfl
  | _ => exact absurd rfl hr

/--
Suppose that every acknowledgement brings an identity, and that the engine finds candidates only
while the channel has a session. Whatever the server gets under a session was issued by a step under
the session that the channel had then. Its identity is empty if and only if no acknowledgement had
been met, or a teardown after the last one; that of a candidate is never empty, and a message that
candidates are gone was issued when the engine reported so.
-/
theorem play_messages_addressed
    (ha : ∀ turn ∈ (play config usual moves).history, turn.stimulus.acknowledged? ≠ some "")
    (hf : ∀ turn ∈ (play config usual moves).history,
      turn.stimulus.found? ≠ none → turn.before.session ≠ "")
    {record : Record} (hm : record ∈ (play config usual moves).log) {id : String}
    (hr : record.session? = some id) :
    ∃ past turn rest, (play config usual moves).history = past ++ turn :: rest ∧
      record ∈ turn.issued ∧ id = turn.before.session ∧ (id = "" ↔ established past = none) ∧
      (∀ info, record = .message ⟨id, .candidate info⟩ → id ≠ "") ∧
      ∀ removed, record = .message ⟨id, .removedCandidates removed⟩ →
        ∃ candidates, turn.stimulus = .candidatesRemoved candidates := by
  obtain ⟨turn, ht, hi⟩ := play_issued config usual moves hm (hr ▸ Option.some_ne_none id)
  obtain ⟨past, rest, he⟩ := List.append_of_mem ht
  have hc := (play_chronicle config usual moves).course
  rw [he] at hc
  have hid := Turn.session_of_issued hc.fares hi hr
  have hs : id = (established past).getD "" := by rw [hid, hc.before, hc.left.session_eq]
  refine ⟨past, turn, rest, he, hi, hid, ⟨fun hz => ?_, fun hn => ?_⟩, ?_, ?_⟩
  · cases hk : established past with
    | none => rfl
    | some session =>
      obtain ⟨before, ack, after, rfl, hack, _⟩ := established_eq_some_iff.mp hk
      have hz' : session = "" := by rw [← hz, hs, hk]; rfl
      exact absurd (hz' ▸ hack) (ha ack (by simp [he]))
  · rw [hs, hn]
    rfl
  · rintro info rfl
    rcases Turn.message_mem_issued hi with hd | ⟨_, hn⟩
    · obtain ⟨candidate, hk, _⟩ := List.mem_map.mp hd
      have hne : turn.stimulus.found? ≠ none := by
        rw [Option.mem_toList.mp hk]
        exact Option.some_ne_none candidate
      exact hid ▸ hf turn ht hne
    · cases hn
  · rintro removed rfl
    rcases Turn.message_mem_issued hi with hd | ⟨hs, _⟩
    · obtain ⟨candidate, _, heq⟩ := List.mem_map.mp hd
      cases heq
    · exact hc.fares.removed (Reaction.mem_sent.mp hs)

/-- A publication that is paused while its offer is under way. -/
def pausedEarly : Rehearsal :=
  play {} (fun _ => acknowledgement "session")
    [.command (.plan .createOffer [.hold]),
      .command (.publish (some microphone) { name := "first" }),
      .turn,
      .command (.candidateFound ⟨"0", 0, "path"⟩),
      .command (.control .both .pause { name := "second" }),
      .turn, .turn, .turn, .turn]

theorem pausedEarly_addressed :
    .control true "session" .both .pause ∈ pausedEarly.log ∧
      ∃ past turn rest, pausedEarly.history = past ++ turn :: rest ∧
        turn.before.session = "session" ∧ established past ≠ none := by
  have ha : ∀ turn ∈ pausedEarly.history, turn.stimulus.acknowledged? ≠ some "" := by decide
  have hf : ∀ turn ∈ pausedEarly.history,
      turn.stimulus.found? ≠ none → turn.before.session ≠ "" := by decide
  have hm : .control true "session" .both .pause ∈ pausedEarly.log :=
    List.mem_of_getElem? (i := 4) rfl
  obtain ⟨past, turn, rest, he, _, hs, hi, _⟩ := play_messages_addressed {} _ _ ha hf hm rfl
  exact ⟨hm, past, turn, rest, he, hs.symm, fun hn => absurd (hi.mpr hn) (by decide)⟩

/-- An offer is asked for before there is any session. -/
theorem message_without_session :
    ¬ ∀ (config : ChannelConfig) (usual : Endpoint → Answer) (moves : List Move),
      (∀ turn ∈ (play config usual moves).history, turn.stimulus.acknowledged? ≠ some "") →
      (∀ turn ∈ (play config usual moves).history,
        turn.stimulus.found? ≠ none → turn.before.session ≠ "") →
      ∀ record ∈ (play config usual moves).log, ∀ id, record.session? = some id → id ≠ "" := by
  intro h
  have hm : .message ⟨"", .answer ""⟩ ∈ (play {} (fun _ => acknowledgement "session")
      [.command (.create .offer), .turn, .turn, .turn]).log := List.mem_of_getElem? (i := 2) rfl
  exact h _ _ _ (by decide) (by decide) _ hm _ rfl rfl

end Rehearsal

end MediaSession
